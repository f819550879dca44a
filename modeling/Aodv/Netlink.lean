import Aodv.Parameters

namespace Aodv

open Lib.Bytes

/-- One nl_send per message. A call that sends to the kernel module goes on to
the main routing table only when its first message was sent. -/
def nlSendBoth (e : Env) (s : Daemon) (first second : Obs) : Daemon :=
  { s with
    tick := if e.sendmsg s.tick then s.tick + 2 else s.tick + 1
    trace :=
      if e.sendmsg s.tick then
        if e.sendmsg (s.tick + 1) then second :: first :: s.trace else first :: s.trace
      else s.trace }

def nlSendAddRouteMsg (e : Env) (s : Daemon) (dest next : Addr) (metric : Int) (lifetime : U32)
    (flags : RtFlags) (ifindex : Int) : Daemon :=
  nlSendBoth e s (.nl (.addRoute dest next lifetime flags.inetDest flags.repair ifindex))
    (.kernelRoute true dest next metric ifindex)

def nlSendDelRouteMsg (e : Env) (s : Daemon) (dest next : Addr) (metric : Int) : Daemon :=
  nlSendBoth e s (.nl (.delRoute dest next)) (.kernelRoute false dest next metric (-1))

def nlSendNoRouteFoundMsg (e : Env) (s : Daemon) (dest : Addr) : Daemon :=
  { s with
    tick := s.tick + 1
    trace := if e.sendmsg s.tick then .nl (.noRouteFound dest) :: s.trace else s.trace }

end Aodv
