import Aodv.State

namespace Aodv

def aodvHello : Lib.Bytes.U8 := 0
def aodvRreq : Lib.Bytes.U8 := 1
def aodvRrep : Lib.Bytes.U8 := 2
def aodvRerr : Lib.Bytes.U8 := 3
def aodvRrepAck : Lib.Bytes.U8 := 4

def aodvBroadcast : Addr := 0xffffffff

def receBufSize : Nat := 1024
def sendBufSize : Nat := receBufSize

def maxTtl : Int := 255

def rreqRatelimitMax : Nat := 10
def rerrRatelimitMax : Nat := 10

def kFactor : Int := 5
def allowedHelloLoss : Int := 2
def helloInterval : Int := 1000
def activeRouteTimeout : Int := 3000
def ttlStart : Int := 2
def deletePeriod : Int := kFactor * max activeRouteTimeout (allowedHelloLoss * helloInterval)
def localAddTtl : Int := 2
def netDiameter : Int := 35
def nodeTraversalTime : Int := 40
def netTraversalTime : Int := 2 * nodeTraversalTime * netDiameter
def nextHopWait : Int := nodeTraversalTime + 10
def pathDiscoveryTime : Int := 2 * netTraversalTime
def maxRepairTtl : Nat := 3 * 35 / 10
def myRouteTimeout : Int := 2 * activeRouteTimeout
def rreqRetries : Int := 2
def timeoutBuffer : Int := 2
def ttlIncrement : Int := 2
def ttlThreshold : Int := 7
def ringTraversalTime (ttl : Int) : Int := 2 * nodeTraversalTime * (ttl + timeoutBuffer)
def blacklistTimeout : Int :=
  rreqRetries * netTraversalTime + (ttlThreshold - ttlStart).tdiv ttlIncrement + 1 + rreqRetries

def routeTimeoutSlack : Int := 100
def helloDelay : Int := 50
def rtLogInterval : Int := 10000

end Aodv
