import Aodv.ReceivedBytes

namespace Aodv.RerrWire

open Lib.Bytes ReceivedBytes

def nodelete (flags : U8) : Bool := decide (flags &&& (1 <<< 7) ≠ 0)

def built (s : Daemon) (flags : U8) (first : Addr × U32) (rest : List (Addr × U32)) :
    Daemon × RERR :=
  rest.foldl (fun b u => rerrAddUdest b.1 b.2 u.1 u.2)
    (rerrCreate s (nodelete flags) first.1 first.2)

def rerrUdestFirst : Nat := 4

def rerrUdestNext (udest : Nat) : Nat := udest + rerrUdestSize

/-- The records that the loop of rerr_process reads, with the pointers to them. -/
def walk (buf : Buf) : Nat → Nat → List (Nat × (Addr × U32))
  | 0, _ => []
  | n + 1, udest => (udest, udestAt buf udest) :: walk buf n (rerrUdestNext udest)

theorem walk_eq (buf : Buf) (n k : Nat) :
    walk buf n (udestOffset k) =
      (List.range' k n).map fun i => (udestOffset i, udestAt buf (udestOffset i)) := by
  induction n generalizing k with
  | zero => rfl
  | succ n ih =>
      have hnext : rerrUdestNext (udestOffset k) = udestOffset (k + 1) := by
        simp only [rerrUdestNext, udestOffset, rerrUdestSize]
        omega
      rw [walk, hnext, ih, List.range'_succ]
      rfl

theorem walk_listed (buf : Buf) :
    (walk buf (buf 3).toNat rerrUdestFirst).map Prod.snd = listed buf := by
  have hfirst : rerrUdestFirst = udestOffset 0 := rfl
  rw [hfirst, walk_eq, List.map_map, listed, List.range_eq_range']
  rfl

theorem udestAt_storeUdest (b : Buf) (off : Nat) (u : Addr × U32) :
    udestAt (storeUdest b off u) off = u := by
  have haddr : loadLE (storeUdest b off u) off = u.1 := by
    rw [← loadLE_storeLE b off u.1]
    apply loadLE_congr
    intro i _ hi
    exact storeBE_apply_of_disjoint _ _ _ _ (by omega)
  rw [udestAt, haddr, storeUdest, loadBE_storeBE]

theorem udestAt_below (b : Buf) {off udest : Nat} (u : Addr × U32) (h : udest + 8 ≤ off) :
    udestAt (storeUdest b off u) udest = udestAt b udest := by
  have hbelow (i : Nat) (hi : i < udest + 8) : storeUdest b off u i = b i :=
    storeUdest_below b u (by omega)
  rw [udestAt, udestAt, loadLE_congr fun i _ hi => hbelow i (by omega),
    loadBE_congr fun i _ hi => hbelow i (by omega)]

theorem udestAt_storeUdests (b : Buf) (l : List (Addr × U32)) {k : Nat} (hk : k < l.length) :
    udestAt (storeUdests b l) (udestOffset k) = l[k] := by
  induction l using List.reverseRecOn with
  | nil => exact absurd hk (Nat.not_lt_zero k)
  | append_singleton l u ih =>
      rw [storeUdests_snoc]
      by_cases hlast : k = l.length
      · subst k
        rw [udestAt_storeUdest, List.getElem_concat_length rfl]
      · have hlt : k < l.length := by
          rw [List.length_append] at hk
          exact Nat.lt_of_le_of_ne (Nat.le_of_lt_succ hk) hlast
        rw [udestAt_below _ _ (by simp only [udestOffset]; omega), ih hlt,
          List.getElem_append_left hlt]

theorem listed_rerrBuf {m : RERR} (hlen : m.udests.length ≤ 127) : listed (rerrBuf m) = m.udests := by
  have hcount : (rerrBuf m 3).toNat = m.udests.length := by
    rw [rerrBuf, storeUdests_header _ _ (by decide), store_apply_self, BitVec.toNat_ofNat]
    exact Nat.mod_eq_of_lt (by omega)
  rw [listed, hcount]
  apply List.ext_getElem
  · simp
  · intro k hk hk'
    rw [List.getElem_map, List.getElem_range, rerrBuf, udestAt_storeUdests _ _ hk']

theorem nodelete_rerrBuf (m : RERR) : (rerrBuf m 1).getLsbD 0 = m.n := by
  rw [rerrBuf, storeUdests_header _ _ (by decide), store_apply_of_ne _ _ _ _ (by decide), rerrHeader,
    store_apply_self]
  cases m.n <;> rfl

theorem written_built (s : Daemon) (flags : U8) (first : Addr × U32) (rest : List (Addr × U32)) :
    Written (built s flags first rest).1 (built s flags first rest).2 ∧
      (built s flags first rest).2 = ⟨nodelete flags, first :: rest⟩ := by
  induction rest using List.reverseRecOn with
  | nil => exact ⟨written_create s _ _ _, rfl⟩
  | append_singleton rest u ih =>
      have hlast : built s flags first (rest ++ [u]) =
          rerrAddUdest (built s flags first rest).1 (built s flags first rest).2 u.1 u.2 := by
        rw [built, List.foldl_append]
        rfl
      rw [hlast]
      refine ⟨written_add ih.1 _ _, ?_⟩
      rw [rerrAddUdest, ih.2]
      rfl

/-- What rerr_process makes of a datagram: it fits in the receive buffer and passes
the length check, the walk comes to the pairs and stays inside, and the entries
are handled for them. -/
structure Understood (flags : U8) (udests : List (Addr × U32)) (buf : Buf) (len : Nat) : Prop where
  fits : len ≤ receBufSize
  passes : ¬ (len : Int) < rerrCalcSize (buf 3)
  nodelete : (buf 1).getLsbD 0 = nodelete flags
  visits : (walk buf (buf 3).toNat rerrUdestFirst).map Prod.snd = udests
  inside : ∀ x ∈ walk buf (buf 3).toNat rerrUdestFirst, x.1 + rerrUdestSize ≤ len
  handled : ∀ e s src, rerrProcess e s buf len src =
    rerrReply e (udests.foldl (rerrStep e (RerrWire.nodelete flags) src) ⟨s, none, 0⟩)

theorem rerr_round_trip (s : Daemon) (flags : U8) (first : Addr × U32) (rest : List (Addr × U32))
    (hlen : (first :: rest).length ≤ 127) (stale : Buf) :
    let sent := (built s flags first rest).1.sendBuf
    let len := (rerrCalcSize (sent 3)).toNat
    Understood flags (first :: rest) (overlay (take sent len) stale) len := by
  intro sent len
  obtain ⟨hwritten, hm⟩ := written_built s flags first rest
  let m : RERR := ⟨nodelete flags, first :: rest⟩
  have hcount : sent 3 = BitVec.ofNat 8 m.udests.length := by
    have hcount := hwritten.count
    rw [hm] at hcount
    exact hcount
  have hsize : rerrCalcSize (sent 3) = 4 + 8 * (m.udests.length : Int) := by
    rw [hcount, rerrCalcSize_ofNat hlen]
  have hlen' : len = 4 + 8 * m.udests.length := by
    simp only [len, hsize]
    omega
  -- the datagram is the RERR m, whatever stands behind it
  have hagree : Agree len (overlay (take sent len) stale) (rerrBuf m) := by
    intro i hi
    rw [overlay_take sent stale len i hi]
    have hbytes := hwritten.bytes
    rw [hm] at hbytes
    exact hbytes hlen i (hlen' ▸ hi)
  have h3 : overlay (take sent len) stale 3 = sent 3 := overlay_take sent stale len 3 (by omega)
  have hpass : ¬ (len : Int) < rerrCalcSize (overlay (take sent len) stale 3) := by
    rw [h3, hsize]
    omega
  have hn : (overlay (take sent len) stale 1).getLsbD 0 = nodelete flags := by
    rw [hagree 1 (by omega), nodelete_rerrBuf]
  have hlisted : listed (overlay (take sent len) stale) = first :: rest := by
    rw [listed_congr hagree hpass (hagree 3 (by omega)), listed_rerrBuf hlen]
  have hfits : len ≤ receBufSize := by
    have hbuf : receBufSize = 1024 := rfl
    change (first :: rest).length ≤ 127 at hlen
    change len = 4 + 8 * (first :: rest).length at hlen'
    omega
  refine ⟨hfits, hpass, hn, ?_, ?_, ?_⟩
  · rw [walk_listed, hlisted]
  · have hfirst : rerrUdestFirst = udestOffset 0 := rfl
    intro x hx
    rw [hfirst, walk_eq] at hx
    obtain ⟨k, hk, rfl⟩ := List.mem_map.1 hx
    have hk' := (List.mem_range'_1.1 hk).2
    rw [h3, hcount, BitVec.toNat_ofNat] at hk'
    have hmod := Nat.mod_le m.udests.length (2 ^ 8)
    simp only [udestOffset, rerrUdestSize, hlen']
    omega
  · intro e s src
    rw [rerrProcess, if_neg hpass, hlisted, hn]

/-- An RERR with two records and the N flag. -/
def two : Buf := (built (init plain 0x0100000a 0xff00000a 2) 0x80 (0x0900000a, 7)
  [(0x0800000a, 9)]).1.sendBuf

theorem rerr_round_trip_two : Understood 0x80 [(0x0900000a, 7), (0x0800000a, 9)]
    (overlay (take two 20) zeroed) 20 := by
  have hlen : (rerrCalcSize (two 3)).toNat = 20 := by decide +kernel
  have htwo := rerr_round_trip (init plain 0x0100000a 0xff00000a 2) 0x80 (0x0900000a, 7)
    [(0x0800000a, 9)] (by decide) zeroed
  change Understood _ _ (overlay (take two (rerrCalcSize (two 3)).toNat) zeroed)
    (rerrCalcSize (two 3)).toNat at htwo
  rw [hlen] at htwo
  exact htwo

end Aodv.RerrWire
