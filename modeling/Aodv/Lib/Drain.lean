import Mathlib.Data.List.Nodup

namespace Aodv.Lib.Drain

variable {σ α β : Type}

/-- Give the first item of a list its turn, until the list is empty or n turns
are over. The list is a part of the state, and what each turn reports is logged. -/
def drain (items : σ → List α) (turn : α → σ → σ × β) : Nat → σ → σ × List (α × β)
  | 0, s => (s, [])
  | n + 1, s =>
      match items s with
      | [] => (s, [])
      | a :: _ =>
          let x := turn a s
          let y := drain items turn n x.1
          (y.1, (a, x.2) :: y.2)

variable {items : σ → List α} {turn : α → σ → σ × β} {P : σ → Prop} {takes : β → α → Bool}
  {s : σ} {a : α} {rest : List α} {n : Nat}

theorem drain_nil (h : items s = []) (n : Nat) : drain items turn n s = (s, []) := by
  cases n with
  | zero => rfl
  | succ n => rw [drain, h]

theorem drain_cons (h : items s = a :: rest) (n : Nat) : drain items turn (n + 1) s =
    ((drain items turn n (turn a s).1).1, (a, (turn a s).2) ::
      (drain items turn n (turn a s).1).2) := by
  rw [drain, h]

/-- A turn takes its own item off the list and the items that it reports, and puts none on it. -/
structure Shrinks (items : σ → List α) (turn : α → σ → σ × β) (P : σ → Prop)
    (takes : β → α → Bool) : Prop where
  keeps : ∀ {s a rest}, P s → items s = a :: rest → P (turn a s).1
  items : ∀ {s a rest}, P s → items s = a :: rest →
    items (turn a s).1 = rest.filter fun c => !takes (turn a s).2 c

namespace Shrinks

theorem length_le (h : Shrinks items turn P takes) (hs : P s) (hi : items s = a :: rest) :
    (items (turn a s).1).length ≤ rest.length := by
  rw [h.items hs hi]
  exact List.length_filter_le _ _

theorem drained (h : Shrinks items turn P takes) (hs : P s) (hn : (items s).length ≤ n) :
    P (drain items turn n s).1 ∧ items (drain items turn n s).1 = [] := by
  induction n generalizing s with
  | zero => exact ⟨hs, List.length_eq_zero_iff.1 (Nat.le_zero.1 hn)⟩
  | succ n ih =>
      cases hi : items s with
      | nil =>
          rw [drain_nil hi]
          exact ⟨hs, hi⟩
      | cons a rest =>
          rw [hi] at hn
          rw [drain_cons hi]
          exact ih (h.keeps hs hi) (Nat.le_trans (h.length_le hs hi) (Nat.le_of_succ_le_succ hn))

end Shrinks

/-- An item of the list either has its turn before any turn takes it off, or it
has none, and a turn of an item before it has taken it off. -/
def Fate (takes : β → α → Bool) (l : List α) (log : List (α × β)) (a : α) : Prop :=
  (∃ pre b post, log = pre ++ (a, b) :: post ∧ ∀ x ∈ pre, takes x.2 a = false) ∨
    (a ∉ log.map Prod.fst ∧ ∃ x ∈ log, [x.1, a].Sublist l ∧ takes x.2 a = true)

end Aodv.Lib.Drain
