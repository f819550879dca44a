import Mathlib.Algebra.Group.Nat.Defs
import Mathlib.Data.Fintype.Card
import Mathlib.Data.List.Infix
import Mathlib.Data.List.Nodup
import Mathlib.Data.List.Perm.Basic
import Mathlib.Data.List.Sort

namespace Aodv.Lib.Sequences

section Insertion

variable {α : Type} {r R : α → α → Prop} [DecidableRel r]

/-- Insertion before the first element that comes later, by a comparison r that
need not be an order, keeps every relation R it agrees with. -/
theorem pairwise_orderedInsert (hbefore : ∀ a b, r a b → R a b) (hafter : ∀ a b, ¬ r a b → R b a)
    (hpast : ∀ a b c, r a b → R b c → R a c) (a : α) {l : List α} (h : l.Pairwise R) :
    (l.orderedInsert r a).Pairwise R := by
  induction l with
  | nil => simp
  | cons b l ih =>
      obtain ⟨hb, hl⟩ := List.pairwise_cons.1 h
      rw [List.orderedInsert_cons]
      split
      next hab =>
        apply List.pairwise_cons.2
        refine ⟨?_, h⟩
        intro c hc
        rcases List.mem_cons.1 hc with rfl | hc
        · exact hbefore a c hab
        · exact hpast a b c hab (hb c hc)
      next hab =>
        apply List.pairwise_cons.2
        refine ⟨?_, ih hl⟩
        intro c hc
        rcases (List.mem_orderedInsert r).1 hc with rfl | hc
        · exact hafter c b hab
        · exact hb c hc

theorem nodup_map_orderedInsert {β : Type} (f : α → β) (a : α) {l : List α}
    (h : (l.map f).Nodup) (ha : f a ∉ l.map f) : ((l.orderedInsert r a).map f).Nodup := by
  have hperm : ((l.orderedInsert r a).map f).Perm (f a :: l.map f) :=
    (List.perm_orderedInsert r a l).map f
  exact hperm.nodup_iff.2 (List.nodup_cons.2 ⟨ha, h⟩)

end Insertion

section Erasure

variable {α : Type} (p : α → Bool)

theorem filter_eraseP (l : List α) : (l.eraseP p).filter p = (l.filter p).tail := by
  induction l with
  | nil => rfl
  | cons b l ih =>
      by_cases hb : p b = true
      · rw [List.eraseP_cons_of_pos hb, List.filter_cons_of_pos hb, List.tail_cons]
      · rw [List.eraseP_cons_of_neg hb, List.filter_cons_of_neg hb, List.filter_cons_of_neg hb, ih]

theorem filter_not_eraseP (l : List α) :
    (l.eraseP p).filter (fun b => !p b) = l.filter (fun b => !p b) := by
  induction l with
  | nil => rfl
  | cons b l ih =>
      by_cases hb : p b = true
      · rw [List.eraseP_cons_of_pos hb, List.filter_cons_of_neg (by simp [hb])]
      · rw [List.eraseP_cons_of_neg hb, List.filter_cons_of_pos (by simp [hb]),
          List.filter_cons_of_pos (by simp [hb]), ih]

theorem find?_of_filter_cons {l rest : List α} {b : α} (h : l.filter p = b :: rest) :
    l.find? p = some b := by
  rw [← List.head?_filter, h]
  rfl

theorem filter_not_of_filter_nil {l : List α} (h : l.filter p = []) :
    l.filter (fun b => !p b) = l := by
  apply List.filter_eq_self.2
  intro b hb
  simpa using List.filter_eq_nil_iff.1 h b hb

end Erasure

section Counting

variable {α : Type} [DecidableEq α] {l l' : List α} {a : α} {f g : α → Bool}

theorem countP_erase (ha : a ∈ l) (f : α → Bool) :
    l.countP f = (f a).toNat + (l.erase a).countP f := by
  rw [(List.perm_cons_erase ha).countP_eq, List.countP_cons, Nat.add_comm]
  cases f a <;> rfl

theorem countP_change (hn : l.Nodup) (ha : a ∈ l) (h : ∀ b ∈ l, b ≠ a → g b = f b) :
    l.countP g + (f a).toNat = l.countP f + (g a).toNat := by
  have hrest : (l.erase a).countP g = (l.erase a).countP f := by
    refine List.countP_congr fun b hb => ?_
    obtain ⟨hne, hb⟩ := hn.mem_erase_iff.1 hb
    rw [h b hb hne]
  rw [countP_erase ha g, countP_erase ha f, hrest]
  omega

omit [DecidableEq α] in
theorem countP_insert (hn : l.Nodup) (hn' : l'.Nodup) (ha : a ∉ l)
    (h : ∀ b, b ∈ l' ↔ b = a ∨ b ∈ l) (hfg : ∀ b ∈ l, g b = f b) :
    l'.countP g = l.countP f + (g a).toNat := by
  have hperm : l'.Perm (a :: l) :=
    (List.perm_ext_iff_of_nodup hn' (List.nodup_cons.2 ⟨ha, hn⟩)).2 fun b => by
      rw [h, List.mem_cons]
  have hold : l.countP g = l.countP f := List.countP_congr fun b hb => by rw [hfg b hb]
  rw [hperm.countP_eq, List.countP_cons, hold]
  cases g a <;> rfl

theorem length_lt_of_nodup {w : Nat} {b : BitVec w} {l : List (BitVec w)} (h : l.Nodup) (hb : b ∉ l) :
    l.length < 2 ^ w := by
  have hall : ((b :: l).map BitVec.toFin).Nodup :=
    List.Nodup.map (fun _ _ => BitVec.eq_of_toFin_eq) (List.nodup_cons.2 ⟨hb, h⟩)
  have hcard := List.Nodup.length_le_card hall
  rwa [List.length_map, List.length_cons, Fintype.card_fin] at hcard

end Counting

section Window

variable {α : Type} {p : α → Bool}

/-- Of a list in which p holds of a first part and of nothing after it, more than n
elements satisfy p exactly if the one with index n does. -/
theorem lt_countP_iff {l : List α} (h : l.Pairwise fun a b => p b = true → p a = true) (n : Nat) :
    n < l.countP p ↔ ∃ a, l[n]? = some a ∧ p a = true := by
  induction l generalizing n with
  | nil => simp
  | cons a l ih =>
      obtain ⟨ha, hl⟩ := List.pairwise_cons.1 h
      by_cases hp : p a = true
      · rw [List.countP_cons_of_pos hp]
        cases n with
        | zero => simp [hp]
        | succ n =>
            rw [List.getElem?_cons_succ, ← ih hl n]
            exact Nat.succ_lt_succ_iff
      · have hnone : ∀ b ∈ l, ¬ p b = true := fun b hb hpb => hp (ha b hb hpb)
        rw [List.countP_cons_of_neg hp, List.countP_eq_zero.2 hnone]
        constructor
        · intro hn
          exact absurd hn (Nat.not_lt_zero n)
        · rintro ⟨b, hb, hpb⟩
          cases n with
          | zero =>
              obtain rfl : a = b := by simpa using hb
              exact absurd hpb hp
          | succ n =>
              rw [List.getElem?_cons_succ] at hb
              exact absurd hpb (hnone b (List.mem_of_getElem? hb))

theorem shift_take {l : List α} {m : Nat} (hm : m < l.length) (a : α) :
    (l.take (m + 1)).reverse.tail ++ [a] = ((a :: l).take (m + 1)).reverse := by
  have hlen : (l.take m).length = m := List.length_take_of_le (Nat.le_of_lt hm)
  rw [List.take_succ_cons, List.reverse_cons, List.take_succ_eq_append_getElem hm,
    List.reverse_append]
  rfl

theorem head_take {l : List α} {m : Nat} (hm : m < l.length) :
    (l.take (m + 1)).reverse.head? = l[m]? := by
  rw [List.head?_reverse, List.take_succ_eq_append_getElem hm, List.getLast?_concat,
    List.getElem?_eq_getElem hm]

end Window

section Prefixes

variable {σ α : Type} {f : σ → α → σ} {P : σ → Prop} {G : σ → α → Prop}

/-- Where each step keeps P exactly when it is a good one, P holds all along a
run exactly when all its steps are good. -/
theorem prefixes_iff {s : σ} (hinit : P s) (hstep : ∀ x c, P x → (P (f x c) ↔ G x c))
    (cs : List α) : (∀ pre, pre <+: cs → P (pre.foldl f s)) ↔
      ∀ pre c, pre ++ [c] <+: cs → G (pre.foldl f s) c := by
  constructor
  · intro h pre c hpre
    have hbefore : P (pre.foldl f s) := h pre ((List.prefix_append pre [c]).trans hpre)
    have hafter : P ((pre ++ [c]).foldl f s) := h _ hpre
    rw [List.foldl_append] at hafter
    exact (hstep _ c hbefore).1 hafter
  · intro h pre
    induction pre using List.reverseRecOn with
    | nil => exact fun _ => hinit
    | append_singleton pre c ih =>
        intro hpre
        rw [List.foldl_append]
        exact (hstep _ c (ih ((List.prefix_append pre [c]).trans hpre))).2 (h pre c hpre)

end Prefixes

end Aodv.Lib.Sequences
