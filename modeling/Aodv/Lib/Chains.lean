import Mathlib.Data.Fintype.Card
import Mathlib.Data.List.Infix
import Mathlib.Logic.Relation
import Mathlib.Order.Basic

namespace Aodv.Lib.Chains

open Relation

section Edges

variable {α β : Type} [Preorder β] {r : α → α → Prop} {rank : α → β}

def Onward (r : α → α → Prop) (a b : α) : Prop := r a b ∧ ∃ c, r b c

theorem onward_path {a b : α} (hpath : TransGen r a b) (hend : ∃ c, r b c) :
    TransGen (Onward r) a b := by
  induction hpath with
  | single hab => exact .single ⟨hab, hend⟩
  | tail _ hbc ih => exact (ih ⟨_, hbc⟩).tail ⟨hbc, hend⟩

theorem rank_lt (h : ∀ a b c, Onward r a b → Onward r b c → rank a < rank b) {a b c : α}
    (hpath : TransGen (Onward r) a b) (hnext : Onward r b c) : rank a < rank b := by
  induction hpath generalizing c with
  | single hab => exact h _ _ _ hab hnext
  | tail _ hbc ih => exact lt_trans (ih hbc) (h _ _ _ hbc hnext)

/-- The last vertex of a path, and the one before it, need not have a rank: on a
cycle every vertex has an edge. -/
theorem acyclic (h : ∀ a b c, Onward r a b → Onward r b c → rank a < rank b) (a : α) :
    ¬ TransGen r a a := by
  intro hcycle
  obtain ⟨b, hab, -⟩ := TransGen.head'_iff.1 hcycle
  have honward := onward_path hcycle ⟨b, hab⟩
  obtain ⟨c, hac, -⟩ := TransGen.head'_iff.1 honward
  exact lt_irrefl _ (rank_lt h honward hac)

theorem wellFounded_of_acyclic [Finite α] (h : ∀ a, ¬ TransGen r a a) :
    WellFounded fun b a => r a b := by
  have : IsTrans α fun b a => TransGen r a b := ⟨fun _ _ _ hab hbc => hbc.trans hab⟩
  have : Std.Irrefl fun b a => TransGen r a b := ⟨h⟩
  exact Subrelation.wf TransGen.single (Finite.wellFounded_of_trans_of_irrefl _)

theorem exists_end (hwf : WellFounded fun b a => r a b) (hone : Relator.RightUnique r) (a : α) :
    ∃ b, ReflTransGen r a b ∧ (∀ c, ¬ r b c) ∧ ∀ c, ReflTransGen r a c → ReflTransGen r c b := by
  obtain ⟨b, hpath, hend⟩ : ∃ b, ReflTransGen r a b ∧ ∀ c, ¬ r b c := by
    induction a using hwf.induction with
    | _ a ih =>
        by_cases hnext : ∃ c, r a c
        · obtain ⟨c, hac⟩ := hnext
          obtain ⟨b, hcb, hend⟩ := ih c hac
          exact ⟨b, hcb.head hac, hend⟩
        · exact ⟨a, .refl, fun c hac => hnext ⟨c, hac⟩⟩
  refine ⟨b, hpath, hend, fun c hac => ?_⟩
  rcases ReflTransGen.total_of_right_unique hone hac hpath with hcb | hbc
  · exact hcb
  · rcases hbc.cases_head with rfl | ⟨x, hbx, -⟩
    · exact .refl
    · exact absurd hbx (hend x)

end Edges

section Messages

variable {ι : Type} {log log' : List (ι × ι)} {i j k : ι}

/-- What j knew has reached i. The log has (i, j) for each message of j that i
takes in, the last one first, so a chain of messages follows their order. -/
inductive Informed : List (ι × ι) → ι → ι → Prop
  | self (log : List (ι × ι)) (i : ι) : Informed log i i
  | told {log : List (ι × ι)} {i j k : ι} (h : Informed log j k) : Informed ((i, j) :: log) i k
  | later {log : List (ι × ι)} {i k : ι} (x : ι × ι) (h : Informed log i k) :
      Informed (x :: log) i k

def Via (log : List (ι × ι)) (i j k : ι) : Prop :=
  ∃ past, (i, j) :: past <:+ log ∧ Informed past j k

theorem Informed.mono (h : Informed log i k) (hl : log <:+ log') : Informed log' i k := by
  obtain ⟨l, rfl⟩ := hl
  induction l with
  | nil => exact h
  | cons x l ih => exact .later x ih

theorem Via.first (h : Informed log j k) : Via ((i, j) :: log) i j k :=
  ⟨log, List.suffix_refl _, h⟩

theorem Via.mono (h : Via log i j k) (hl : log <:+ log') : Via log' i j k := by
  obtain ⟨past, hpast, hk⟩ := h
  exact ⟨past, hpast.trans hl, hk⟩

theorem Via.informed (h : Via log i j k) : Informed log i k := by
  obtain ⟨past, hpast, hk⟩ := h
  exact (Informed.told hk).mono hpast

end Messages

end Aodv.Lib.Chains
