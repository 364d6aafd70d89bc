/-
  File:      TrueSealSync/Lib/Progress.lean
  Subject:   Runs with a budget, and systems of parties that only move forward: how long a run can
             be, and where it ends.

  Some actions are marked: what they start comes from outside. Nothing here names a program.

  * `Bounded` -- a run is at most as long as its budget, and only marked actions add to the budget;
  * `Resting` -- no action is left but marked ones;
  * `Bounded.settles` -- every run can be continued, without a marked action, to such a state, and
    no continuation of this kind goes on forever (`Bounded.continuation_le`);
  * `Ranked` -- a budget for parties: every action is one party's, it takes this party strictly
    forward and no party back, each party has a last position, and the first action of a party is
    marked. A run is at most as long as the parties it started can go (`Ranked.length_le`).
-/
import Mathlib.Algebra.Order.BigOperators.Group.List
import Mathlib.Algebra.Order.Ring.Nat
import TrueSealSync.Lib.Run

namespace TrueSealSync.Lib

namespace System

variable {σ α π : Type*}

/-! ## 1. Runs with a budget -/

/-- Nothing is left to do but what `starts` marks. -/
def Resting (S : System σ α) (starts : α → Bool) (s : σ) : Prop :=
  ∀ a s', S.step s a = some s' → starts a = true

/-- **Runs with a budget**, as long as they meet `C`: no action adds to the budget or leaves `C`
    but those `starts` marks. -/
structure Bounded (S : System σ α) (starts : α → Bool) (C : List α → Prop)
    (budget : List α → Nat) : Prop where
  keep : ∀ tr a, starts a = false → C tr → C (tr ++ [a])
  spend : ∀ tr a, starts a = false → budget (tr ++ [a]) = budget tr
  length_le : ∀ tr s, S.Run tr s → C tr → tr.length ≤ budget tr

namespace Bounded

variable {S : System σ α} {starts : α → Bool} {C : List α → Prop} {budget : List α → Nat}
  {tr tr' : List α} {s s' : σ}

/-- Without a marked action the budget is what it was. -/
theorem append (hB : Bounded S starts C budget) (hC : C tr) (hno : ∀ a ∈ tr', starts a = false) :
    C (tr ++ tr') ∧ budget (tr ++ tr') = budget tr := by
  induction tr' generalizing tr with
  | nil =>
      rw [List.append_nil]
      exact ⟨hC, rfl⟩
  | cons a tr' ih =>
      have ha := hno a List.mem_cons_self
      obtain ⟨hC', hb⟩ := ih (hB.keep tr a ha hC) fun b hb => hno b (List.mem_cons_of_mem a hb)
      rw [List.append_assoc, List.singleton_append] at hC' hb
      exact ⟨hC', hb.trans (hB.spend tr a ha)⟩

/-- A continuation without a marked action is bounded by what is left of the budget. -/
theorem continuation_le (hB : Bounded S starts C budget) (h : S.Run tr s) (hC : C tr)
    (h' : S.exec s tr' = some s') (hno : ∀ a ∈ tr', starts a = false) :
    tr.length + tr'.length ≤ budget tr := by
  obtain ⟨hC', hb⟩ := hB.append hC hno
  have := hB.length_le _ _ (h.trans h') hC'
  rwa [hb, List.length_append] at this

/-- **Every run can be continued, without a marked action, until nothing else is left to do.** -/
theorem settles (hB : Bounded S starts C budget) (h : S.Run tr s) (hC : C tr) :
    ∃ tr' s', S.exec s tr' = some s' ∧ (∀ a ∈ tr', starts a = false) ∧ S.Resting starts s' := by
  -- on what is left of the budget: each further action uses some of it up
  generalize hn : budget tr - tr.length = n
  induction n using Nat.strong_induction_on generalizing tr s with
  | _ n ih =>
      by_cases hq : S.Resting starts s
      · exact ⟨[], s, rfl, nofun, hq⟩
      · obtain ⟨a, s₁, hst, hns⟩ : ∃ a s₁, S.step s a = some s₁ ∧ starts a = false := by
          simpa [Resting] using hq
        have hC' := hB.keep tr a hns hC
        have hlen := hB.length_le _ _ (h.snoc hst) hC'
        rw [hB.spend tr a hns, List.length_append, List.length_singleton] at hlen
        obtain ⟨tr', s', hex, hno, hq'⟩ := ih (budget (tr ++ [a]) - (tr ++ [a]).length)
          (by rw [hB.spend tr a hns, List.length_append, List.length_singleton]; omega)
          (h.snoc hst) hC' rfl
        refine ⟨a :: tr', s', by simp [hst, hex], fun b hb' => ?_, hq'⟩
        rcases List.mem_cons.mp hb' with rfl | hb'
        · exact hns
        · exact hno b hb'

end Bounded

/-! ## 2. Parties -/

/-- Parties that only move forward. -/
structure Ranked (S : System σ α) (π : Type*) where
  party : α → π
  starts : α → Bool
  rank : σ → π → Nat
  /-- the last position of a party -/
  limit : π → Nat
  init : ∀ p, rank S.init p = 0
  le_limit : ∀ s p, rank s p ≤ limit p
  own : ∀ s a s', S.step s a = some s' → rank s (party a) < rank s' (party a)
  other : ∀ s a s' p, S.step s a = some s' → p ≠ party a → rank s' p = rank s p
  /-- whoever has not started starts with its first action -/
  first : ∀ s a s', S.step s a = some s' → rank s (party a) = 0 → starts a = true

/-- Nothing is left to do but to start new parties. -/
def Ranked.Quiescent {S : System σ α} (P : Ranked S π) (s : σ) : Prop :=
  ∀ a s', S.step s a = some s' → P.starts a = true

namespace Ranked

variable {S : System σ α} (P : Ranked S π)

/-- The parties a run starts, in order. -/
def started (tr : List α) : List π := (tr.filter P.starts).map P.party

/-- How far the parties a run starts can go in all. -/
def budget (tr : List α) : Nat := ((P.started tr).map P.limit).sum

theorem started_append (tr tr' : List α) :
    P.started (tr ++ tr') = P.started tr ++ P.started tr' := by
  simp [started]

theorem started_eq_nil {tr : List α} (h : ∀ a ∈ tr, P.starts a = false) : P.started tr = [] := by
  simp only [started, List.map_eq_nil_iff, List.filter_eq_nil_iff, Bool.not_eq_true]
  exact h

theorem budget_append_of_none {tr tr' : List α} (h : ∀ a ∈ tr', P.starts a = false) :
    P.budget (tr ++ tr') = P.budget tr := by
  rw [budget, started_append, started_eq_nil P h, List.append_nil, budget]

variable {P} {tr : List α} {s s' : σ} {a : α}

/-- No party goes back. -/
theorem rank_mono (hs : S.step s a = some s') (p : π) : P.rank s p ≤ P.rank s' p := by
  by_cases hp : p = P.party a
  · rw [hp]
    exact Nat.le_of_lt (P.own s a s' hs)
  · exact Nat.le_of_eq (P.other s a s' p hs hp).symm

/-- A party that is under way was started by the run. -/
theorem mem_started (h : S.Run tr s) {p : π} (hp : P.rank s p ≠ 0) : p ∈ P.started tr := by
  induction h using Run.induct with
  | start => exact absurd (P.init p) hp
  | snoc tr s a s' h hs ih =>
      rw [P.started_append]
      by_cases hr : P.rank s p = 0
      · -- the last action took it from its start
        obtain rfl : p = P.party a := by
          by_contra hne
          exact hp ((P.other s a s' p hs hne).trans hr)
        have hstart := P.first s a s' hs hr
        exact List.mem_append_right _ (by simp [started, hstart])
      · exact List.mem_append_left _ (ih hr)

/-- The positions of some parties, added up, grow with every action of one of them. -/
theorem sum_rank_step (hs : S.step s a = some s') (ps : List π) :
    (ps.map (P.rank s)).sum ≤ (ps.map (P.rank s')).sum ∧
      (P.party a ∈ ps → (ps.map (P.rank s)).sum < (ps.map (P.rank s')).sum) := by
  refine ⟨List.sum_le_sum fun p _ => rank_mono hs p, fun hm => ?_⟩
  exact List.sum_lt_sum _ _ (fun p _ => rank_mono hs p) ⟨P.party a, hm, P.own s a s' hs⟩

/-- A run is at most as long as the parties it started have gone. -/
theorem length_le_rank (h : S.Run tr s) :
    tr.length ≤ ((P.started tr).map (P.rank s)).sum := by
  induction h using Run.induct with
  | start => exact Nat.zero_le _
  | snoc tr s a s' h hs ih =>
      obtain ⟨hle, hlt⟩ := sum_rank_step (P := P) hs (P.started tr)
      rw [P.started_append, List.map_append, List.sum_append, List.length_append,
        List.length_singleton]
      by_cases hr : P.rank s (P.party a) = 0
      · have hown := P.own s a s' hs
        have hnew : P.started [a] = [P.party a] := by simp [started, P.first s a s' hs hr]
        rw [hnew, List.map_singleton, List.sum_singleton]
        omega
      · have := hlt (mem_started h hr)
        omega

/-- **A run is at most as long as the parties it started can go.** -/
theorem length_le (h : S.Run tr s) : tr.length ≤ P.budget tr :=
  Nat.le_trans (length_le_rank h) (List.sum_le_sum fun p _ => P.le_limit s p)

/-- The parties a run starts are its budget. -/
theorem bounded (P : Ranked S π) : Bounded S P.starts (fun _ => True) P.budget where
  keep _ _ _ _ := trivial
  spend _ a ha := P.budget_append_of_none (by simpa using ha)
  length_le _ _ h _ := length_le h

/-- A continuation that starts no party is bounded by what is left of the budget. -/
theorem continuation_le {tr' : List α} (h : S.Run tr s) (h' : S.exec s tr' = some s')
    (hns : ∀ a ∈ tr', P.starts a = false) : tr.length + tr'.length ≤ P.budget tr :=
  P.bounded.continuation_le h trivial h' hns

/-- **Every run can be continued, without starting a party, until nothing is left to do.** -/
theorem settles (h : S.Run tr s) : ∃ tr' s', S.exec s tr' = some s' ∧
    (∀ a ∈ tr', P.starts a = false) ∧ P.Quiescent s' :=
  P.bounded.settles h trivial

end Ranked

end System

end TrueSealSync.Lib
