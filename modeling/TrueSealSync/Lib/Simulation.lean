/-
  File:      TrueSealSync/Lib/Simulation.lean
  Subject:   Simulation between two transition systems that show the same events.

  Each system shows an event, or none, at an action in a state. A system simulates another one
  when every action of the second is answered by a list of actions of the first that shows the
  same: the empty list where the action is internal, several actions where it takes several.
  Nothing here names a program.

  * `observed` -- the events of a run, in order; `observed_append` splits them;
  * `Simulation` -- the step condition, under a condition on the runs that holds of every prefix.
    The relation may look at the run so far;
  * `Simulation.run` -- every run is matched by a run that shows the same events.
-/
import TrueSealSync.Lib.Run

namespace TrueSealSync.Lib

namespace System

variable {σ τ α β ε : Type*}

/-! ## 1. What a run shows -/

section Observed

variable (S : System σ α) (event : σ → α → Option ε)

theorem exec_single {s t : σ} {a : α} : S.exec s [a] = some t ↔ S.step s a = some t := by
  cases h : S.step s a <;> simp [h]

/-- The events the actions `tr` show, taken in order from `s`. -/
def observed (s : σ) : List α → List ε
  | [] => []
  | a :: tr => (event s a).toList ++ ((S.step s a).elim [] fun s' => observed s' tr)

@[simp] theorem observed_nil (s : σ) : S.observed event s [] = [] := rfl

theorem observed_cons {s s' : σ} {a : α} {tr : List α} (h : S.step s a = some s') :
    S.observed event s (a :: tr) = (event s a).toList ++ S.observed event s' tr := by
  rw [observed, h]
  rfl

theorem observed_append {s t : σ} {tr tr' : List α} (h : S.exec s tr = some t) :
    S.observed event s (tr ++ tr') = S.observed event s tr ++ S.observed event t tr' := by
  induction tr generalizing s with
  | nil =>
      cases h
      rfl
  | cons a tr ih =>
      obtain ⟨s', hst, hex⟩ := Option.bind_eq_some_iff.mp h
      rw [List.cons_append, S.observed_cons event hst, S.observed_cons event hst, ih hex,
        List.append_assoc]

/-- One action that is taken shows its event. -/
theorem observed_single {s s' : σ} {a : α} (h : S.step s a = some s') :
    S.observed event s [a] = (event s a).toList := by
  rw [S.observed_cons event h, observed_nil, List.append_nil]

theorem observed_concat {s t t' : σ} {tr : List α} {a : α} (h : S.exec s tr = some t)
    (hst : S.step t a = some t') :
    S.observed event s (tr ++ [a]) = S.observed event s tr ++ (event t a).toList := by
  rw [S.observed_append event h, S.observed_single event hst]

end Observed

/-! ## 2. Simulation -/

section Simulation

variable (S : System σ α) (T : System τ β) (eventS : σ → α → Option ε) (eventT : τ → β → Option ε)

/-- **`T` simulates the runs of `S` that meet `C`**: what relates the states is kept, and the
    actions of `T` that answer an action of `S` show what it shows. -/
structure Simulation (C : List α → Prop) (R : List α → σ → τ → Prop) : Prop where
  init : R [] S.init T.init
  before : ∀ tr a, C (tr ++ [a]) → C tr
  step : ∀ tr s a s' t, S.Run tr s → C (tr ++ [a]) → R tr s t → S.step s a = some s' →
    ∃ tr' t', T.exec t tr' = some t' ∧ R (tr ++ [a]) s' t' ∧
      T.observed eventT t tr' = (eventS s a).toList

variable {S T eventS eventT}

/-- **Every run is matched by a run that shows the same events**, and the ends are related. -/
theorem Simulation.run {C : List α → Prop} {R : List α → σ → τ → Prop}
    (hS : Simulation S T eventS eventT C R) {tr : List α} {s : σ} (h : S.Run tr s) (hC : C tr) :
    ∃ tr' t, T.Run tr' t ∧ R tr s t ∧
      T.observed eventT T.init tr' = S.observed eventS S.init tr := by
  induction h using Run.induct with
  | start => exact ⟨[], T.init, Run.start, hS.init, rfl⟩
  | snoc tr s a s' h hs ih =>
      obtain ⟨tr₁, t, hrun, hR, hobs⟩ := ih (hS.before tr a hC)
      obtain ⟨tr₂, t', hex, hR', hobs'⟩ := hS.step tr s a s' t h hC hR hs
      refine ⟨tr₁ ++ tr₂, t', hrun.trans hex, hR', ?_⟩
      rw [T.observed_append eventT hrun, hobs, hobs', S.observed_concat eventS h hs]

end Simulation

end System

end TrueSealSync.Lib
