/-
  File:      TrueSealSync/Lib/Run.lean
  Subject:   Transition systems with a partial step function, and what holds along their runs.

  A system is a start state and a function that answers what one action does (`none`: the action
  is not enabled). Nothing here names a program.

  * `exec`, `Run` -- the actions of a run in order, and the state they lead to;
  * `Run.induct` -- the induction every invariant uses: the start, and one more action at the end;
  * `exec_stable` -- what a step preserves stays true in every later state;
  * `Passes`, `Fires` -- a run went through a state, a run took an action in a state. A statement
    about the ORDER of two events of a run is a statement about these;
  * `Along` -- a condition every action of a run meets in the state it is taken in.
-/
import Mathlib.Data.List.Induction

namespace TrueSealSync.Lib

/-- A transition system: a start state and the effect of one action, `none` where the action is
    not enabled. -/
structure System (σ α : Type*) where
  init : σ
  step : σ → α → Option σ

namespace System

variable {σ α : Type*} (S : System σ α)

/-! ## 1. Executing a list of actions -/

/-- The state after the actions `tr`, taken in order from `s`. -/
def exec (s : σ) : List α → Option σ
  | [] => some s
  | a :: tr => (S.step s a).bind fun s' => exec s' tr

@[simp] theorem exec_nil (s : σ) : S.exec s [] = some s := rfl

@[simp] theorem exec_cons (s : σ) (a : α) (tr : List α) :
    S.exec s (a :: tr) = (S.step s a).bind fun s' => S.exec s' tr := rfl

theorem exec_append (s : σ) (tr₁ tr₂ : List α) :
    S.exec s (tr₁ ++ tr₂) = (S.exec s tr₁).bind fun s' => S.exec s' tr₂ := by
  induction tr₁ generalizing s with
  | nil => rfl
  | cons a tr₁ ih =>
      simp only [List.cons_append, exec_cons]
      cases S.step s a with
      | none => rfl
      | some s' => exact ih s'

theorem exec_append_some {s u : σ} {tr₁ tr₂ : List α} :
    S.exec s (tr₁ ++ tr₂) = some u ↔ ∃ t, S.exec s tr₁ = some t ∧ S.exec t tr₂ = some u := by
  rw [exec_append]
  cases S.exec s tr₁ <;> simp

theorem exec_concat {s u : σ} {tr : List α} {a : α} :
    S.exec s (tr ++ [a]) = some u ↔ ∃ t, S.exec s tr = some t ∧ S.step t a = some u := by
  rw [exec_append_some]
  refine exists_congr fun t => and_congr_right fun _ => ?_
  cases h : S.step t a <;> simp [h]

/-- **What every action of `tr` preserves** holds after `tr`. -/
theorem exec_stable_mem {P : σ → Prop} {s u : σ} {tr : List α}
    (hP : ∀ s a s', a ∈ tr → P s → S.step s a = some s' → P s') (h : S.exec s tr = some u)
    (hs : P s) : P u := by
  induction tr generalizing s with
  | nil => cases h; exact hs
  | cons a tr ih =>
      obtain ⟨s', hst, hex⟩ := Option.bind_eq_some_iff.mp h
      exact ih (fun t b t' hb => hP t b t' (List.mem_cons_of_mem a hb)) hex
        (hP s a s' List.mem_cons_self hs hst)

/-- What every step preserves is true in every later state. -/
theorem exec_stable {P : σ → Prop} (hP : ∀ s a s', P s → S.step s a = some s' → P s')
    {s u : σ} {tr : List α} (h : S.exec s tr = some u) (hs : P s) : P u :=
  S.exec_stable_mem (fun s a s' _ => hP s a s') h hs

/-! ## 2. Runs from the start -/

/-- `tr` is a run of the system and ends in `s`. -/
def Run (tr : List α) (s : σ) : Prop := S.exec S.init tr = some s

variable {S}

theorem Run.start : S.Run [] S.init := rfl

theorem Run.snoc {tr : List α} {s s' : σ} {a : α} (h : S.Run tr s) (hs : S.step s a = some s') :
    S.Run (tr ++ [a]) s' :=
  (S.exec_concat).mpr ⟨s, h, hs⟩

theorem Run.trans {tr tr' : List α} {s s' : σ} (h : S.Run tr s) (h' : S.exec s tr' = some s') :
    S.Run (tr ++ tr') s' :=
  (S.exec_append_some).mpr ⟨s, h, h'⟩

/-- A run found by executing it: its end passes the test `P`. -/
theorem exists_run (tr : List α) (P : σ → Bool) (h : (S.exec S.init tr).any P = true) :
    ∃ s, S.Run tr s ∧ P s = true := by
  obtain ⟨s, hs, hP⟩ := (Option.any_eq_true _ _).mp h
  exact ⟨s, hs, hP⟩

theorem Run.split {tr tr' : List α} {u : σ} (h : S.Run (tr ++ tr') u) :
    ∃ s, S.Run tr s ∧ S.exec s tr' = some u :=
  (S.exec_append_some).mp h

theorem Run.unique {tr : List α} {s s' : σ} (h : S.Run tr s) (h' : S.Run tr s') : s = s' :=
  Option.some.inj (h.symm.trans h')

/-- **Induction along a run**: the empty run, and one more action at its end. -/
@[elab_as_elim]
theorem Run.induct {motive : ∀ (tr : List α) (s : σ), S.Run tr s → Prop}
    (start : motive [] S.init Run.start)
    (snoc : ∀ (tr : List α) (s : σ) (a : α) (s' : σ) (h : S.Run tr s) (hs : S.step s a = some s'),
      motive tr s h → motive (tr ++ [a]) s' (h.snoc hs))
    {tr : List α} {s : σ} (h : S.Run tr s) : motive tr s h := by
  induction tr using List.reverseRecOn generalizing s with
  | nil => cases Option.some.inj h; exact start
  | append_singleton tr a ih =>
      obtain ⟨t, ht, hst⟩ := (S.exec_concat).mp h
      exact snoc tr t a s ht hst (ih ht)

/-! ## 3. Events of a run, and their order -/

variable (S)

/-- The run `tr` goes through the state `s`. -/
def Passes (tr : List α) (s : σ) : Prop := ∃ pre post, tr = pre ++ post ∧ S.Run pre s

/-- The run `tr` takes the action `a` in the state `s`. -/
def Fires (tr : List α) (s : σ) (a : α) : Prop :=
  ∃ pre post, tr = pre ++ a :: post ∧ S.Run pre s

variable {S}

theorem Passes.last {tr : List α} {s : σ} (h : S.Run tr s) : S.Passes tr s :=
  ⟨tr, [], by simp, h⟩

theorem Passes.mono {tr : List α} {s : σ} (h : S.Passes tr s) (tr' : List α) :
    S.Passes (tr ++ tr') s := by
  obtain ⟨pre, post, rfl, hr⟩ := h
  exact ⟨pre, post ++ tr', by simp, hr⟩

theorem Fires.last {tr : List α} {s : σ} {a : α} (h : S.Run tr s) : S.Fires (tr ++ [a]) s a :=
  ⟨tr, [], rfl, h⟩

theorem Fires.mono {tr : List α} {s : σ} {a : α} (h : S.Fires tr s a) (tr' : List α) :
    S.Fires (tr ++ tr') s a := by
  obtain ⟨pre, post, rfl, hr⟩ := h
  exact ⟨pre, post ++ tr', by simp, hr⟩

theorem Fires.mem {tr : List α} {s : σ} {a : α} (h : S.Fires tr s a) : a ∈ tr := by
  obtain ⟨pre, post, rfl, _⟩ := h
  simp

theorem Fires.passes {tr : List α} {s : σ} {a : α} (h : S.Fires tr s a) : S.Passes tr s := by
  obtain ⟨pre, post, rfl, hr⟩ := h
  exact ⟨pre, a :: post, rfl, hr⟩

/-- The last action of a run fires in the state before it; every other one fired earlier. -/
theorem Fires.snoc_iff {tr : List α} {s t : σ} {a b : α} (h : S.Run tr t) :
    S.Fires (tr ++ [b]) s a ↔ S.Fires tr s a ∨ (a = b ∧ s = t) := by
  constructor
  · intro ⟨pre, post, he, hr⟩
    rcases List.eq_nil_or_concat post with rfl | ⟨post, c, rfl⟩
    · obtain ⟨rfl, hb⟩ := List.append_inj' he rfl
      cases hb
      exact Or.inr ⟨rfl, hr.unique h⟩
    · have he' : tr ++ [b] = (pre ++ a :: post) ++ [c] := by simpa using he
      obtain ⟨rfl, -⟩ := List.append_inj' he' rfl
      exact Or.inl ⟨pre, post, rfl, hr⟩
  · rintro (hf | ⟨rfl, rfl⟩)
    · exact hf.mono [b]
    · exact Fires.last h

/-- Every action of a run fires in some state. -/
theorem Run.fires_of_mem {tr : List α} {u : σ} {a : α} (h : S.Run tr u) (ha : a ∈ tr) :
    ∃ s, S.Fires tr s a := by
  obtain ⟨pre, post, rfl⟩ := List.append_of_mem ha
  obtain ⟨s, hs, _⟩ := h.split
  exact ⟨s, pre, post, rfl, hs⟩

/-- A state a run went through leads to its end. -/
theorem Run.after_passes {tr : List α} {s u : σ} (h : S.Run tr u) (hp : S.Passes tr s) :
    ∃ post, S.exec s post = some u := by
  obtain ⟨pre, post, rfl, hr⟩ := hp
  obtain ⟨t, ht, hex⟩ := h.split
  exact ⟨post, ht.unique hr ▸ hex⟩

/-- An action of a run in two parts fires in the first part or in the second. -/
theorem Fires.append_cases {tr tr' : List α} {s : σ} {a : α} (h : S.Fires (tr ++ tr') s a) :
    S.Fires tr s a ∨ ∃ pre post, tr' = pre ++ a :: post ∧ S.Run (tr ++ pre) s := by
  obtain ⟨pre, post, he, hr⟩ := h
  rcases List.append_eq_append_iff.mp he with ⟨mid, rfl, h'⟩ | ⟨mid, rfl, h'⟩
  · exact Or.inr ⟨mid, post, h', hr⟩
  · cases mid with
    | nil => exact Or.inr ⟨[], post, by simpa using h'.symm, by simpa using hr⟩
    | cons b mid =>
        obtain ⟨rfl, rfl⟩ := List.cons.inj h'
        exact Or.inl ⟨pre, mid, rfl, hr⟩

/-- An action of a run was enabled where it fired, and the rest of the run follows. -/
theorem Run.after_fires {tr : List α} {s u : σ} {a : α} (h : S.Run tr u) (hf : S.Fires tr s a) :
    ∃ s' post, S.step s a = some s' ∧ S.exec s' post = some u := by
  obtain ⟨pre, post, rfl, hr⟩ := hf
  obtain ⟨t, ht, hex⟩ := h.split
  obtain rfl := ht.unique hr
  obtain ⟨s', hst, hex'⟩ := Option.bind_eq_some_iff.mp hex
  exact ⟨s', post, hst, hex'⟩

/-! ## 4. Conditions along a run -/

/-- Every action of the run `tr` meets `P` in the state it is taken in. -/
def Along (S : System σ α) (P : σ → α → Prop) (tr : List α) : Prop := ∀ s a, S.Fires tr s a → P s a

section Along

variable {P Q : σ → α → Prop} {tr : List α} {s u : σ} {a : α}

theorem along_nil : S.Along P [] := fun _ _ hf => nomatch hf.mem

/-- **A condition along a run with one more action**: along the run, and at the action. -/
theorem along_snoc_iff (h : S.Run tr s) : S.Along P (tr ++ [a]) ↔ S.Along P tr ∧ P s a := by
  constructor
  · exact fun hal => ⟨fun t b hf => hal t b (hf.mono [a]), hal s a (Fires.last h)⟩
  · intro ⟨hal, ha⟩ t b hf
    rcases (Fires.snoc_iff h).mp hf with hf | ⟨rfl, rfl⟩
    · exact hal t b hf
    · exact ha

/-- Whether every action of `tr`, from `s`, passes the test `P`. -/
def check (S : System σ α) (P : σ → α → Bool) (s : σ) : List α → Bool
  | [] => true
  | a :: tr => P s a && ((S.step s a).all fun s' => check S P s' tr)

theorem fires_of_check {P : σ → α → Bool} {pre post : List α} {s t : σ}
    (hc : S.check P s (pre ++ a :: post) = true) (hex : S.exec s pre = some t) : P t a = true := by
  induction pre generalizing s with
  | nil =>
      cases hex
      exact (Bool.and_eq_true_iff.mp hc).1
  | cons b pre ih =>
      obtain ⟨s', hst, hex'⟩ := Option.bind_eq_some_iff.mp hex
      have hrest := (Bool.and_eq_true_iff.mp hc).2
      rw [hst] at hrest
      exact ih hrest hex'

/-- A run whose actions pass the test, found by executing it. -/
theorem along_of_check {P : σ → α → Bool} (hc : S.check P S.init tr = true) :
    S.Along (fun s a => P s a = true) tr := by
  intro s a ⟨pre, post, he, hr⟩
  subst he
  exact fires_of_check hc hr

end Along

/-! ## 5. Actions that fire once -/

/-- The actions `A` block each other for good: each leads into `P`, which no step leaves and where
    no action of `A` is enabled. -/
structure Once (S : System σ α) (A : α → Prop) (P : σ → Prop) : Prop where
  enter : ∀ s a s', A a → S.step s a = some s' → P s'
  stay : ∀ s a s', P s → S.step s a = some s' → P s'
  block : ∀ s a, P s → A a → S.step s a = none

variable {A : α → Prop} {P : σ → Prop}

theorem Once.not_mem (hO : S.Once A P) {tr : List α} {s u : σ} {a : α} (hs : P s)
    (h : S.exec s tr = some u) (ha : A a) : a ∉ tr := by
  intro hm
  obtain ⟨pre, post, rfl⟩ := List.append_of_mem hm
  obtain ⟨t, hpre, hpost⟩ := S.exec_append_some.mp h
  obtain ⟨t', hst, _⟩ := Option.bind_eq_some_iff.mp hpost
  have hblock := hO.block t a (S.exec_stable hO.stay hpre hs) ha
  rw [hst] at hblock
  cases hblock

theorem Once.of_mem (hO : S.Once A P) {tr : List α} {u : σ} {a : α} (h : S.Run tr u) (ha : A a)
    (hm : a ∈ tr) : P u := by
  obtain ⟨s, hf⟩ := h.fires_of_mem hm
  obtain ⟨s', post, hst, hex⟩ := h.after_fires hf
  exact S.exec_stable hO.stay hex (hO.enter s a s' ha hst)

/-- **Of the actions `A` one fires at most**, and it fires at most once. -/
theorem Once.unique (hO : S.Once A P) {tr : List α} {u s₁ s₂ : σ} {a₁ a₂ : α} (h : S.Run tr u)
    (h₁ : S.Fires tr s₁ a₁) (h₂ : S.Fires tr s₂ a₂) (ha₁ : A a₁) (ha₂ : A a₂) :
    a₁ = a₂ ∧ s₁ = s₂ := by
  obtain ⟨pre, post, rfl, hr⟩ := h₁
  obtain ⟨t, ht, hex⟩ := h.split
  obtain rfl := ht.unique hr
  obtain ⟨t', hst, hex'⟩ := Option.bind_eq_some_iff.mp hex
  rcases h₂.append_cases with ⟨pre', post', rfl, hr'⟩ | ⟨mid, post', he, hr'⟩
  · -- the second action came first: it blocks the first one
    obtain ⟨v, hv, hvex⟩ := hr.split
    obtain ⟨v', hst', hvex'⟩ := Option.bind_eq_some_iff.mp hvex
    have hblock := hO.block t a₁ (S.exec_stable hO.stay hvex' (hO.enter v a₂ v' ha₂ hst')) ha₁
    rw [hst] at hblock
    cases hblock
  · cases mid with
    | nil =>
        obtain ⟨rfl, -⟩ := List.cons.inj he
        exact ⟨rfl, hr.unique (by simpa using hr')⟩
    | cons b mid =>
        obtain ⟨rfl, rfl⟩ := List.cons.inj he
        exact absurd (by simp) (hO.not_mem (hO.enter t a₁ t' ha₁ hst) hex' ha₂)

end System

end TrueSealSync.Lib
