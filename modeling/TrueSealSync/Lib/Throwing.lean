/-
  File:      TrueSealSync/Lib/Throwing.lean
  Subject:   Computations with a world they change and exceptions they throw.

  What a computation changed before it threw stays changed, as in every language with mutable
  state. Nothing here names a program.

  * `exec` -- run a computation in a world, with one equation for each way to build one;
  * `Returns` -- the computation throws in no world, with its rules; the body of a `catch` needs
    to return, the body of a `try` does not (`returns_tryCatch`);
  * `exec_forM` -- a loop whose body returns is a fold over the worlds;
  * `zoom` -- a computation on a part of the world;
  * `Preserves` -- whatever it answers or throws, the computation takes a world to a related one,
    with its rules;
  * `Triple` -- pre- and postconditions, one for what is answered and one for what is thrown, with
    a rule for each way to build a computation;
  * `firstOf`, `Tried` -- try computations one after the other until one answers: which of them
    ran, in which worlds, and what they threw.
-/
import Mathlib.Init

namespace TrueSealSync.Lib

/-- Computations that change a world `ω`, throw an `ε` or answer an `α`. -/
abbrev Throwing (ω ε α : Type) : Type := ExceptT ε (StateM ω) α

namespace Throwing

variable {ω ε α β : Type}

/-! ## 1. Running -/

/-- What `c` does in the world `w`: its answer or what it throws, and the world after it. -/
def exec (c : Throwing ω ε α) (w : ω) : Except ε α × ω := c.run.run w

@[simp] theorem exec_pure (a : α) (w : ω) : exec (pure a : Throwing ω ε α) w = (.ok a, w) := rfl

@[simp] theorem exec_throw (e : ε) (w : ω) :
    exec (throw e : Throwing ω ε α) w = (.error e, w) := rfl

@[simp] theorem exec_get (w : ω) : exec (get : Throwing ω ε ω) w = (.ok w, w) := rfl

@[simp] theorem exec_set (v w : ω) : exec (set v : Throwing ω ε PUnit) w = (.ok ⟨⟩, v) := rfl

@[simp] theorem exec_modify (f : ω → ω) (w : ω) :
    exec (modify f : Throwing ω ε PUnit) w = (.ok ⟨⟩, f w) := rfl

theorem exec_bind (c : Throwing ω ε α) (f : α → Throwing ω ε β) (w : ω) :
    exec (c >>= f) w = match exec c w with
      | (.ok a, w') => exec (f a) w'
      | (.error e, w') => (.error e, w') := by
  have hrun : exec (c >>= f) w = ExceptT.bindCont f (exec c w).1 (exec c w).2 := rfl
  rw [hrun]
  rcases exec c w with ⟨_ | a, w'⟩ <;> rfl

theorem exec_tryCatch (c : Throwing ω ε α) (h : ε → Throwing ω ε α) (w : ω) :
    exec (tryCatch c h) w = match exec c w with
      | (.ok a, w') => (.ok a, w')
      | (.error e, w') => exec (h e) w' := by
  let after : Except ε α → StateM ω (Except ε α)
    | .ok a => Pure.pure (.ok a)
    | .error e => h e
  have hrun : exec (tryCatch c h) w = after (exec c w).1 (exec c w).2 := rfl
  rw [hrun]
  rcases exec c w with ⟨_ | a, w'⟩ <;> rfl

/-! ## 2. Computations that do not throw -/

/-- The computation throws in no world. -/
def Returns (c : Throwing ω ε α) : Prop := ∀ w, ∃ a w', exec c w = (.ok a, w')

theorem returns_pure (a : α) : Returns (pure a : Throwing ω ε α) := fun w => ⟨a, w, rfl⟩

theorem returns_bind {c : Throwing ω ε α} {f : α → Throwing ω ε β} (hc : Returns c)
    (hf : ∀ a, Returns (f a)) : Returns (c >>= f) := by
  intro w
  obtain ⟨a, w₁, h⟩ := hc w
  obtain ⟨b, w₂, h'⟩ := hf a w₁
  exact ⟨b, w₂, by rw [exec_bind, h]; exact h'⟩

/-- **A `try` returns where its `catch` does**, whatever its body throws. -/
theorem returns_tryCatch (c : Throwing ω ε α) {h : ε → Throwing ω ε α} (hh : ∀ e, Returns (h e)) :
    Returns (tryCatch c h) := by
  intro w
  rw [exec_tryCatch]
  rcases exec c w with ⟨e | a, w'⟩
  · exact hh e w'
  · exact ⟨a, w', rfl⟩

/-- A loop whose body returns, in each world `w` with the world `step a w`, is a fold. -/
theorem exec_forM {step : α → ω → ω} {body : α → Throwing ω ε PUnit}
    (hbody : ∀ a w, exec (body a) w = (.ok ⟨⟩, step a w)) (l : List α) (w : ω) :
    exec (l.forM body) w = (.ok ⟨⟩, l.foldl (fun w a => step a w) w) := by
  induction l generalizing w with
  | nil => rfl
  | cons a l ih =>
      show exec (body a >>= fun _ => l.forM body) w = _
      rw [exec_bind, hbody]
      exact ih (step a w)

/-! ## 3. Computations on a part of the world -/

/-- Run `c` on the part of the world that `view` shows, and `put` what becomes of it back. -/
def zoom {σ : Type} (view : ω → σ) (put : ω → σ → ω) (c : Throwing σ ε α) : Throwing ω ε α := do
  let w ← get
  set (put w (exec c (view w)).2)
  match (exec c (view w)).1 with
  | .ok a => pure a
  | .error e => throw e

theorem exec_zoom {σ : Type} (view : ω → σ) (put : ω → σ → ω) (c : Throwing σ ε α) (w : ω) :
    exec (zoom view put c) w = ((exec c (view w)).1, put w (exec c (view w)).2) := by
  unfold zoom
  rw [exec_bind, exec_get]
  simp only [exec_bind, exec_set]
  cases (exec c (view w)).1 with
  | ok a => rfl
  | error e => rfl

theorem returns_zoom {σ : Type} {view : ω → σ} {put : ω → σ → ω} {c : Throwing σ ε α}
    (hc : Returns c) : Returns (zoom view put c) := by
  intro w
  obtain ⟨a, v, hrun⟩ := hc (view w)
  exact ⟨a, put w v, by rw [exec_zoom, hrun]⟩

/-! ## 4. Relations a computation preserves -/

/-- The world `c` ends in is related to the one it starts in, whatever it answers or throws. -/
def Preserves (R : ω → ω → Prop) (c : Throwing ω ε α) : Prop := ∀ w, R w (exec c w).2

section Rules

variable {R : ω → ω → Prop}

theorem preserves_pure (hrefl : ∀ w, R w w) (a : α) : Preserves R (pure a : Throwing ω ε α) := hrefl

theorem preserves_throw (hrefl : ∀ w, R w w) (e : ε) :
    Preserves R (throw e : Throwing ω ε α) := hrefl

theorem preserves_bind (htrans : ∀ u v w, R u v → R v w → R u w) {c : Throwing ω ε α}
    {f : α → Throwing ω ε β} (hc : Preserves R c) (hf : ∀ a, Preserves R (f a)) :
    Preserves R (c >>= f) := by
  intro w
  have h := hc w
  rw [exec_bind]
  generalize exec c w = out at h
  obtain ⟨e | a, w'⟩ := out
  · exact h
  · exact htrans w w' _ h (hf a w')

theorem preserves_tryCatch (htrans : ∀ u v w, R u v → R v w → R u w) {c : Throwing ω ε α}
    {h : ε → Throwing ω ε α} (hc : Preserves R c) (hh : ∀ e, Preserves R (h e)) :
    Preserves R (tryCatch c h) := by
  intro w
  have hcw := hc w
  rw [exec_tryCatch]
  generalize exec c w = out at hcw
  obtain ⟨e | a, w'⟩ := out
  · exact htrans w w' _ hcw (hh e w')
  · exact hcw

end Rules

/-! ## 5. Pre- and postconditions -/

/-- From a world in `P` the computation answers, with a world, as in `Q`, or throws as in `E`. -/
def Triple (P : ω → Prop) (c : Throwing ω ε α) (Q : α → ω → Prop) (E : ε → ω → Prop) : Prop :=
  ∀ w, P w → match exec c w with
    | (.ok a, w') => Q a w'
    | (.error e, w') => E e w'

section Triples

variable {P P' : ω → Prop} {Q : α → ω → Prop} {E : ε → ω → Prop}

theorem triple_pure {a : α} (h : ∀ w, P w → Q a w) : Triple P (pure a) Q E := h

theorem triple_modify {f : ω → ω} {Q : PUnit → ω → Prop} (h : ∀ w, P w → Q ⟨⟩ (f w)) :
    Triple P (modify f) Q E := h

theorem triple_weaken {c : Throwing ω ε α} (hc : Triple P c Q E) (h : ∀ w, P' w → P w) :
    Triple P' c Q E := fun w hw => hc w (h w hw)

theorem triple_consequence {c : Throwing ω ε α} {Q' : α → ω → Prop} {E' : ε → ω → Prop}
    (hc : Triple P c Q E) (hQ : ∀ a w, Q a w → Q' a w) (hE : ∀ e w, E e w → E' e w) :
    Triple P c Q' E' := by
  intro w hw
  have h := hc w hw
  generalize exec c w = out at h ⊢
  obtain ⟨e | a, w'⟩ := out
  · exact hE e w' h
  · exact hQ a w' h

theorem triple_bind {c : Throwing ω ε α} {f : α → Throwing ω ε β} {R : α → ω → Prop}
    {Q : β → ω → Prop} (hc : Triple P c R E) (hf : ∀ a, Triple (R a) (f a) Q E) :
    Triple P (c >>= f) Q E := by
  intro w hw
  have h := hc w hw
  rw [exec_bind]
  generalize exec c w = out at h
  obtain ⟨e | a, w'⟩ := out
  · exact h
  · exact hf a w' h

theorem triple_tryCatch {c : Throwing ω ε α} {h : ε → Throwing ω ε α} {F : ε → ω → Prop}
    (hc : Triple P c Q F) (hh : ∀ e, Triple (F e) (h e) Q E) : Triple P (tryCatch c h) Q E := by
  intro w hw
  have hcw := hc w hw
  rw [exec_tryCatch]
  generalize exec c w = out at hcw
  obtain ⟨e | a, w'⟩ := out
  · exact hh e w' hcw
  · exact hcw

/-- What is known of the world a computation ends in, through its relation to the first one. -/
theorem triple_related {R : ω → ω → Prop} {c : Throwing ω ε α} {Q : ω → Prop}
    (hc : ∀ w, P w → R w (exec c w).2) (h : ∀ w w', P w → R w w' → Q w') :
    Triple P c (fun _ => Q) (fun _ => Q) := by
  intro w hw
  have hR := hc w hw
  generalize exec c w = out at hR
  obtain ⟨e | a, w'⟩ := out
  · exact h w w' hw hR
  · exact h w w' hw hR

end Triples

/-! ## 6. One after the other -/

/-- What `c` answers or throws, as an answer. -/
def attempt (c : Throwing ω ε α) : Throwing ω ε (Except ε α) :=
  tryCatch (do return .ok (← c)) fun e => pure (.error e)

theorem exec_attempt (c : Throwing ω ε α) (w : ω) :
    exec (attempt c) w = (.ok (exec c w).1, (exec c w).2) := by
  unfold attempt
  rw [exec_tryCatch, exec_bind]
  rcases exec c w with ⟨_ | a, w'⟩ <;> rfl

section Alternatives

variable {γ : Type} (c : γ → Throwing ω ε α)

/-- Try the alternatives `l` until one answers: what those before it threw, and its answer. -/
def firstOf : List γ → Throwing ω ε (List ε × Option α)
  | [] => pure ([], none)
  | a :: l => do
      match ← attempt (c a) with
      | .ok b => pure ([], some b)
      | .error e =>
          let (es, found) ← firstOf l
          pure (e :: es, found)

/-- The alternatives `l` were tried from `w` on: they threw `es`, one of them answered `found` or
    all have thrown, and `w'` is the world after that. -/
inductive Tried : List γ → ω → List ε → Option α → ω → Prop
  | exhausted (w : ω) : Tried [] w [] none w
  | answered {a : γ} {l : List γ} {b : α} {w w' : ω} (h : exec (c a) w = (.ok b, w')) :
      Tried (a :: l) w [] (some b) w'
  | threw {a : γ} {l : List γ} {e : ε} {es : List ε} {found : Option α} {w w₁ w' : ω}
      (h : exec (c a) w = (.error e, w₁)) (rest : Tried l w₁ es found w') :
      Tried (a :: l) w (e :: es) found w'

variable {c}

/-- **Trying alternatives returns, and tries them in order.** -/
theorem exec_firstOf (l : List γ) (w : ω) : ∃ es found w',
    exec (firstOf c l) w = (.ok (es, found), w') ∧ Tried c l w es found w' := by
  induction l generalizing w with
  | nil => exact ⟨[], none, w, rfl, .exhausted w⟩
  | cons a l ih =>
      rw [firstOf, exec_bind, exec_attempt]
      rcases h : exec (c a) w with ⟨e | b, w₁⟩
      · obtain ⟨es, found, w', hrun, htried⟩ := ih w₁
        refine ⟨e :: es, found, w', ?_, .threw h htried⟩
        show exec (firstOf c l >>= fun r => pure (e :: r.1, r.2)) w₁ = _
        rw [exec_bind, hrun]
        rfl
      · exact ⟨[], some b, w₁, rfl, .answered h⟩

/-- Where no alternative answered, each of them threw. -/
theorem Tried.length {l : List γ} {w w' : ω} {es : List ε} {found : Option α}
    (h : Tried c l w es found w') (hnone : found = none) : es.length = l.length := by
  induction h with
  | exhausted w => rfl
  | answered h => cases hnone
  | threw h rest ih => rw [List.length_cons, List.length_cons, ih hnone]

/-- Where the answers do not depend on the world, the search finds the first of them. -/
theorem Tried.found_eq {f : γ → Option α} (hf : ∀ a w, (exec (c a) w).1.toOption = f a)
    {l : List γ} {w w' : ω} {es : List ε} {found : Option α} (h : Tried c l w es found w') :
    found = l.findSome? f := by
  induction h with
  | exhausted w => rfl
  | @answered a l b w w' h =>
      have ha := hf a w
      rw [h] at ha
      rw [List.findSome?_cons, ← ha]
      rfl
  | @threw a l e es found w w₁ w' h rest ih =>
      have ha := hf a w
      rw [h] at ha
      rw [List.findSome?_cons, ← ha]
      exact ih

end Alternatives

end Throwing

end TrueSealSync.Lib
