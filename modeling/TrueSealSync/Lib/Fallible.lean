/-
  File:      TrueSealSync/Lib/Fallible.lean
  Subject:   Computations in `Except`: what a success says about the steps, and reading the items of
             a list one after the other.

  Nothing here names a program.

  * `bind_ok` -- a sequence succeeds through both of its steps;
  * `mapM_ok_mem`, `exists_mapM_ok` -- a list is read exactly where each of its items is;
  * `mapM_map` -- reading first and computing afterwards;
  * `then_ok`, `forM_ok` -- checks one after the other succeed exactly where each of them does.
-/
import Mathlib.Init

namespace TrueSealSync.Lib.Fallible

variable {β γ δ ε : Type}

/-- A sequence that succeeds has succeeded in its first step, and goes on from there. -/
theorem bind_ok {x : Except ε γ} {f : γ → Except ε δ} {r : δ} (h : (x >>= f) = .ok r) :
    ∃ a, x = .ok a ∧ f a = .ok r := by
  cases x with
  | error e => cases h
  | ok a => exact ⟨a, rfl, h⟩

/-- A list with a first item is read by reading the first item and then the others. -/
theorem mapM_cons_ok {f : β → Except ε γ} {x : β} {xs : List β} {zs : List γ} :
    (x :: xs).mapM f = .ok zs ↔ ∃ y ys, f x = .ok y ∧ xs.mapM f = .ok ys ∧ zs = y :: ys := by
  rw [List.mapM_cons]
  constructor
  · intro h
    obtain ⟨y, hy, h⟩ := bind_ok h
    obtain ⟨ys, hys, h⟩ := bind_ok h
    cases h
    exact ⟨y, ys, hy, hys, rfl⟩
  · intro h
    obtain ⟨y, ys, hy, hys, rfl⟩ := h
    rw [hy, hys]
    rfl

/-- What was read is what some item gave, and every item gave something. -/
theorem mapM_ok_mem {f : β → Except ε γ} {xs : List β} {ys : List γ} (h : xs.mapM f = .ok ys) :
    (∀ x ∈ xs, ∃ y ∈ ys, f x = .ok y) ∧ ∀ y ∈ ys, ∃ x ∈ xs, f x = .ok y := by
  induction xs generalizing ys with
  | nil =>
      cases h
      exact ⟨by simp, by simp⟩
  | cons x xs ih =>
      obtain ⟨y, ys, hy, hys, rfl⟩ := mapM_cons_ok.mp h
      obtain ⟨hfrom, hto⟩ := ih hys
      constructor
      · intro x' hx'
        rcases List.mem_cons.mp hx' with rfl | hx'
        · exact ⟨y, List.mem_cons_self, hy⟩
        · obtain ⟨y', hy', he⟩ := hfrom x' hx'
          exact ⟨y', List.mem_cons_of_mem _ hy', he⟩
      · intro y' hy'
        rcases List.mem_cons.mp hy' with rfl | hy'
        · exact ⟨x, List.mem_cons_self, hy⟩
        · obtain ⟨x', hx', he⟩ := hto y' hy'
          exact ⟨x', List.mem_cons_of_mem _ hx', he⟩

theorem mapM_map (f : β → Except ε γ) (g : γ → δ) (xs : List β) :
    xs.mapM (fun x => g <$> f x) = List.map g <$> xs.mapM f := by
  induction xs with
  | nil => rfl
  | cons x xs ih =>
      rw [List.mapM_cons, List.mapM_cons, ih]
      cases f x with
      | error e => rfl
      | ok y => cases xs.mapM f <;> rfl

/-- Reading succeeds where it succeeds for every item. -/
theorem exists_mapM_ok (f : β → Except ε γ) (xs : List β) (h : ∀ x ∈ xs, ∃ y, f x = .ok y) :
    ∃ ys, xs.mapM f = .ok ys := by
  induction xs with
  | nil => exact ⟨[], rfl⟩
  | cons x xs ih =>
      obtain ⟨y, hy⟩ := h x List.mem_cons_self
      obtain ⟨ys, hys⟩ := ih fun x' hx' => h x' (List.mem_cons_of_mem _ hx')
      exact ⟨y :: ys, mapM_cons_ok.mpr ⟨y, ys, hy, hys, rfl⟩⟩

/-- A check and then another one. -/
theorem then_ok {x : Except ε Unit} {f : Unit → Except ε γ} {r : γ} :
    (x >>= f) = .ok r ↔ x = .ok () ∧ f () = .ok r := by
  cases x with
  | error e => exact ⟨nofun, fun h => nomatch h.1⟩
  | ok a => exact ⟨fun h => ⟨rfl, h⟩, fun h => h.2⟩

/-- The checks of all items. -/
theorem forM_ok {f : β → Except ε Unit} {xs : List β} :
    xs.forM f = .ok () ↔ ∀ x ∈ xs, f x = .ok () := by
  induction xs with
  | nil => exact ⟨fun _ => nofun, fun _ => rfl⟩
  | cons x xs ih =>
      have hcons : (x :: xs).forM f = f x >>= fun _ => xs.forM f := rfl
      rw [hcons, then_ok, ih, List.forall_mem_cons]

end TrueSealSync.Lib.Fallible
