/-
  File:      TrueSealSync/Lib/Json.lean
  Subject:   JSON values whose objects are maps.

  An object lists its members in the order of their keys, each key once, so two objects are the same
  value exactly when they have the same members. The numbers are natural numbers. Nothing here names
  a program.

  * `ofMembers` -- the object with given members, inserted one after the other;
  * `member`, `exactly` -- reading one member, and reading an object that has these keys and no other;
  * `members_ofMembers`, `exactly_ofMembers` -- an object reads back as the members it was made of.
-/
import Mathlib.Data.List.Nodup

namespace TrueSealSync.Lib

/-- A JSON value. -/
inductive Json where
  | null
  | bool (b : Bool)
  | number (n : Nat)
  | string (s : String)
  | array (items : List Json)
  | object (members : List (String × Json))

namespace Json

/-! ## 1. Objects -/

/-- The members with `v` under `key`; what was there before is replaced. -/
def insertMember (key : String) (v : Json) : List (String × Json) → List (String × Json)
  | [] => [(key, v)]
  | (k, u) :: ms =>
      if key < k then (key, v) :: (k, u) :: ms
      else if key = k then (key, v) :: ms
      else (k, u) :: insertMember key v ms

/-- The members `ms`, inserted into `o` one after the other. -/
def insertAll (o ms : List (String × Json)) : List (String × Json) :=
  ms.foldl (fun o m => insertMember m.1 m.2 o) o

/-- The object with the members `ms`. -/
def ofMembers (ms : List (String × Json)) : Json := .object (insertAll [] ms)

/-- The members of an object. -/
def members : Json → Option (List (String × Json))
  | .object ms => some ms
  | _ => none

/-- The value under `key`. -/
def member (key : String) (v : Json) : Option Json := v.members.bind (·.lookup key)

/-- The values under `keys`, where `v` is an object with these keys and no other. -/
def exactly (keys : List String) (v : Json) : Option (List Json) := do
  let ms ← v.members
  if (ms.map Prod.fst).Perm keys then keys.mapM (ms.lookup ·) else none

/-! ## 2. Reading back -/

section Reading

variable {key k : String} {v : Json} {o ms : List (String × Json)}

theorem insertMember_perm (v : Json) (h : key ∉ o.map Prod.fst) :
    (insertMember key v o).Perm ((key, v) :: o) := by
  induction o with
  | nil => exact .refl _
  | cons m o ih =>
      obtain ⟨hm, ho⟩ := not_or.mp (mt List.mem_cons.mpr h)
      unfold insertMember
      by_cases hlt : key < m.1
      · rw [if_pos hlt]
      · rw [if_neg hlt, if_neg hm]
        exact ((ih ho).cons m).trans (.swap _ _ _)

theorem lookup_cons_apply (u : Json) :
    List.lookup k ((key, u) :: o) = if k = key then some u else o.lookup k := by
  rw [List.lookup_cons]
  by_cases hk : k = key
  · simp [hk]
  · simp [hk, beq_false_of_ne hk]

theorem lookup_insertMember :
    (insertMember key v o).lookup k = if k = key then some v else o.lookup k := by
  induction o with
  | nil => exact lookup_cons_apply v
  | cons m o ih =>
      obtain ⟨k', u⟩ := m
      unfold insertMember
      split
      · exact lookup_cons_apply v
      · by_cases hm : key = k'
        · subst hm
          rw [if_pos rfl, lookup_cons_apply, lookup_cons_apply]
          by_cases hk : k = key <;> simp [hk]
        · rw [if_neg hm, lookup_cons_apply, lookup_cons_apply, ih]
          by_cases hk : k = k'
          · simp [hk, Ne.symm hm]
          · simp [hk]

theorem insertAll_perm (h : ((o ++ ms).map Prod.fst).Nodup) : (insertAll o ms).Perm (o ++ ms) := by
  induction ms generalizing o with
  | nil => simp [insertAll]
  | cons m ms ih =>
      rw [List.map_append, List.map_cons, List.nodup_middle] at h
      obtain ⟨hm, hnodup⟩ := List.nodup_cons.mp h
      have hins := insertMember_perm m.2 fun hmo => hm (List.mem_append_left _ hmo)
      have hswap : (insertMember m.1 m.2 o ++ ms).Perm (o ++ m :: ms) :=
        (hins.append_right ms).trans List.perm_middle.symm
      refine (ih ?_).trans hswap
      rw [(hswap.map Prod.fst).nodup_iff, List.map_append, List.map_cons, List.nodup_middle]
      exact h

theorem lookup_insertAll_of_notMem (h : k ∉ ms.map Prod.fst) :
    (insertAll o ms).lookup k = o.lookup k := by
  induction ms generalizing o with
  | nil => rfl
  | cons m ms ih =>
      obtain ⟨hm, hms⟩ := not_or.mp (mt List.mem_cons.mpr h)
      exact (ih hms).trans (by rw [lookup_insertMember, if_neg hm])

theorem lookup_insertAll (h : (ms.map Prod.fst).Nodup) {m : String × Json} (hm : m ∈ ms) :
    (insertAll o ms).lookup m.1 = some m.2 := by
  induction ms generalizing o with
  | nil => cases hm
  | cons n ms ih =>
      obtain ⟨hn, hnodup⟩ := List.nodup_cons.mp h
      rcases List.mem_cons.mp hm with rfl | hm
      · exact (lookup_insertAll_of_notMem hn).trans (by rw [lookup_insertMember, if_pos rfl])
      · exact ih hnodup hm

/-- **An object has the members it was made of**, in some order. -/
theorem members_ofMembers (h : (ms.map Prod.fst).Nodup) :
    ∃ o, ofMembers ms = .object o ∧ o.Perm ms :=
  ⟨_, rfl, by simpa using insertAll_perm (o := []) (by simpa using h)⟩

theorem member_ofMembers (h : (ms.map Prod.fst).Nodup) {m : String × Json} (hm : m ∈ ms) :
    (ofMembers ms).member m.1 = some m.2 := lookup_insertAll h hm

/-- **Read under its keys, an object gives back the values it was made of.** -/
theorem exactly_ofMembers (h : (ms.map Prod.fst).Nodup) :
    (ofMembers ms).exactly (ms.map Prod.fst) = some (ms.map Prod.snd) := by
  have hperm : ((insertAll [] ms).map Prod.fst).Perm (ms.map Prod.fst) :=
    (insertAll_perm (o := []) (by simpa using h)).map Prod.fst
  have hread : ∀ l : List (String × Json), (∀ m ∈ l, (insertAll [] ms).lookup m.1 = some m.2) →
      (l.map Prod.fst).mapM ((insertAll [] ms).lookup ·) = some (l.map Prod.snd) := by
    intro l hl
    induction l with
    | nil => rfl
    | cons m l ih =>
        have ih := ih fun m' hm' => hl m' (List.mem_cons_of_mem m hm')
        simp only [List.map_cons, List.mapM_cons, hl m (List.mem_cons_self ..), ih]
        rfl
  show (if _ then _ else none) = _
  rw [if_pos hperm]
  exact hread ms fun m hm => lookup_insertAll h hm

end Reading

end Json

end TrueSealSync.Lib
