/-
  File:      TrueSealSync/Lib/Files.lean
  Subject:   Files under paths: reading, writing and copying a directory; the texts in them.

  A path is the list of its parts, and a file system answers with the content of the file under a
  path. Directories are there through their files only. Nothing here names a program.

  * `write`, `copyTree`, `mount` -- the changes, each with what it reads afterwards and its frame;
  * `replaceFirst` -- a text with the first occurrence of a pattern replaced;
  * `lines`, `newlines` -- the lines of a text and the count of `wc -l`; `lines_unlines` reads back
    what was printed one a line;
  * `lexLe` -- the order in which names are sorted.
-/
import Mathlib.Logic.Function.Basic

namespace TrueSealSync.Lib

/-- A path, by its parts. -/
abbrev Path : Type := List String

/-- The content of a file. -/
abbrev Text : Type := List Char

/-- What the file under a path holds; `none` where there is no file. -/
abbrev FileSystem (τ : Type) : Type := Path → Option τ

namespace FileSystem

variable {τ : Type}

/-! ## 1. Writing -/

/-- The file system with `content` under `path`. -/
def write (fs : FileSystem τ) (path : Path) (content : τ) : FileSystem τ :=
  Function.update fs path (some content)

@[simp] theorem write_same (fs : FileSystem τ) (path : Path) (content : τ) :
    fs.write path content path = some content := Function.update_self path _ fs

theorem write_of_ne (fs : FileSystem τ) {path other : Path} (content : τ) (h : other ≠ path) :
    fs.write path content other = fs other := Function.update_of_ne h _ fs

/-! ## 2. Copying -/

/-- The file system after the files under `src` were copied under `dst`: a file of the same name is
    replaced, every other file under `dst` stays. -/
def copyTree (fs : FileSystem τ) (src dst : Path) : FileSystem τ := fun path =>
  if dst.isPrefixOf path then (fs (src ++ path.drop dst.length)).or (fs path) else fs path

theorem copyTree_inside (fs : FileSystem τ) (src dst rest : Path) :
    fs.copyTree src dst (dst ++ rest) = (fs (src ++ rest)).or (fs (dst ++ rest)) := by
  simp [copyTree]

/-- **Nothing outside the target changes.** -/
theorem copyTree_outside (fs : FileSystem τ) {src dst path : Path} (h : ¬ dst <+: path) :
    fs.copyTree src dst path = fs path := by
  unfold copyTree
  rw [if_neg]
  simpa using h

/-- The file system with another one in the place of everything under `dst`. -/
def mount (fs : FileSystem τ) (dst : Path) (sub : FileSystem τ) : FileSystem τ := fun path =>
  if dst.isPrefixOf path then sub (path.drop dst.length) else fs path

@[simp] theorem mount_inside (fs : FileSystem τ) (dst : Path) (sub : FileSystem τ) (rest : Path) :
    fs.mount dst sub (dst ++ rest) = sub rest := by
  simp [mount]

theorem mount_outside (fs : FileSystem τ) {dst path : Path} (sub : FileSystem τ)
    (h : ¬ dst <+: path) : fs.mount dst sub path = fs path := by
  unfold mount
  rw [if_neg]
  simpa using h

end FileSystem

/-! ## 3. Replacing in a text -/

/-- `pattern` stands in `text`. -/
def occursIn (pattern : Text) : Text → Bool
  | [] => pattern.isEmpty
  | c :: text => pattern.isPrefixOf (c :: text) || occursIn pattern text

/-- `text` with the first occurrence of `pattern` replaced. -/
def replaceFirst (pattern replacement : Text) : Text → Text
  | [] => if pattern.isEmpty then replacement else []
  | c :: text =>
      if pattern.isPrefixOf (c :: text) then
        replacement ++ (c :: text).drop pattern.length
      else c :: replaceFirst pattern replacement text

/-! ## 4. Lines -/

/-- `wc -l`: how many line ends the text has. -/
def newlines (text : Text) : Nat := text.count '\n'

/-- The lines of a text; what stands after the last line end is a line if it is not empty. -/
def lines : Text → List Text
  | [] => []
  | c :: text =>
      if c = '\n' then [] :: lines text
      else
        match lines text with
        | [] => [[c]]
        | line :: rest => (c :: line) :: rest

/-- **There are at least as many lines as line ends.** -/
theorem newlines_le_length_lines (text : Text) : newlines text ≤ (lines text).length := by
  induction text with
  | nil => exact Nat.le_refl 0
  | cons c text ih =>
      unfold newlines at ih ⊢
      rw [List.count_cons, lines]
      by_cases hc : c = '\n'
      · simp only [hc, beq_self_eq_true, if_true, List.length_cons]
        omega
      · simp only [beq_iff_eq, hc, if_false]
        cases hl : lines text with
        | nil =>
            rw [hl, List.length_nil] at ih
            simp only [List.length_cons, List.length_nil]
            omega
        | cons line rest => rw [hl] at ih; simpa using ih

/-- Printing texts without line ends, one a line, prints as many line ends as there are texts. -/
theorem newlines_unlines {texts : List Text} (h : ∀ t ∈ texts, '\n' ∉ t) :
    newlines (texts.flatMap fun t => t ++ ['\n']) = texts.length := by
  induction texts with
  | nil => rfl
  | cons t texts ih =>
      have ht : t.count '\n' = 0 := List.count_eq_zero.mpr (h t List.mem_cons_self)
      have hrest := ih fun t' ht' => h t' (List.mem_cons_of_mem _ ht')
      unfold newlines at hrest ⊢
      rw [List.flatMap_cons, List.count_append, List.count_append, ht, hrest, List.length_cons]
      simp only [List.count_singleton_self]
      omega

theorem lines_append_newline {t : Text} (h : '\n' ∉ t) (rest : Text) :
    lines (t ++ '\n' :: rest) = t :: lines rest := by
  induction t with
  | nil => rfl
  | cons c t ih =>
      obtain ⟨hc, ht⟩ := not_or.mp (mt List.mem_cons.mpr h)
      rw [List.cons_append, lines, if_neg (Ne.symm hc), ih ht]

/-- **Texts without line ends, printed one a line, are read back line by line.** -/
theorem lines_unlines {texts : List Text} (h : ∀ t ∈ texts, '\n' ∉ t) :
    lines (texts.flatMap fun t => t ++ ['\n']) = texts := by
  induction texts with
  | nil => rfl
  | cons t texts ih =>
      have ht := h t List.mem_cons_self
      rw [List.flatMap_cons, List.append_assoc, List.singleton_append, lines_append_newline ht,
        ih fun t' ht' => h t' (List.mem_cons_of_mem _ ht')]

/-! ## 5. Order -/

/-- The order of two texts, given by the numbers of their units: unit by unit, a prefix first. -/
def lexLe : List Nat → List Nat → Bool
  | [], _ => true
  | _ :: _, [] => false
  | m :: ms, n :: ns => if m = n then lexLe ms ns else Nat.ble m n

end TrueSealSync.Lib
