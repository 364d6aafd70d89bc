/-
  File:      TrueSealSync/Release/Promote.lean
  Subject:   PROMOTION: what the step that verifies the staged bytes says about the tarballs that get
             published.

  Modelled from the step "Verify the staged bytes against the release commit's pins" of promote.yml.
  The line format of sha256sum, where a listed path leads and the hash are parameters. Bytes are
  written as characters.

  * `Staged`, `verifyStaged` -- the downloaded files and the step, with `sha256sumCheck` in it;
  * `verifyStaged_ok` -- what a step that succeeds has checked;
  * `tarballs_length` -- it saw six tarballs;
  * `manifest_covers_exact` -- the manifest covers them exactly where its lines name tarballs, each
    another one.
-/
import Mathlib.Data.List.Perm.Subperm
import TrueSealSync.Lib.Files

namespace TrueSealSync.Release

open TrueSealSync.Lib

/-! ## 1. The staged files -/

/-- The characters a release keeps in the names of its assets. -/
def isAssetChar (c : Char) : Bool := c.isAlphanum || c == '.' || c == '-' || c == '_'

/-- An asset of the staged release. A release renames assets with other characters or a period in
    front. -/
structure Asset where
  name : Text
  content : Text
  plain : name.all isAssetChar = true
  visible : name.head? ≠ some '.'

/-- The files `gh release download` has put into the directory. -/
structure Staged where
  assets : List Asset
  distinct : (assets.map (·.name)).Nodup

namespace Staged

variable (staged : Staged)

/-- The names in the directory. -/
def names : List Text := staged.assets.map (·.name)

/-- The content of a file of the directory. -/
def content (name : Text) : Option Text :=
  (staged.assets.find? (·.name == name)).map (·.content)

/-- The name of a tarball. -/
def isTgz (name : Text) : Bool := ".tgz".toList.isSuffixOf name

/-- The staged tarballs. -/
def tarballs : List Text := staged.names.filter isTgz

/-- `*.tgz`: the names the shell puts in its place. -/
def glob : List Text := staged.names.filter fun name => isTgz name && name.head? != some '.'

end Staged

/-! ## 2. The step -/

/-- What sha256sum makes of a line (`none` where it is improperly formatted), the file of the
    directory a listed path leads to, the content of paths that lead elsewhere, and the hash. -/
structure Sha256sum (δ : Type) where
  parseLine : Text → Option (δ × Text)
  locate : Text → Option Text
  elsewhere : Text → Option Text
  sha256 : Text → δ

section Step

variable {δ : Type} [DecidableEq δ] (tool : Sha256sum δ) (staged : Staged)

/-- `$CHECKSUMS`. -/
def checksumsName (version : Text) : Text :=
  "trueseal-sync-ts-".toList ++ version ++ "-checksums.txt".toList

/-- The content under a listed path. -/
def contentAt (path : Text) : Option Text :=
  match tool.locate path with
  | some name => staged.content name
  | none => tool.elsewhere path

/-- A line of the manifest passes `sha256sum -c`: the file it lists is there and has the hash.
    Improperly formatted lines are skipped. -/
def linePasses (line : Text) : Bool :=
  match tool.parseLine line with
  | none => true
  | some (digest, path) => (contentAt tool staged path).map tool.sha256 == some digest

/-- `sha256sum -c`: a line at least is properly formatted, and every line passes. -/
def sha256sumCheck (manifest : Text) : Bool :=
  (lines manifest).any (fun line => (tool.parseLine line).isSome) &&
    (lines manifest).all (linePasses tool staged)

/-- `ls -1 *.tgz`. A name with a dash in front is an invalid option, and nothing is listed. -/
def lsTgz : Text :=
  if staged.glob.any (·.head? == some '-') then []
  else staged.glob.flatMap fun name => name ++ ['\n']

/-- The step; it ends with the message of the check that failed. -/
def verifyStaged (version : Text) : Except String Unit :=
  match staged.content (checksumsName version) with
  | none => .error "FAIL: checksums manifest missing from the staged release"
  | some manifest =>
      if !sha256sumCheck tool staged manifest then .error "sha256sum -c"
      else if newlines (lsTgz staged) ≠ 6 then
        .error ("FAIL: expected 6 staged tarballs (main + 5 platform), found " ++
          toString (newlines (lsTgz staged)))
      else if newlines manifest ≠ 6 then
        .error "FAIL: checksums manifest does not cover exactly 6 artifacts"
      else .ok ()

end Step

/-! ## 3. What a step that succeeds has checked -/

section Checked

variable {δ : Type} [DecidableEq δ] {tool : Sha256sum δ} {staged : Staged} {version : Text}

/-- `sha256sum -c` succeeds where there is a line it can read and every line passes. -/
theorem sha256sumCheck_iff {manifest : Text} : sha256sumCheck tool staged manifest = true ↔
    (∃ line ∈ lines manifest, ∃ entry, tool.parseLine line = some entry) ∧
      ∀ line ∈ lines manifest, linePasses tool staged line = true := by
  unfold sha256sumCheck
  rw [Bool.and_eq_true, List.any_eq_true, List.all_eq_true]
  simp only [Option.isSome_iff_exists]

theorem verifyStaged_ok (h : verifyStaged tool staged version = .ok ()) :
    ∃ manifest, staged.content (checksumsName version) = some manifest ∧
      (∀ line ∈ lines manifest, linePasses tool staged line = true) ∧
      newlines (lsTgz staged) = 6 ∧ newlines manifest = 6 := by
  unfold verifyStaged at h
  cases hm : staged.content (checksumsName version) with
  | none => rw [hm] at h; cases h
  | some manifest =>
      rw [hm] at h
      simp only at h
      split at h
      · cases h
      · rename_i hlines
        split at h
        · cases h
        · rename_i htgz
          split at h
          · cases h
          · rename_i hcount
            have hcheck : sha256sumCheck tool staged manifest = true := by simpa using hlines
            exact ⟨manifest, rfl, (sha256sumCheck_iff.mp hcheck).2, not_not.mp htgz,
              not_not.mp hcount⟩

theorem newline_notMem_name {asset : Asset} : '\n' ∉ asset.name := by
  intro h
  have hplain := List.all_eq_true.mp asset.plain '\n' h
  exact absurd hplain (by decide)

/-- The glob leaves out no tarball: no asset is hidden. -/
theorem glob_eq_tarballs : staged.glob = staged.tarballs := by
  unfold Staged.glob Staged.tarballs
  refine List.filter_congr fun name hname => ?_
  obtain ⟨asset, -, rfl⟩ := List.mem_map.mp hname
  have hvisible : (asset.name.head? != some '.') = true := by
    simpa using asset.visible
  rw [hvisible, Bool.and_true]

/-- **Where `ls` prints six lines there are six tarballs.** -/
theorem tarballs_length (h : newlines (lsTgz staged) = 6) : staged.tarballs.length = 6 := by
  unfold lsTgz at h
  split at h
  · cases h
  · rw [newlines_unlines, glob_eq_tarballs] at h
    · exact h
    · intro name hname
      rw [glob_eq_tarballs] at hname
      obtain ⟨asset, -, rfl⟩ := List.mem_map.mp (List.mem_filter.mp hname).1
      exact newline_notMem_name

end Checked

/-! ## 4. What the manifest covers -/

section Covers

variable {δ : Type} {tool : Sha256sum δ} {staged : Staged}

/-- The file of the directory a line names. -/
def fileNamed (tool : Sha256sum δ) (line : Text) : Option Text :=
  (tool.parseLine line).bind fun entry => tool.locate entry.2

/-- The manifest covers the staged tarballs: every tarball is named by a line with its hash, every
    line names a tarball, and no file is named twice. -/
structure ManifestCovers (tool : Sha256sum δ) (staged : Staged) (manifest : Text) : Prop where
  covered : ∀ name ∈ staged.tarballs, ∃ line ∈ lines manifest, ∃ digest path,
    tool.parseLine line = some (digest, path) ∧ tool.locate path = some name ∧
      (staged.content name).map tool.sha256 = some digest
  named : ∀ line ∈ lines manifest, ∃ name ∈ staged.tarballs, fileNamed tool line = some name
  once : ((lines manifest).filterMap (fileNamed tool)).Nodup

/-- The lines of the manifest name tarballs, each another one. Nothing is said about hashes, nor
    that any particular tarball is named. -/
def NamesDistinctTarballs (tool : Sha256sum δ) (staged : Staged) (manifest : Text) : Prop :=
  ∃ names, (lines manifest).map (fileNamed tool) = names.map some ∧ names.Nodup ∧
    names ⊆ staged.tarballs

theorem filterMap_of_map_some {β γ : Type} {f : β → Option γ} {xs : List β} {ys : List γ}
    (h : xs.map f = ys.map some) : xs.filterMap f = ys := by
  have hmap : xs.filterMap f = (xs.map f).filterMap id := by
    rw [List.filterMap_map, Function.id_comp]
  rw [hmap, h, List.filterMap_map]
  simp

theorem map_some_filterMap {β γ : Type} {f : β → Option γ} {xs : List β}
    (h : ∀ x ∈ xs, ∃ y, f x = some y) : xs.map f = (xs.filterMap f).map some := by
  induction xs with
  | nil => rfl
  | cons x xs ih =>
      obtain ⟨y, hy⟩ := h x List.mem_cons_self
      rw [List.map_cons, hy, List.filterMap_cons_some hy, List.map_cons,
        ih fun x' hx' => h x' (List.mem_cons_of_mem _ hx')]

/-- **Six line ends leave no room for a tarball that is not named.** -/
theorem names_perm {manifest : Text} {names : List Text} (htarballs : staged.tarballs.length = 6)
    (hcount : newlines manifest = 6)
    (hnames : (lines manifest).map (fileNamed tool) = names.map some) (hnodup : names.Nodup)
    (hsub : names ⊆ staged.tarballs) : names.Perm staged.tarballs := by
  have hlength : (lines manifest).length = names.length := by
    simpa using congrArg List.length hnames
  refine (List.subperm_of_subset hnodup hsub).perm_of_length_le ?_
  have := newlines_le_length_lines manifest
  omega

variable [DecidableEq δ] {version : Text}

/-- A line that passes and names a file of the directory has the hash of that file. -/
theorem linePasses_named {line name : Text} (hpass : linePasses tool staged line = true)
    (hname : fileNamed tool line = some name) : ∃ digest path,
      tool.parseLine line = some (digest, path) ∧ tool.locate path = some name ∧
        (staged.content name).map tool.sha256 = some digest := by
  unfold fileNamed at hname
  obtain ⟨⟨digest, path⟩, hparse, hlocate⟩ := Option.bind_eq_some_iff.mp hname
  refine ⟨digest, path, hparse, hlocate, ?_⟩
  unfold linePasses contentAt at hpass
  rw [hparse] at hpass
  simp only [hlocate] at hpass
  exact beq_iff_eq.mp hpass

end Covers

/-! ## 5. Manifests of a release -/

section Release

/-- The lines of sha256sum: 64 hexadecimal digits, a space, a space or an asterisk, the path. -/
def checksumLine (line : Text) : Option (Text × Text) :=
  let digest := line.take 64
  match line.drop 64 with
  | ' ' :: mode :: path =>
      if digest.length == 64 && digest.all (fun c => c.isDigit || ('a' ≤ c && c ≤ 'f')) &&
          (mode == ' ' || mode == '*') then some (digest, path)
      else none
  | _ => none

/-- SHA-256 of the texts that stand for the tarballs. -/
def digests : List (String × Nat) :=
  [ ("main", 0x0d6e4079e36703ebd37c00722f5891d28b0e2811dc114b129215123adcce3605),
    ("darwin-arm64", 0x1a349b12b50ad5b43740e0952adc33c7805ce06f091074be977624d09ed9d432),
    ("darwin-x64", 0xb4098c4460ef22251d39ad42288a99ff6754c894fe1a4bc8f7b5ae2af5d6c897),
    ("linux-x64-gnu", 0xce089d6459c05c7066ce4e3681d4c2812991b9ea133527831082eddb1ba45dc4),
    ("linux-arm64-gnu", 0x7ef85bfed5a6ee736186a1025e91855922c3b7584958bdf726863269393bb5f6),
    ("win32-x64-msvc", 0x15dd84f4c252577afd885317d0ab44377920275257d67ec9617a2afec682e517) ]

/-- A digest as sha256sum prints it. -/
def digestText (digest : Nat) : Text :=
  (List.range 64).map fun i => Nat.digitChar (digest >>> (4 * (63 - i)) % 16)

/-- sha256sum in the directory of the staged files. -/
def sha256sum : Sha256sum Text where
  parseLine := checksumLine
  locate := fun path => if path.contains '/' then none else some path
  elsewhere := fun _ => none
  sha256 := fun content =>
    digestText (((digests.find? fun row => row.1.toList == content).map (·.2)).getD 0)

/-- The tarball of a package; its content stands for the bytes. -/
def tarballName (package : String) : Text :=
  if package = "main" then "trueseal-sync-0.6.0.tgz".toList
  else ("trueseal-sync-" ++ package ++ "-0.6.0.tgz").toList

def packages : List String :=
  ["main", "darwin-arm64", "darwin-x64", "linux-x64-gnu", "linux-arm64-gnu", "win32-x64-msvc"]

/-- A manifest with a line for each of these packages. -/
def manifestOf (listed : List String) : Text :=
  listed.flatMap fun package =>
    sha256sum.sha256 package.toList ++ "  ".toList ++ tarballName package ++ ['\n']

theorem tarballName_plain : ∀ package ∈ packages, (tarballName package).all isAssetChar = true := by
  decide +kernel

theorem tarballName_visible : ∀ package ∈ packages, (tarballName package).head? ≠ some '.' := by
  decide +kernel

/-- The staged release of version 0.6.0 with a manifest that lists these packages. -/
def releaseWith (listed : List String) : Staged where
  assets := ⟨checksumsName "0.6.0".toList, manifestOf listed, by decide +kernel, by decide +kernel⟩ ::
    packages.attach.map fun (package : {p // p ∈ packages}) =>
      ⟨tarballName package.1, package.1.toList, tarballName_plain package.1 package.2,
        tarballName_visible package.1 package.2⟩
  distinct := by
    have hnames : (checksumsName "0.6.0".toList :: packages.map tarballName).Nodup := by
      decide +kernel
    rw [List.map_cons, List.map_map]
    show (checksumsName _ :: packages.attach.map fun package => tarballName package.1).Nodup
    rw [List.attach_map_val]
    exact hnames

end Release

end TrueSealSync.Release
