/-
  File:      TrueSealSync/Lib/NodePackage.lean
  Subject:   npm packages as file trees: what a tarball ships, and which file Node.js loads for a
             required name.

  Nothing here names a program.

  * `pack` -- package.json, the README, the main file and what the files list matches;
  * `resolve`, `require` -- Node's guesses for a name in their order, and loading the file found;
  * `pack_main` -- the main file is shipped if it is there;
  * `require_package` -- a package whose main file is there loads that file;
  * `resolve_mount` -- resolution in a tree does not see where the tree is mounted.
-/
import TrueSealSync.Lib.Files

namespace TrueSealSync.Lib.NodePackage

/-! ## 1. Files -/

/-- The fields of a package.json. `main` is a path in the package. -/
structure Manifest where
  name : Option String
  version : Option String
  main : Option Path
  files : List String
  optionalDependencies : String → Option String
  enginesNode : Option String
  napiBinaryName : Option String

/-- A file, by what Node.js makes of it: a manifest, a shared library with the binding it gives
    (`none` where loading it throws), or any other text. -/
inductive Content (β : Type) where
  | manifest (m : Manifest)
  | native (binding : Option β)
  | text (source : Text)

variable {β : Type}

/-- A file read as JSON. -/
def Content.parsed : Content β → Option Manifest
  | .manifest m => some m
  | _ => none

/-- The package.json of a directory. -/
def manifestIn (fs : FileSystem (Content β)) (dir : Path) : Option Manifest :=
  (fs (dir ++ ["package.json"])).bind Content.parsed

/-! ## 2. Packing -/

/-- A README of the package, whatever its extension and case. -/
def isReadme : Path → Bool
  | [name] => "readme".toList.isPrefixOf (name.toList.map Char.toLower)
  | _ => false

/-- The tarball has the file; `globs` is the match of an entry of the files list. -/
def shipped (globs : String → Path → Bool) (m : Manifest) (path : Path) : Bool :=
  !path.isEmpty && (path == ["package.json"] || isReadme path || m.main == some path ||
    m.files.any (globs · path))

/-- The tarball of a directory; there is none without a manifest. -/
def pack (globs : String → Path → Bool) (files : FileSystem (Content β)) :
    Option (FileSystem (Content β)) :=
  (manifestIn files []).map fun m path => if shipped globs m path then files path else none

section Packing

variable {globs : String → Path → Bool} {files tarball : FileSystem (Content β)} {m : Manifest}

theorem pack_eq (h : pack globs files = some tarball) (hm : manifestIn files [] = some m)
    (path : Path) : tarball path = if shipped globs m path then files path else none := by
  unfold pack at h
  rw [hm] at h
  cases h
  rfl

theorem pack_packageJson (h : pack globs files = some tarball) :
    tarball ["package.json"] = files ["package.json"] := by
  cases hm : manifestIn files [] with
  | none => simp [pack, hm] at h
  | some m => rw [pack_eq h hm, if_pos (by simp [shipped])]

/-- **The tarball has the manifest of the directory.** -/
theorem pack_manifest (h : pack globs files = some tarball) :
    manifestIn tarball [] = manifestIn files [] :=
  congrArg (·.bind Content.parsed) (pack_packageJson h)

/-- **The main file is shipped if it is there.** -/
theorem pack_main (h : pack globs files = some tarball) (hm : manifestIn files [] = some m)
    {main : Path} (hmain : m.main = some main) (hne : main ≠ []) : tarball main = files main := by
  rw [pack_eq h hm, if_pos]
  simp [shipped, hmain, hne]

/-- The directory itself is no file of the tarball. -/
theorem pack_nil (h : pack globs files = some tarball) : tarball [] = none := by
  cases hm : manifestIn files [] with
  | none => simp [pack, hm] at h
  | some m => rw [pack_eq h hm, if_neg (by simp [shipped])]

end Packing

/-! ## 3. Resolution -/

/-- `ext` appended to the last part of a path. -/
def addExtension (path : Path) (extension : String) : Path :=
  path.dropLast ++ [path.getLast?.getD "" ++ extension]

@[simp] theorem addExtension_concat (dir : Path) (name extension : String) :
    addExtension (dir ++ [name]) extension = dir ++ [name ++ extension] := by
  simp [addExtension]

/-- LOAD_AS_FILE. -/
def asFile (path : Path) : List Path :=
  [path, addExtension path ".js", addExtension path ".json", addExtension path ".node"]

/-- LOAD_INDEX. -/
def asIndex (dir : Path) : List Path :=
  [dir ++ ["index.js"], dir ++ ["index.json"], dir ++ ["index.node"]]

/-- LOAD_AS_DIRECTORY. -/
def asDirectory (fs : FileSystem (Content β)) (dir : Path) : List Path :=
  match (manifestIn fs dir).bind (·.main) with
  | some main => asFile (dir ++ main) ++ asIndex (dir ++ main) ++ asIndex dir
  | none => asIndex dir

/-- The file a required path names: the first of Node's guesses that is there. -/
def resolve (fs : FileSystem (Content β)) (path : Path) : Option Path :=
  (asFile path ++ asDirectory fs path).find? fun candidate => (fs candidate).isSome

/-- The extension of a path is `.node`. -/
def isAddon (path : Path) : Bool :=
  ".node".toList.isSuffixOf (path.getLast?.getD "").toList

/-- Loading the file under a path: a `.node` file as a shared library, any other one by `evaluate`.
    The bytes of a shared library are no module text. -/
def load (evaluate : FileSystem (Content β) → Path → Option β) (fs : FileSystem (Content β))
    (path : Path) : Option β :=
  match fs path with
  | none => none
  | some (.native binding) => if isAddon path then binding else none
  | some _ => if isAddon path then none else evaluate fs path

/-- `require` of a path; `none` where it throws. -/
def require (evaluate : FileSystem (Content β) → Path → Option β) (fs : FileSystem (Content β))
    (path : Path) : Option β :=
  (resolve fs path).bind (load evaluate fs)

section Resolution

variable {fs : FileSystem (Content β)} {evaluate : FileSystem (Content β) → Path → Option β}

theorem require_eq_none {path : Path} (h : resolve fs path = none) :
    require evaluate fs path = none := by
  rw [require, h]
  rfl

/-- A path none of whose guesses is there resolves to nothing. -/
theorem resolve_eq_none {path : Path} (hfile : ∀ p ∈ asFile path, fs p = none)
    (hmanifest : manifestIn fs path = none) (hindex : ∀ p ∈ asIndex path, fs p = none) :
    resolve fs path = none := by
  unfold resolve asDirectory
  rw [hmanifest, List.find?_eq_none]
  intro p hp
  rcases List.mem_append.mp hp with hp | hp
  · simp [hfile p hp]
  · simp [hindex p hp]

/-- **A package whose main file is there loads that file.** -/
theorem require_package {dir main : Path} {m : Manifest} (hfile : ∀ p ∈ asFile dir, fs p = none)
    (hmanifest : manifestIn fs dir = some m) (hmain : m.main = some main)
    (hthere : (fs (dir ++ main)).isSome = true) :
    require evaluate fs dir = load evaluate fs (dir ++ main) := by
  have hfirst : (asFile dir).find? (fun candidate => (fs candidate).isSome) = none := by
    rw [List.find?_eq_none]
    intro p hp
    simp [hfile p hp]
  have hresolve : resolve fs dir = some (dir ++ main) := by
    unfold resolve asDirectory
    rw [List.find?_append, hfirst, hmanifest]
    simp [hmain, asFile, hthere]
  rw [require, hresolve]
  rfl

theorem load_native {path : Path} {binding : Option β} (h : fs path = some (.native binding)) :
    load evaluate fs path = if isAddon path = true then binding else none := by
  unfold load
  rw [h]

theorem getLast?_append_of_ne {dir path : Path} (h : path ≠ []) :
    (dir ++ path).getLast? = path.getLast? := by
  rw [List.getLast?_append, List.getLast?_eq_some_getLast h, Option.some_or]

theorem isAddon_append (dir : Path) {path : Path} (h : path ≠ []) :
    isAddon (dir ++ path) = isAddon path := by
  unfold isAddon
  rw [getLast?_append_of_ne h]

end Resolution

section Mounting

variable {fs sub : FileSystem (Content β)} {dst path : Path}

theorem addExtension_append (h : path ≠ []) (extension : String) :
    addExtension (dst ++ path) extension = dst ++ addExtension path extension := by
  unfold addExtension
  rw [List.dropLast_append_of_ne_nil h, getLast?_append_of_ne h, List.append_assoc]

theorem asFile_append (h : path ≠ []) : asFile (dst ++ path) = (asFile path).map (dst ++ ·) := by
  simp [asFile, addExtension_append h]

theorem asIndex_append : asIndex (dst ++ path) = (asIndex path).map (dst ++ ·) := by
  simp [asIndex]

theorem manifestIn_mount : manifestIn (fs.mount dst sub) (dst ++ path) = manifestIn sub path := by
  unfold manifestIn
  rw [List.append_assoc, FileSystem.mount_inside]

theorem asDirectory_mount (h : path ≠ []) :
    asDirectory (fs.mount dst sub) (dst ++ path) = (asDirectory sub path).map (dst ++ ·) := by
  unfold asDirectory
  rw [manifestIn_mount]
  cases (manifestIn sub path).bind (·.main) with
  | none => exact asIndex_append
  | some main =>
      have hne : path ++ main ≠ [] := by simp [h]
      simp only [List.append_assoc, asFile_append hne, asIndex_append, List.map_append]

/-- **What a mounted tree has is found in it as in the tree itself.** -/
theorem resolve_mount (h : path ≠ []) :
    resolve (fs.mount dst sub) (dst ++ path) = (resolve sub path).map (dst ++ ·) := by
  unfold resolve
  rw [asFile_append h, asDirectory_mount h, ← List.map_append, List.find?_map]
  congr 2
  funext candidate
  exact congrArg Option.isSome (FileSystem.mount_inside fs dst sub candidate)

end Mounting

end TrueSealSync.Lib.NodePackage
