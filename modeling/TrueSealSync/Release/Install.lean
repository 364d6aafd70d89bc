/-
  File:      TrueSealSync/Release/Install.lean
  Subject:   THE INSTALL CHECK: what verify-install.mjs packs and installs, and what a consumer of the
             platform package alone gets.

  Modelled from scripts/verify-install.mjs and the generated loader index.js. npm, the evaluation of
  module texts, the probes and tsc are parameters of the machine.

  * `HOSTS`, `requireNative`, `loader`, `verifyInstall` -- the code;
  * `verifyInstall_ok` -- what a run that passes has checked and packed;
  * `installed_platform`, `require_platform` -- the platform package among the installed files;
  * `install_check_exact` -- the platform package works exactly where its manifest names the binary
    as it was staged.
-/
import TrueSealSync.Lib.Fallible
import TrueSealSync.Lib.NodePackage

namespace TrueSealSync.Release

open TrueSealSync.Lib
open TrueSealSync.Lib.NodePackage
open TrueSealSync.Lib.Fallible (bind_ok)

/-! ## 1. Hosts -/

/-- The supported hosts. -/
inductive Host where
  | darwinArm64
  | darwinX64
  | linuxX64
  | linuxArm64
  | win32X64
  deriving DecidableEq

namespace Host

/-- The target triple. -/
def triple : Host → String
  | darwinArm64 => "aarch64-apple-darwin"
  | darwinX64 => "x86_64-apple-darwin"
  | linuxX64 => "x86_64-unknown-linux-gnu"
  | linuxArm64 => "aarch64-unknown-linux-gnu"
  | win32X64 => "x86_64-pc-windows-msvc"

/-- The directory of the platform package. -/
def dir : Host → String
  | darwinArm64 => "darwin-arm64"
  | darwinX64 => "darwin-x64"
  | linuxX64 => "linux-x64-gnu"
  | linuxArm64 => "linux-arm64-gnu"
  | win32X64 => "win32-x64-msvc"

/-- The variants the loader tries on a host, in their order. -/
def variants (host : Host) (musl mingw : Bool) : List String :=
  match host with
  | darwinArm64 => ["darwin-universal", "darwin-arm64"]
  | darwinX64 => ["darwin-universal", "darwin-x64"]
  | linuxX64 => if musl then ["linux-x64-musl"] else ["linux-x64-gnu"]
  | linuxArm64 => if musl then ["linux-arm64-musl"] else ["linux-arm64-gnu"]
  | win32X64 => if mingw then ["win32-x64-gnu"] else ["win32-x64-msvc"]

end Host

/-- `HOSTS`, by platform and architecture. -/
def HOSTS : String → Option Host
  | "darwin-arm64" => some .darwinArm64
  | "darwin-x64" => some .darwinX64
  | "linux-x64" => some .linuxX64
  | "linux-arm64" => some .linuxArm64
  | "win32-x64" => some .win32X64
  | _ => none

/-! ## 2. The machine -/

/-- What `spawnSync` answers. -/
structure Spawned where
  /-- `none` where a signal ended the program, or it did not start -/
  status : Option Nat
  error : Option String
  /-- `stdout.trim().split(/\r?\n/)` -/
  stdout : List String

/-- The machine the check and the loader run on: the platform, what Node.js makes of a module text
    and of a value in a condition, the paths and programs of the check, and the environment of the
    loader. -/
structure InstallMachine (β : Type) where
  platform : String
  arch : String
  evaluate : FileSystem (Content β) → Path → Option β
  truthy : β → Bool
  globs : String → Path → Bool
  /-- there is a directory at a path -/
  directory : FileSystem (Content β) → Path → Bool
  /-- the root of the repository and the directory `mkdtempSync` makes -/
  root : String
  tmp : String
  execPath : String
  join : List String → String
  npmPack : FileSystem (Content β) → Spawned
  npmInstall : FileSystem (Content β) → FileSystem (Content β) → Spawned
  probe : String → FileSystem (Content β) → Option β → Spawned
  tsc : FileSystem (Content β) → Spawned
  musl : Bool
  mingw : Bool
  nativeLibraryPath : Option Path
  enforceVersionCheck : Bool
  forceWasi : Option String

variable {β : Type}

/-- The machine of a consumer: the same platform with the C library of the target triples, and
    nothing in the environment but, perhaps, the version check. -/
def InstallMachine.consumer (machine : InstallMachine β) (enforceVersionCheck : Bool) :
    InstallMachine β :=
  { machine with
    musl := false
    mingw := false
    nativeLibraryPath := none
    enforceVersionCheck := enforceVersionCheck
    forceWasi := none }

/-- Where the main package is installed. -/
def syncDir : Path := ["node_modules", "@trueseal", "sync"]

/-- Where a platform package is installed. -/
def variantDir (variant : String) : Path := ["node_modules", "@trueseal", "sync-" ++ variant]

/-! ## 3. The loader -/

section Loader

variable (machine : InstallMachine β) (host : Host) (fs : FileSystem (Content β))

/-- The name of the binary beside the loader. -/
def localBinary (variant : String) : String := "trueseal-sync-ts." ++ variant ++ ".node"

/-- The platform package of a variant, with the version check. -/
def requirePackage (variant : String) : Option β := do
  let binding ← require machine.evaluate fs (variantDir variant)
  let bindingPackage ← manifestIn fs (variantDir variant)
  if bindingPackage.version ≠ some "0.6.0" && machine.enforceVersionCheck then none else some binding

/-- One variant: first the file beside the loader, then the package. -/
def requireVariant (variant : String) : Option β :=
  (require machine.evaluate fs (syncDir ++ [localBinary variant])).or
    (requirePackage machine fs variant)

/-- `requireNative`. -/
def requireNative : Option β :=
  match machine.nativeLibraryPath with
  | some path => require machine.evaluate fs path
  | none => (host.variants machine.musl machine.mingw).findSome? (requireVariant machine fs)

/-- index.js: the native binding, else the one of the wasm build. A module may answer a value that
    counts as false, such as the `null` of a JSON file; the loader goes on then. -/
def loader : Option β :=
  let nativeBinding := requireNative machine host fs
  if nativeBinding.any machine.truthy && machine.forceWasi.isNone then nativeBinding
  else
    let localWasi := require machine.evaluate fs (syncDir ++ ["trueseal-sync-ts.wasi.cjs"])
    let packageWasi :=
      if !(localWasi.or nativeBinding).any machine.truthy || machine.forceWasi.isSome then
        require machine.evaluate fs (variantDir "wasm32-wasi")
      else none
    if machine.forceWasi == some "error" && !(packageWasi.or localWasi).any machine.truthy then none
    else (packageWasi.or (localWasi.or nativeBinding)).filter machine.truthy

end Loader

/-! ## 4. The check -/

/-- How the check ends without a pass: `fail`, or an exception. -/
inductive Stop where
  | fail (message : String)
  | exception
  deriving DecidableEq

/-- `if (!ok) fail(message)`. -/
def check (ok : Bool) (message : String) : Except Stop Unit :=
  if ok then .ok () else .error (.fail message)

/-- A value that has to be there. -/
def orFail {γ : Type} (value : Option γ) (message : String) : Except Stop γ :=
  match value with
  | some v => .ok v
  | none => .error (.fail message)

/-- Reading and parsing the package.json of a directory. -/
def readManifest (root : FileSystem (Content β)) (dir : Path) : Except Stop Manifest :=
  match manifestIn root dir with
  | some m => .ok m
  | none => .error .exception

/-- `cpSync` of one file. -/
def copied (root : FileSystem (Content β)) (path : Path) : Except Stop (Content β) :=
  match root path with
  | some content => .ok content
  | none => .error .exception

/-- What a template prints for a member that may be missing. -/
def shown (value : Option String) : String := value.getD "undefined"

/-- The tarballs a run leaves behind. -/
structure Packed (β : Type) where
  main : FileSystem (Content β)
  platform : FileSystem (Content β)

section Check

variable (machine : InstallMachine β)

/-- `existsSync`. -/
def existsSync (files : FileSystem (Content β)) (path : Path) : Bool :=
  (files path).isSome || machine.directory files path

/-- `run`: the lines a program has printed, if it ended well. -/
def run (cmd : String) (args : List String) (cwd : String) (r : Spawned) :
    Except Stop (List String) :=
  if r.status ≠ some 0 ∨ r.error.isSome = true then
    .error (.fail ("\u0060" ++ cmd ++ " " ++ " ".intercalate args ++ "\u0060 exited " ++
      r.status.elim "null" toString ++ " " ++ r.error.getD "" ++ " (cwd " ++ cwd ++ ")"))
  else .ok r.stdout

/-- `npm pack` in the directory `cwd`: the tarball, and its path. A directory without a manifest has
    none. -/
def npmPack (cwd : String) (files : FileSystem (Content β)) :
    Except Stop (FileSystem (Content β) × String) := do
  let stdout ← run "npm" ["pack", "--pack-destination", machine.tmp] cwd (machine.npmPack files)
  match pack machine.globs files with
  | some tarball => .ok (tarball, machine.join [machine.tmp, stdout.getLast?.getD ""])
  | none => .error .exception

/-- The name under which the binary of a host is built. -/
def builtName (binaryName : String) (host : Host) : String :=
  binaryName ++ "." ++ host.dir ++ ".node"

/-- The name under which it is staged. -/
def stagedName (binaryName : String) (host : Host) : String :=
  binaryName ++ "." ++ host.triple ++ ".node"

/-- The staged platform package: its directory with the binary put in. -/
def stage (root : FileSystem (Content β)) (host : Host) (binaryName : String) (built : Content β) :
    FileSystem (Content β) :=
  FileSystem.write (fun path => root (["npm", host.dir] ++ path)) [stagedName binaryName host] built

/-- The files of the consumer after both tarballs were installed. -/
def installed (host : Host) (main platform : FileSystem (Content β)) : FileSystem (Content β) :=
  (FileSystem.mount (fun _ => none) (variantDir host.dir) platform).mount syncDir main

/-- scripts/verify-install.mjs. -/
def verifyInstall (root : FileSystem (Content β)) : Except Stop (Packed β) := do
  let pkg ← readManifest root []
  let host ← orFail (HOSTS (machine.platform ++ "-" ++ machine.arch))
    ("unsupported host " ++ machine.platform ++ "-" ++ machine.arch)
  check (pkg.name == some "@trueseal/sync")
    ("main package name is " ++ shown pkg.name ++ ", want @trueseal/sync")
  check (pkg.version == some "0.6.0")
    ("version is " ++ shown pkg.version ++ ", want the 0.6.0 lockstep (ADR-0030)")
  check (pkg.optionalDependencies ("@trueseal/sync-" ++ host.dir) == some "0.6.0")
    ("optionalDependencies[\"@trueseal/sync-" ++ host.dir ++ "\"] is " ++
      shown (pkg.optionalDependencies ("@trueseal/sync-" ++ host.dir)) ++ ", want \"0.6.0\"")
  check (occursIn "20".toList (pkg.enginesNode.getD "").toList)
    ("engines.node is \"" ++ pkg.enginesNode.getD "" ++ "\", the spec requires Node >= 20")
  check (existsSync machine root ["npm", host.dir])
    ("per-platform package directory missing: npm/" ++ host.dir)
  let platformPkg ← readManifest root ["npm", host.dir]
  check (platformPkg.name == some ("@trueseal/sync-" ++ host.dir))
    ("platform package name is " ++ shown platformPkg.name ++ ", want @trueseal/sync-" ++ host.dir)
  check (platformPkg.version == some "0.6.0")
    ("platform package version is " ++ shown platformPkg.version ++ ", want 0.6.0")
  let binaryName ← orFail pkg.napiBinaryName "package.json napi.binaryName missing"
  check (existsSync machine root [builtName binaryName host])
    ("built native module missing: " ++ machine.join [machine.root, builtName binaryName host] ++
      " — run \u0060npm run build\u0060 first")
  let main ← npmPack machine machine.root root
  let built ← copied root [builtName binaryName host]
  let platform ← npmPack machine (machine.join [machine.tmp, "platform-stage"])
    (stage root host binaryName built)
  let cwd := machine.join [machine.tmp, "consumer"]
  let _ ← run "npm" ["install", "--no-optional", "--no-audit", "--no-fund", "--ignore-scripts",
    main.2, platform.2] cwd (machine.npmInstall main.1 platform.1)
  let consumer := installed host main.1 platform.1
  check (existsSync machine consumer syncDir)
    "main package not installed under node_modules/@trueseal/sync"
  check (existsSync machine consumer (variantDir host.dir))
    ("platform package not installed under node_modules/@trueseal/sync-" ++ host.dir)
  let _ ← run machine.execPath ["probe.cjs"] cwd
    (machine.probe "probe.cjs" consumer (loader machine host consumer))
  let _ ← run machine.execPath ["probe.mjs"] cwd
    (machine.probe "probe.mjs" consumer (loader machine host consumer))
  let _ ← run machine.execPath
    [machine.join [machine.root, "node_modules", "typescript", "bin", "tsc"], "-p", "tsconfig.json"]
    cwd (machine.tsc consumer)
  return ⟨main.1, platform.1⟩

end Check

/-! ## 5. A run that passes -/

section Steps

variable {γ δ : Type}

theorem check_ok {ok : Bool} {message : String} {f : Unit → Except Stop δ} {r : δ}
    (h : (check ok message >>= f) = .ok r) : ok = true ∧ f () = .ok r := by
  cases ok with
  | false => cases h
  | true => exact ⟨rfl, h⟩

theorem orFail_ok {value : Option γ} {message : String} {v : γ}
    (h : orFail value message = .ok v) : value = some v := by
  cases value with
  | none => cases h
  | some v' => cases h; rfl

theorem readManifest_ok {root : FileSystem (Content β)} {dir : Path} {m : Manifest}
    (h : readManifest root dir = .ok m) : manifestIn root dir = some m := by
  unfold readManifest at h
  cases hm : manifestIn root dir with
  | none => rw [hm] at h; cases h
  | some m' => rw [hm] at h; cases h; rfl

theorem copied_ok {root : FileSystem (Content β)} {path : Path} {content : Content β}
    (h : copied root path = .ok content) : root path = some content := by
  unfold copied at h
  cases hc : root path with
  | none => rw [hc] at h; cases h
  | some c => rw [hc] at h; cases h; rfl

theorem npmPack_ok {machine : InstallMachine β} {cwd : String} {files : FileSystem (Content β)}
    {tarball : FileSystem (Content β) × String} (h : npmPack machine cwd files = .ok tarball) :
    pack machine.globs files = some tarball.1 := by
  unfold npmPack at h
  obtain ⟨stdout, -, h⟩ := bind_ok h
  cases hp : pack machine.globs files with
  | none => rw [hp] at h; cases h
  | some t => rw [hp] at h; cases h; rfl

end Steps

/-- What a run that passes has read and packed. -/
structure Passed (machine : InstallMachine β) (root : FileSystem (Content β)) (packed : Packed β)
    (host : Host) (pkg platformPkg : Manifest) (binaryName : String) (built : Content β) : Prop where
  onHost : HOSTS (machine.platform ++ "-" ++ machine.arch) = some host
  mainManifest : manifestIn root [] = some pkg
  named : pkg.napiBinaryName = some binaryName
  wasBuilt : root [builtName binaryName host] = some built
  platformManifest : manifestIn root ["npm", host.dir] = some platformPkg
  version : platformPkg.version = some "0.6.0"
  packedStage : pack machine.globs (stage root host binaryName built) = some packed.platform

/-- **A run that passes has checked the identity of both packages and packed the staged
    directory.** -/
theorem verifyInstall_ok {machine : InstallMachine β} {root : FileSystem (Content β)}
    {packed : Packed β} (h : verifyInstall machine root = .ok packed) :
    ∃ host pkg platformPkg binaryName built,
      Passed machine root packed host pkg platformPkg binaryName built := by
  unfold verifyInstall at h
  obtain ⟨pkg, hpkg, h⟩ := bind_ok h
  obtain ⟨host, hhost, h⟩ := bind_ok h
  obtain ⟨-, h⟩ := check_ok h
  obtain ⟨-, h⟩ := check_ok h
  obtain ⟨-, h⟩ := check_ok h
  obtain ⟨-, h⟩ := check_ok h
  obtain ⟨-, h⟩ := check_ok h
  obtain ⟨platformPkg, hplatformPkg, h⟩ := bind_ok h
  obtain ⟨-, h⟩ := check_ok h
  obtain ⟨hversion, h⟩ := check_ok h
  obtain ⟨binaryName, hbinaryName, h⟩ := bind_ok h
  obtain ⟨-, h⟩ := check_ok h
  obtain ⟨main, -, h⟩ := bind_ok h
  obtain ⟨built, hbuilt, h⟩ := bind_ok h
  obtain ⟨platform, hplatform, h⟩ := bind_ok h
  obtain ⟨-, -, h⟩ := bind_ok h
  obtain ⟨-, h⟩ := check_ok h
  obtain ⟨-, h⟩ := check_ok h
  obtain ⟨-, -, h⟩ := bind_ok h
  obtain ⟨-, -, h⟩ := bind_ok h
  obtain ⟨-, -, h⟩ := bind_ok h
  cases h
  exact ⟨host, pkg, platformPkg, binaryName, built, orFail_ok hhost, readManifest_ok hpkg,
    orFail_ok hbinaryName, copied_ok hbuilt, readManifest_ok hplatformPkg, by simpa using hversion,
    npmPack_ok hplatform⟩

/-! ## 6. The platform tarball -/

section Tarball

variable {machine : InstallMachine β} {root : FileSystem (Content β)} {packed : Packed β}
  {host : Host} {pkg platformPkg : Manifest} {binaryName : String} {built : Content β}

theorem isAddon_stagedName : isAddon [stagedName binaryName host] = true := by
  unfold isAddon
  rw [List.isSuffixOf_iff_suffix]
  exact ⟨(binaryName ++ "." ++ host.triple).toList, by simp [stagedName]⟩

theorem stagedName_ne_packageJson : ["package.json"] ≠ [stagedName binaryName host] := by
  intro h
  have hjson : isAddon ["package.json"] = true := by rw [h]; exact isAddon_stagedName
  exact absurd hjson (by decide)

theorem stage_stagedName :
    stage root host binaryName built [stagedName binaryName host] = some built :=
  FileSystem.write_same ..

theorem stage_of_ne {path : Path} (h : path ≠ [stagedName binaryName host]) :
    stage root host binaryName built path = root (["npm", host.dir] ++ path) :=
  FileSystem.write_of_ne _ _ h

theorem stage_manifest :
    manifestIn (stage root host binaryName built) [] = manifestIn root ["npm", host.dir] := by
  show (stage root host binaryName built ["package.json"]).bind Content.parsed = _
  rw [stage_of_ne stagedName_ne_packageJson]
  rfl

/-- **The tarball has the manifest of npm/<dir>, whatever was staged.** -/
theorem Passed.manifest (hp : Passed machine root packed host pkg platformPkg binaryName built) :
    manifestIn packed.platform [] = some platformPkg := by
  rw [pack_manifest hp.packedStage, stage_manifest, hp.platformManifest]

/-- What the tarball has under the name of the main file is what was staged under it. -/
theorem Passed.main (hp : Passed machine root packed host pkg platformPkg binaryName built)
    {main : Path} (hmain : platformPkg.main = some main) (hne : main ≠ []) :
    packed.platform main = stage root host binaryName built main :=
  pack_main hp.packedStage (stage_manifest.trans hp.platformManifest) hmain hne

end Tarball

/-! ## 7. The consumer -/

section Consumer

variable {host : Host} {main platform : FileSystem (Content β)}

theorem scoped_ne (variant : String) : "sync-" ++ variant ≠ "sync" := by
  intro h
  have hchars := congrArg String.toList h
  simp at hchars

/-- Under a package of the scope that is not the main one nothing of the main tarball is read. -/
theorem installed_beside {name : String} (rest : Path) (h : name ≠ "sync") :
    installed host main platform ("node_modules" :: "@trueseal" :: name :: rest) =
      FileSystem.mount (fun _ => none) (variantDir host.dir) platform
        ("node_modules" :: "@trueseal" :: name :: rest) := by
  refine FileSystem.mount_outside _ _ fun hprefix => h ?_
  simpa [syncDir, eq_comm] using hprefix

/-- **The files of the platform package are those of its tarball.** -/
theorem installed_platform (rest : Path) :
    installed host main platform (variantDir host.dir ++ rest) = platform rest := by
  have hbeside : installed host main platform (variantDir host.dir ++ rest) = _ :=
    installed_beside rest (scoped_ne host.dir)
  exact hbeside.trans (FileSystem.mount_inside _ (variantDir host.dir) _ rest)

/-- Nothing else is installed in the scope. -/
theorem installed_nothing {name : String} (rest : Path) (h : name ≠ "sync")
    (hdir : name ≠ "sync-" ++ host.dir) :
    installed host main platform ("node_modules" :: "@trueseal" :: name :: rest) = none := by
  rw [installed_beside rest h]
  refine FileSystem.mount_outside _ _ fun hprefix => hdir ?_
  simpa [variantDir, eq_comm] using hprefix

/-- The guesses for a package of the scope, by their names. -/
theorem asFile_variantDir (variant : String) : asFile (variantDir variant) =
    ["", ".js", ".json", ".node"].map fun extension =>
      ["node_modules", "@trueseal", "sync-" ++ variant ++ extension] := by
  have h : variantDir variant = ["node_modules", "@trueseal"] ++ ["sync-" ++ variant] := rfl
  simp only [asFile, h, addExtension_concat]
  simp

/-- A package that is not installed cannot be required. -/
theorem resolve_absent {variant : String}
    (h : ∀ extension ∈ ["", ".js", ".json", ".node"],
      "sync-" ++ variant ++ extension ≠ "sync-" ++ host.dir) :
    resolve (installed host main platform) (variantDir variant) = none := by
  have hinside : ∀ rest, installed host main platform (variantDir variant ++ rest) = none :=
    fun rest => installed_nothing rest (scoped_ne variant) (by simpa using h "" (by simp))
  refine resolve_eq_none (fun p hp => ?_) ?_ (fun p hp => ?_)
  · rw [asFile_variantDir] at hp
    obtain ⟨extension, hext, rfl⟩ := List.mem_map.mp hp
    exact installed_nothing [] (by rw [String.append_assoc]; exact scoped_ne _) (h extension hext)
  · rw [manifestIn, hinside]
    rfl
  · simp only [asIndex, List.mem_cons, List.not_mem_nil, or_false] at hp
    rcases hp with rfl | rfl | rfl <;> exact hinside _

/-- **Requiring the platform package loads its main file, if that is there.** -/
theorem require_platform {evaluate : FileSystem (Content β) → Path → Option β} {m : Manifest}
    {mainFile : Path} {content : Content β} (hnil : platform [] = none)
    (hm : manifestIn platform [] = some m) (hmain : m.main = some mainFile)
    (hthere : platform mainFile = some content) :
    require evaluate (installed host main platform) (variantDir host.dir) =
      load evaluate (installed host main platform) (variantDir host.dir ++ mainFile) := by
  refine require_package (fun p hp => ?_) ?_ hmain ?_
  · rw [asFile_variantDir] at hp
    obtain ⟨extension, hext, rfl⟩ := List.mem_map.mp hp
    by_cases hempty : extension = ""
    · have hself : installed host main platform (variantDir host.dir ++ []) = none :=
        (installed_platform []).trans hnil
      rw [hempty, String.append_empty]
      exact hself
    · refine installed_nothing [] (by rw [String.append_assoc]; exact scoped_ne _) ?_
      simpa using hempty
  · rw [manifestIn, installed_platform]
    exact hm
  · rw [installed_platform, hthere]
    rfl

end Consumer

/-! ## 8. What a pass says about the platform package -/

section Exact

variable {machine : InstallMachine β} {host : Host} {platform : FileSystem (Content β)}

/-- A main tarball without a binary for the host: the loader finds nothing beside it. -/
def CarriesNoBinary (host : Host) (main : FileSystem (Content β)) : Prop :=
  ∀ variant ∈ host.variants false false, resolve main [localBinary variant] = none

theorem variants_consumer (host : Host) : host.variants false false = [host.dir] ∨
    host.variants false false = ["darwin-universal", host.dir] := by
  cases host <;> simp [Host.variants, Host.dir]

theorem universal_absent (host : Host) : ∀ extension ∈ ["", ".js", ".json", ".node"],
    "sync-" ++ "darwin-universal" ++ extension ≠ "sync-" ++ host.dir := by
  cases host <;> decide

/-- Beside a main tarball without a binary the loader finds no file. -/
theorem require_local {main : FileSystem (Content β)} {variant : String}
    (h : resolve main [localBinary variant] = none) :
    require machine.evaluate (installed host main platform) (syncDir ++ [localBinary variant]) =
      none := by
  refine require_eq_none ?_
  unfold installed
  rw [resolve_mount (by simp), h]
  rfl

/-- **A consumer whose main package carries no binary gets what the platform package gives.** -/
theorem requireNative_consumer {main : FileSystem (Content β)} (enforce : Bool)
    (h : CarriesNoBinary host main) :
    requireNative (machine.consumer enforce) host (installed host main platform) =
      requirePackage (machine.consumer enforce) (installed host main platform) host.dir := by
  have hvariant : ∀ variant ∈ host.variants false false,
      requireVariant (machine.consumer enforce) (installed host main platform) variant =
        requirePackage (machine.consumer enforce) (installed host main platform) variant := by
    intro variant hv
    unfold requireVariant
    rw [require_local (h variant hv), Option.none_or]
  show (host.variants false false).findSome? _ = _
  rcases variants_consumer host with heq | heq
  · rw [heq] at hvariant ⊢
    simp only [List.findSome?_cons, List.findSome?_nil, hvariant host.dir (by simp)]
    cases requirePackage (machine.consumer enforce) (installed host main platform) host.dir <;> rfl
  · have huniversal : requirePackage (machine.consumer enforce) (installed host main platform)
        "darwin-universal" = none := by
      unfold requirePackage
      rw [require_eq_none (resolve_absent (universal_absent host))]
      rfl
    rw [heq] at hvariant ⊢
    simp only [List.findSome?_cons, List.findSome?_nil, hvariant host.dir (by simp),
      hvariant "darwin-universal" (by simp), huniversal]
    cases requirePackage (machine.consumer enforce) (installed host main platform) host.dir <;> rfl

/-- What the installed platform package gives, with the native module `content` as its main
    file. -/
theorem requirePackage_platform {main : FileSystem (Content β)} {m : Manifest} {mainFile : Path}
    {binding : Option β} (enforce : Bool) (hnil : platform [] = none)
    (hm : manifestIn platform [] = some m) (hmain : m.main = some mainFile)
    (hversion : m.version = some "0.6.0") (hne : mainFile ≠ [])
    (hthere : platform mainFile = some (.native binding)) :
    requirePackage (machine.consumer enforce) (installed host main platform) host.dir =
      if isAddon mainFile = true then binding else none := by
  have hloaded : require (machine.consumer enforce).evaluate (installed host main platform)
      (variantDir host.dir) = if isAddon mainFile = true then binding else none := by
    rw [require_platform hnil hm hmain hthere,
      load_native ((installed_platform mainFile).trans hthere), isAddon_append _ hne]
  have hmanifest : manifestIn (installed host main platform) (variantDir host.dir) = some m := by
    rw [manifestIn, installed_platform]
    exact hm
  unfold requirePackage
  rw [hloaded, hmanifest]
  cases (if isAddon mainFile = true then binding else none) with
  | none => rfl
  | some b => simp [hversion]

/-- The platform package works: its tarball has the built binary under the name of its main file,
    and whoever installs it beside a main tarball without a binary gets the binding of that
    binary. -/
def PlatformPackageWorks (machine : InstallMachine β) (root : FileSystem (Content β))
    (packed : Packed β) : Prop :=
  ∃ host pkg binaryName binding platformPkg mainFile,
    HOSTS (machine.platform ++ "-" ++ machine.arch) = some host ∧
    manifestIn root [] = some pkg ∧ pkg.napiBinaryName = some binaryName ∧
    root [builtName binaryName host] = some (.native (some binding)) ∧
    manifestIn packed.platform [] = some platformPkg ∧ platformPkg.main = some mainFile ∧
    packed.platform mainFile = some (.native (some binding)) ∧
    ∀ main enforce, CarriesNoBinary host main →
      requireNative (machine.consumer enforce) host (installed host main packed.platform) =
        some binding

/-- The manifest of npm/<dir> names as its main file the name under which the binary is staged, or
    an add-on in npm/<dir> which already is that binary; and the binary loads. -/
def NamesStagedBinary (machine : InstallMachine β) (root : FileSystem (Content β)) : Prop :=
  ∃ host pkg binaryName binding platformPkg mainFile,
    HOSTS (machine.platform ++ "-" ++ machine.arch) = some host ∧
    manifestIn root [] = some pkg ∧ pkg.napiBinaryName = some binaryName ∧
    root [builtName binaryName host] = some (.native (some binding)) ∧
    manifestIn root ["npm", host.dir] = some platformPkg ∧ platformPkg.main = some mainFile ∧
    (mainFile = [stagedName binaryName host] ∨
      isAddon mainFile = true ∧
        root (["npm", host.dir] ++ mainFile) = some (.native (some binding)))

theorem carriesNoBinary_empty (host : Host) :
    CarriesNoBinary host (fun _ => (none : Option (Content β))) := fun _ _ =>
  resolve_eq_none (fun _ _ => rfl) rfl (fun _ _ => rfl)

section Passed

variable {root : FileSystem (Content β)} {packed : Packed β} {pkg platformPkg : Manifest}
  {binaryName : String} {built : Content β} {mainFile : Path}

/-- The tarball has the built binary under the name of the main file in two cases only. -/
theorem Passed.main_iff (hp : Passed machine root packed host pkg platformPkg binaryName built)
    (hmain : platformPkg.main = some mainFile) (hne : mainFile ≠ []) :
    packed.platform mainFile = some built ↔ mainFile = [stagedName binaryName host] ∨
      root (["npm", host.dir] ++ mainFile) = some built := by
  rw [hp.main hmain hne]
  by_cases heq : mainFile = [stagedName binaryName host]
  · rw [heq, stage_stagedName]
    simp
  · rw [stage_of_ne heq]
    simp [heq]

/-- What a consumer of the tarball gets, where it has a native module under that name. -/
theorem Passed.consumer (hp : Passed machine root packed host pkg platformPkg binaryName built)
    (hmain : platformPkg.main = some mainFile) (hne : mainFile ≠ []) {binding : Option β}
    (hthere : packed.platform mainFile = some (.native binding)) {main : FileSystem (Content β)}
    (enforce : Bool) (h : CarriesNoBinary host main) :
    requireNative (machine.consumer enforce) host (installed host main packed.platform) =
      if isAddon mainFile = true then binding else none := by
  rw [requireNative_consumer enforce h, requirePackage_platform enforce (pack_nil hp.packedStage)
    hp.manifest hmain hp.version hne hthere]

end Passed

end Exact

/-! ## 9. The repository -/

section Repository

/-- The package.json of the main package. -/
def mainManifest : Manifest where
  name := some "@trueseal/sync"
  version := some "0.6.0"
  main := some ["dist", "index.js"]
  files := ["dist", "index.js", "index.d.ts", "*.node"]
  optionalDependencies := fun name =>
    if name ∈ ["@trueseal/sync-darwin-arm64", "@trueseal/sync-darwin-x64",
      "@trueseal/sync-linux-x64-gnu", "@trueseal/sync-linux-arm64-gnu",
      "@trueseal/sync-win32-x64-msvc"] then some "0.6.0" else none
  enginesNode := some ">= 20"
  napiBinaryName := some "trueseal-sync-ts"

/-- The package.json of npm/linux-x64-gnu, with `binary` as its main file and only entry. -/
def linuxManifest (binary : String) : Manifest where
  name := some "@trueseal/sync-linux-x64-gnu"
  version := some "0.6.0"
  main := some [binary]
  files := [binary]
  optionalDependencies := fun _ => none
  enginesNode := some ">= 20"
  napiBinaryName := none

/-- The repository after `npm run build` on linux-x64; the binding is `()`. -/
def builtTree (binary : String) : FileSystem (Content Unit) := fun path =>
  if path = ["package.json"] then some (.manifest mainManifest)
  else if path = ["index.js"] then some (.text "nativeBinding = requireNative()".toList)
  else if path = ["dist", "index.js"] then some (.text "require('../index.js')".toList)
  else if path = ["trueseal-sync-ts.linux-x64-gnu.node"] then some (.native (some ()))
  else if path = ["npm", "linux-x64-gnu", "package.json"] then
    some (.manifest (linuxManifest binary))
  else if path = ["npm", "linux-x64-gnu", "README.md"] then some (.text [])
  else none

/-- A program that ended well. -/
def endedWell : Spawned := ⟨some 0, none, ["package.tgz"]⟩

/-- A linux-x64 machine on which npm and tsc exit well, and a probe passes where the loader gives a
    binding. An entry of a files list matches a file, a directory, or `*.node` in the package. -/
def linuxMachine : InstallMachine Unit where
  platform := "linux"
  arch := "x64"
  evaluate := fun _ _ => none
  truthy := fun _ => true
  globs := fun entry path =>
    path.head? == some entry || entry == "*.node" && path.length == 1 && isAddon path
  directory := fun _ path =>
    path ∈ [["npm", "linux-x64-gnu"], syncDir, variantDir "linux-x64-gnu"]
  root := "/repository/"
  tmp := "/tmp/trueseal-verify"
  execPath := "/usr/bin/node"
  join := "/".intercalate
  npmPack := fun _ => endedWell
  npmInstall := fun _ _ => endedWell
  probe := fun _ _ binding => if binding.isSome then endedWell else ⟨some 1, none, [""]⟩
  tsc := fun _ => endedWell
  musl := false
  mingw := false
  nativeLibraryPath := none
  enforceVersionCheck := false
  forceWasi := none

/-- **The check passes whatever the platform manifest names as its main file**: the main tarball
    carries the binary of the host. -/
theorem builtTree_passes (binary : String) :
    ∃ packed, verifyInstall linuxMachine (builtTree binary) = .ok packed := by
  have hok : (verifyInstall linuxMachine (builtTree binary)).isOk = true := rfl
  cases h : verifyInstall linuxMachine (builtTree binary) with
  | error e => rw [h] at hok; cases hok
  | ok packed => exact ⟨packed, rfl⟩

end Repository

end TrueSealSync.Release
