/-
  File:      TrueSealSync/Release/Stamp.lean
  Subject:   STAMPING A VERSION: what scripts/stamp-version.mjs leaves in the manifests, whatever
             happened before and wherever it stops.

  The script stamps the platform manifests one after the other and package.json last, so a run that
  fails may have written some of them.

  * `stampVersion` -- the script; the two steps that verify the stamps, of candidate.yml and of
    promote.yml, are `verifyStamps` and `verifyCommit`;
  * `plan` -- where a run stops is decided by what is in the tree, not by the version it stamps
    nor by the ones stamped before (`stampVersion_exec`, `plan_stamped`);
  * `stamp_outcome` -- what a run has written wherever it stops;
  * `last_stamp_wins` -- so a run after any earlier one leaves what it leaves alone, where the sync
    of the lockfile goes by the manifests only;
  * `stamp_verified` -- and what a run that succeeds leaves passes both verifications exactly where
    everything in npm/ that is no directory carries the version too.
-/
import Mathlib.Data.List.Sort
import TrueSealSync.Lib.Fallible
import TrueSealSync.Lib.Throwing
import TrueSealSync.Release.Install

namespace TrueSealSync.Release.Stamp

open TrueSealSync.Lib

/-! ## 1. The manifests -/

/-- An object of version pins, by its members. -/
@[ext]
structure Pins where
  members : List (String × String)
  distinct : (members.map Prod.fst).Nodup

/-- `{}`. -/
def Pins.empty : Pins := ⟨[], List.nodup_nil⟩

/-- `Object.keys(..)`. -/
def Pins.keys (p : Pins) : List String := p.members.map Prod.fst

/-- The pin of a key replaced. -/
def repin (key version : String) (member : String × String) : String × String :=
  if member.1 = key then (key, version) else member

theorem repin_fst (key version : String) : Prod.fst ∘ repin key version = Prod.fst := by
  funext member
  unfold repin
  show (if member.1 = key then (key, version) else member).1 = member.1
  split
  · rename_i h
    exact h.symm
  · rfl

/-- `pins[key] = version`: in the place of the key, or at the end. -/
def Pins.set (p : Pins) (key version : String) : Pins :=
  if h : key ∈ p.keys then
    { members := p.members.map (repin key version)
      distinct := by rw [List.map_map, repin_fst]; exact p.distinct }
  else
    { members := p.members ++ [(key, version)]
      distinct := by
        rw [List.map_append, List.nodup_append]
        refine ⟨p.distinct, by simp, ?_⟩
        intro a ha b hb he
        have hkey : a = key := he.trans (by simpa using hb)
        exact h (hkey ▸ ha) }

/-- What the scripts read of a package.json. -/
@[ext]
structure PackageJson where
  name : Option String
  version : Option String
  optionalDependencies : Option Pins := none

/-- `optionalDependencies ?? {}`. -/
def PackageJson.optDeps (pkg : PackageJson) : Pins := pkg.optionalDependencies.getD .empty

/-- What is in npm/ under a name, and what the package.json under it parses to, if it is there. -/
structure Entry where
  name : String
  directory : Bool
  manifest : Option PackageJson

/-- What the scripts find in the repository. -/
structure Tree where
  /-- package.json -/
  main : Option PackageJson
  /-- npm/ is there -/
  hasNpm : Bool
  npm : List Entry
  distinct : (npm.map (·.name)).Nodup
  /-- package-lock.json is there -/
  hasLock : Bool

/-- The manifest in npm/ under a name. -/
def Tree.manifestAt (t : Tree) (dir : String) : Option PackageJson :=
  (t.npm.find? (·.name == dir)).bind (·.manifest)

/-- `writeJson(npm/<dir>/package.json, pkg)`. -/
def Entry.write (dir : String) (pkg : PackageJson) (e : Entry) : Entry :=
  if e.name = dir then { e with manifest := some pkg } else e

theorem Entry.write_name (dir : String) (pkg : PackageJson) :
    (·.name) ∘ Entry.write dir pkg = (·.name) := by
  funext e
  unfold Entry.write
  show (if e.name = dir then { e with manifest := some pkg } else e : Entry).name = e.name
  split <;> rfl

def Tree.write (t : Tree) (dir : String) (pkg : PackageJson) : Tree :=
  { t with
    npm := t.npm.map (Entry.write dir pkg)
    distinct := by rw [List.map_map, Entry.write_name]; exact t.distinct }

/-! ## 2. The script -/

/-- A script on the tree that may stop. -/
abbrev Script (α : Type) : Type := Throwing Tree Stop α

/-- What is around the script: the text of an array of strings, and whether npm syncs the lockfile.
    Whether it does is taken to depend on the manifests, not on what the lockfile holds, and it
    writes no manifest. -/
structure Machine where
  stringify : List String → String
  syncsLock : Tree → Bool

/-- `console.error(..); process.exit(1)`. -/
def failure (message : String) : Stop := .fail ("stamp-version: FAIL — " ++ message)

/-- `if (!ok) { .. }`. -/
def stopUnless (ok : Bool) (message : String) : Script Unit :=
  if ok then pure () else throw (failure message)

/-- `JSON.parse(readFileSync(..))`. -/
def readJson (file : Option PackageJson) : Script PackageJson :=
  match file with
  | some pkg => pure pkg
  | none => throw .exception

/-- `/^\d+\.\d+\.\d+$/`. -/
def isVersion (version : String) : Bool :=
  match version.toList.splitOn '.' with
  | [major, minor, patch] =>
      [major, minor, patch].all fun part => !part.isEmpty && part.all Char.isDigit
  | _ => false

/-- The UTF-16 code units of a string. -/
def utf16 (s : String) : List Nat :=
  s.toList.flatMap fun c =>
    if c.toNat < 0x10000 then [c.toNat]
    else [0xD800 + (c.toNat - 0x10000) / 0x400, 0xDC00 + (c.toNat - 0x10000) % 0x400]

/-- `.sort()`. -/
def sort (names : List String) : List String :=
  names.insertionSort fun a b => lexLe (utf16 a) (utf16 b) = true

def wantName (dir : String) : String := "@trueseal/sync-" ++ dir

/-! The texts of the failures. -/

def versionText (argv : Option String) : String :=
  "version must be X.Y.Z without a v prefix (got '" ++ shown argv ++ "')"

def mainNameText (name : Option String) : String :=
  "main package name is " ++ shown name ++ ", want @trueseal/sync"

def countText (dirs : List String) : String :=
  "expected 5 platform package dirs under npm/, found " ++ toString dirs.length ++ ": " ++
    String.intercalate "," dirs

def platformNameText (dir : String) (name : Option String) : String :=
  "npm/" ++ dir ++ "/package.json name is " ++ shown name ++ ", want " ++ wantName dir

def pinsText (machine : Machine) (optNames platformNames : List String) : String :=
  "optionalDependencies " ++ machine.stringify optNames ++ " != the platform packages " ++
    machine.stringify platformNames

/-- `readdirSync(npmDir)`. -/
def readNpm : Script (List Entry) := do
  let t ← get
  if t.hasNpm then pure t.npm else throw .exception

/-- `platformDirs`. -/
def platformDirs (npm : List Entry) : List String := sort ((npm.filter (·.directory)).map (·.name))

/-- The loop over the platform directories; it answers `platformNames`. -/
def stampPlatforms (version : String) : List String → Script (List String)
  | [] => pure []
  | dir :: dirs => do
      let pkg ← readJson ((← get).manifestAt dir)
      stopUnless (pkg.name == some (wantName dir)) (platformNameText dir pkg.name)
      modify fun t => t.write dir { pkg with version := some version }
      let platformNames ← stampPlatforms version dirs
      return wantName dir :: platformNames

/-- `for (const name of optNames) optDeps[name] = version`. -/
def pinAll (version : String) (optDeps : Pins) (optNames : List String) : Pins :=
  optNames.foldl (fun pins name => pins.set name version) optDeps

/-- `optNames`. -/
def PackageJson.optNames (pkg : PackageJson) : List String := sort pkg.optDeps.keys

/-- package.json with its version and the pins of its optional dependencies replaced. -/
def PackageJson.stampMain (version : String) (pkg : PackageJson) : PackageJson :=
  { pkg with
    version := some version
    optionalDependencies := some (pinAll version pkg.optDeps pkg.optNames) }

/-- `writeJson(mainPath, mainPkg)`. -/
def Tree.writeMain (pkg : PackageJson) (t : Tree) : Tree := { t with main := some pkg }

/-- From the optional dependencies on: package.json is written, and the lockfile synced. -/
def stampPins (machine : Machine) (version : String) (mainPkg : PackageJson)
    (platformNames : List String) : Script Unit := do
  stopUnless (mainPkg.optNames.length == 5 && mainPkg.optNames == platformNames)
    (pinsText machine mainPkg.optNames platformNames)
  modify (·.writeMain (mainPkg.stampMain version))
  let t ← get
  if t.hasLock then stopUnless (machine.syncsLock t) "npm install --package-lock-only failed"

/-- scripts/stamp-version.mjs. -/
def stampVersion (machine : Machine) (argv : Option String) : Script Unit := do
  let version := argv.getD ""
  stopUnless (isVersion version) (versionText argv)
  let mainPkg ← readJson (← get).main
  stopUnless (mainPkg.name == some "@trueseal/sync") (mainNameText mainPkg.name)
  let dirs := platformDirs (← readNpm)
  stopUnless (dirs.length == 5) (countText dirs)
  let platformNames ← stampPlatforms version dirs
  stampPins machine version mainPkg platformNames

/-! ## 3. The verifications -/

/-- A value without which an exception is thrown. -/
def orException {γ : Type} (value : Option γ) : Except Stop γ :=
  match value with
  | some v => .ok v
  | none => .error .exception

/-- `readdirSync("npm")`. -/
def readdir (t : Tree) : Option (List Entry) := if t.hasNpm then some t.npm else none

/-! The loops of both verifications over the pins and over npm/. -/

def checkPins (v : String) (entries : List (String × String)) : Except Stop Unit :=
  entries.forM fun entry => check (entry.2 == v)
    ("optionalDependencies[" ++ entry.1 ++ "] = " ++ entry.2 ++ ", want " ++ v)

def checkPlatforms (v : String) (entries : List Entry) : Except Stop Unit :=
  entries.forM fun e => do
    let p ← orException e.manifest
    check (p.version == some v) ("npm/" ++ e.name ++ " version " ++ shown p.version ++ " != " ++ v)

/-- `Verify the stamps` of candidate.yml. -/
def verifyStamps (v : String) (t : Tree) : Except Stop Unit := do
  let main ← orException t.main
  check (main.version == some v) ("package.json version " ++ shown main.version ++ " != " ++ v)
  let optDeps ← orException main.optionalDependencies
  checkPins v optDeps.members
  let dirs ← orException (readdir t)
  checkPlatforms v dirs

/-- `Verify the release commit's stamps and core pin` of promote.yml, up to the core pin. -/
def verifyCommit (v : String) (t : Tree) : Except Stop Unit := do
  let main ← orException t.main
  check (main.version == some v)
    ("release commit package.json version " ++ shown main.version ++ " != " ++ v)
  let opt := main.optDeps.members
  check (opt.length == 5) ("optionalDependencies has " ++ toString opt.length ++ " entries, want 5")
  checkPins v opt
  let dirs ← orException (readdir t)
  checkPlatforms v dirs

/-! ## 4. Stamping, all at once -/

/-- The version of a manifest replaced. -/
def PackageJson.stamp (version : String) (pkg : PackageJson) : PackageJson :=
  { pkg with version := some version }

def Entry.stamp (version : String) (e : Entry) : Entry :=
  { e with manifest := e.manifest.map (PackageJson.stamp version) }

/-- The entry as it is after the manifests of `dirs` were stamped. -/
def Entry.stampIn (version : String) (dirs : List String) (e : Entry) : Entry :=
  if e.name ∈ dirs then e.stamp version else e

theorem Entry.stampIn_name (version : String) (dirs : List String) :
    (·.name) ∘ Entry.stampIn version dirs = (·.name) := by
  funext e
  show (if e.name ∈ dirs then e.stamp version else e : Entry).name = e.name
  split <;> rfl

/-- The tree after the manifests of `dirs` were stamped. -/
def Tree.stampAll (version : String) (dirs : List String) (t : Tree) : Tree :=
  { t with
    npm := t.npm.map (Entry.stampIn version dirs)
    distinct := by rw [List.map_map, Entry.stampIn_name]; exact t.distinct }

section Stamping

variable {version v : String} {dir : String} {dirs dirs' : List String} {t : Tree}

theorem Tree.ext_npm {t t' : Tree} (hmain : t.main = t'.main) (hhas : t.hasNpm = t'.hasNpm)
    (hnpm : t.npm = t'.npm) (hlock : t.hasLock = t'.hasLock) : t = t' := by
  cases t
  cases t'
  cases hmain
  cases hhas
  cases hnpm
  cases hlock
  rfl

theorem stamp_stamp (e : Entry) : (e.stamp v).stamp version = e.stamp version := by
  unfold Entry.stamp
  cases e.manifest <;> rfl

theorem stampIn_stampIn (e : Entry) : (e.stampIn v dirs').stampIn version dirs =
    if e.name ∈ dirs then e.stamp version else e.stampIn v dirs' := by
  unfold Entry.stampIn
  by_cases h' : e.name ∈ dirs'
  · rw [if_pos h', stamp_stamp]
    rfl
  · rw [if_neg h']

/-- **Stamping replaces what was stamped.** -/
theorem stampAll_stampAll (h : dirs' ⊆ dirs) :
    (t.stampAll v dirs').stampAll version dirs = t.stampAll version dirs := by
  refine Tree.ext_npm rfl rfl ?_ rfl
  show (t.npm.map (Entry.stampIn v dirs')).map (Entry.stampIn version dirs) = t.npm.map _
  rw [List.map_map]
  refine List.map_congr_left fun e _ => ?_
  show (e.stampIn v dirs').stampIn version dirs = e.stampIn version dirs
  rw [stampIn_stampIn]
  by_cases hmem : e.name ∈ dirs
  · rw [if_pos hmem, Entry.stampIn, if_pos hmem]
  · rw [if_neg hmem, Entry.stampIn, Entry.stampIn, if_neg hmem, if_neg fun hmem' => hmem (h hmem')]

/-- What is under a name in the stamped tree. -/
theorem manifestAt_stampAll : (t.stampAll version dirs).manifestAt dir =
    if dir ∈ dirs then (t.manifestAt dir).map (PackageJson.stamp version)
    else t.manifestAt dir := by
  have hfind : (t.npm.map (Entry.stampIn version dirs)).find? (·.name == dir) =
      (t.npm.find? (·.name == dir)).map (Entry.stampIn version dirs) := by
    rw [List.find?_map]
    congr 1
    refine congrArg (t.npm.find? ·) (funext fun e => ?_)
    show ((e.stampIn version dirs).name == dir) = (e.name == dir)
    rw [show (e.stampIn version dirs).name = e.name from
      congrFun (Entry.stampIn_name version dirs) e]
  unfold Tree.manifestAt
  show ((t.npm.map (Entry.stampIn version dirs)).find? (·.name == dir)).bind _ = _
  rw [hfind]
  cases h : t.npm.find? (·.name == dir) with
  | none => simp
  | some e =>
      obtain rfl : e.name = dir := by simpa using List.find?_some h
      by_cases hmem : e.name ∈ dirs
      · simp [Entry.stampIn, Entry.stamp, hmem]
      · simp [Entry.stampIn, hmem]

/-- Writing the stamped manifest of a directory stamps it. -/
theorem write_stamp {pkg : PackageJson} (h : t.manifestAt dir = some pkg) :
    t.write dir (pkg.stamp version) = t.stampAll version [dir] := by
  refine Tree.ext_npm rfl rfl (List.map_congr_left fun e he => ?_) rfl
  unfold Entry.write Entry.stampIn
  by_cases hname : e.name = dir
  · -- names are distinct: it is the entry the manifest was read from
    obtain ⟨e', hfind, hmanifest⟩ := Option.bind_eq_some_iff.mp h
    have hname' : e'.name = dir := by simpa using List.find?_some hfind
    obtain rfl : e = e' := List.inj_on_of_nodup_map t.distinct he
      (List.mem_of_find?_eq_some hfind) (hname.trans hname'.symm)
    simp [hname, Entry.stamp, hmanifest]
  · simp [hname]

theorem stampAll_append : (t.stampAll v dirs).stampAll v dirs' = t.stampAll v (dirs ++ dirs') := by
  refine Tree.ext_npm rfl rfl ?_ rfl
  show (t.npm.map (Entry.stampIn v dirs)).map (Entry.stampIn v dirs') = t.npm.map _
  rw [List.map_map]
  refine List.map_congr_left fun e _ => ?_
  show (e.stampIn v dirs).stampIn v dirs' = e.stampIn v (dirs ++ dirs')
  rw [stampIn_stampIn]
  by_cases h : e.name ∈ dirs' <;> simp [Entry.stampIn, h]

theorem stampAll_nil : t.stampAll v [] = t :=
  Tree.ext_npm rfl rfl ((List.map_congr_left fun _ _ => if_neg List.not_mem_nil).trans
    (List.map_id _)) rfl

theorem platformDirs_stampAll : platformDirs (t.stampAll v dirs).npm = platformDirs t.npm := by
  have hnames : ((t.npm.map (Entry.stampIn v dirs)).filter (·.directory)).map (·.name) =
      (t.npm.filter (·.directory)).map (·.name) := by
    rw [List.filter_map, List.map_map]
    have hdir : (·.directory) ∘ Entry.stampIn v dirs = (·.directory) := by
      funext e
      show (if e.name ∈ dirs then e.stamp v else e : Entry).directory = e.directory
      split <;> rfl
    rw [hdir, Entry.stampIn_name]
  exact congrArg sort hnames

/-! ### The pins -/

theorem members_set {p : Pins} {key : String} (h : key ∈ p.keys) :
    (p.set key version).members = p.members.map (repin key version) := by
  unfold Pins.set
  rw [dif_pos h]

theorem keys_set {p : Pins} {key : String} (h : key ∈ p.keys) :
    (p.set key version).keys = p.keys := by
  unfold Pins.keys
  rw [members_set h, List.map_map, repin_fst]

/-- **Pinning keys that are there**: their pins are replaced, in their places. -/
theorem members_pinAll {p : Pins} {keys : List String} (h : keys ⊆ p.keys) :
    (pinAll version p keys).members =
      p.members.map fun m => if m.1 ∈ keys then (m.1, version) else m := by
  induction keys generalizing p with
  | nil => simp [pinAll]
  | cons key keys ih =>
      have hkey := h List.mem_cons_self
      have hkeys : keys ⊆ (p.set key version).keys := by
        rw [keys_set hkey]
        exact fun k hk => h (List.mem_cons_of_mem _ hk)
      show (pinAll version (p.set key version) keys).members = _
      rw [ih hkeys, members_set hkey, List.map_map]
      refine List.map_congr_left fun m _ => ?_
      show (if (repin key version m).1 ∈ keys then _ else _) = _
      rw [show (repin key version m).1 = m.1 from congrFun (repin_fst key version) m]
      unfold repin
      by_cases hm : m.1 = key
      · simp [hm]
      · simp [hm]

theorem keys_pinAll {p : Pins} {keys : List String} (h : keys ⊆ p.keys) :
    (pinAll version p keys).keys = p.keys := by
  unfold Pins.keys
  rw [members_pinAll h, List.map_map]
  refine List.map_congr_left fun m _ => ?_
  show (if m.1 ∈ keys then (m.1, version) else m).1 = m.1
  split <;> rfl

/-- **Pinning replaces what was pinned.** -/
theorem pinAll_pinAll {p : Pins} {keys : List String} (h : keys ⊆ p.keys) :
    pinAll version (pinAll v p keys) keys = pinAll version p keys := by
  refine Pins.ext ?_
  rw [members_pinAll (by rw [keys_pinAll h]; exact h), members_pinAll h, members_pinAll h,
    List.map_map]
  refine List.map_congr_left fun m _ => ?_
  by_cases hm : m.1 ∈ keys <;> simp [hm]

theorem sort_perm (names : List String) : (sort names).Perm names := List.perm_insertionSort _ _

theorem optNames_subset (pkg : PackageJson) : pkg.optNames ⊆ pkg.optDeps.keys :=
  (sort_perm _).subset

theorem optNames_stampMain (pkg : PackageJson) : (pkg.stampMain v).optNames = pkg.optNames :=
  congrArg sort (keys_pinAll (optNames_subset pkg))

theorem stampMain_stampMain (pkg : PackageJson) :
    (pkg.stampMain v).stampMain version = pkg.stampMain version := by
  have hpins : pinAll version (pkg.stampMain v).optDeps (pkg.stampMain v).optNames =
      pinAll version pkg.optDeps pkg.optNames := by
    rw [optNames_stampMain]
    exact pinAll_pinAll (optNames_subset pkg)
  exact PackageJson.ext rfl rfl (congrArg some hpins)

end Stamping

/-! ## 5. The plan -/

/-- Why the script stops at a directory. -/
def Tree.fault (t : Tree) (dir : String) : Option Stop :=
  match t.manifestAt dir with
  | none => some .exception
  | some pkg =>
      if pkg.name == some (wantName dir) then none
      else some (failure (platformNameText dir pkg.name))

/-- The first fault of the directories, with those before it. -/
def Tree.firstFault (t : Tree) : List String → Option (List String × Stop)
  | [] => none
  | dir :: dirs =>
      match t.fault dir with
      | some stop => some ([], stop)
      | none => (t.firstFault dirs).map fun fault => (dir :: fault.1, fault.2)

/-- What a run on the tree comes to: the stop, with the directories stamped before it, or the
    package.json whose pins are right. -/
def plan (machine : Machine) (t : Tree) : Except (List String × Stop) PackageJson :=
  match t.main with
  | none => .error ([], .exception)
  | some mainPkg =>
      if !(mainPkg.name == some "@trueseal/sync") then
        .error ([], failure (mainNameText mainPkg.name))
      else if !t.hasNpm then .error ([], .exception)
      else if !((platformDirs t.npm).length == 5) then
        .error ([], failure (countText (platformDirs t.npm)))
      else match t.firstFault (platformDirs t.npm) with
        | some fault => .error fault
        | none =>
            if mainPkg.optNames.length == 5 &&
                mainPkg.optNames == (platformDirs t.npm).map wantName then .ok mainPkg
            else .error (platformDirs t.npm, failure (pinsText machine mainPkg.optNames
              ((platformDirs t.npm).map wantName)))

section Plan

variable {version v : String} {dir : String} {dirs dirs' : List String} {t : Tree}
  {machine : Machine}

@[simp] theorem exec_readJson (pkg : PackageJson) :
    (readJson (some pkg)).exec t = (.ok pkg, t) := rfl

@[simp] theorem exec_readJson_none : (readJson none).exec t = (.error .exception, t) := rfl

@[simp] theorem exec_stopUnless (message : String) :
    (stopUnless true message).exec t = (.ok (), t) := rfl

@[simp] theorem exec_stopUnless_false (message : String) : (stopUnless false message).exec t =
    (.error (failure message), t) := rfl

/-- Faults do not depend on versions. -/
theorem fault_stampAll : (t.stampAll v dirs).fault dir = t.fault dir := by
  unfold Tree.fault
  rw [manifestAt_stampAll]
  by_cases h : dir ∈ dirs
  · rw [if_pos h]
    cases t.manifestAt dir <;> rfl
  · rw [if_neg h]

theorem firstFault_stampAll : (t.stampAll v dirs').firstFault dirs = t.firstFault dirs := by
  induction dirs with
  | nil => rfl
  | cons dir dirs ih =>
      unfold Tree.firstFault
      rw [fault_stampAll, ih]

theorem firstFault_writeMain {pkg : PackageJson} :
    (t.writeMain pkg).firstFault dirs = t.firstFault dirs := by
  induction dirs with
  | nil => rfl
  | cons dir dirs ih =>
      have hfault : (t.writeMain pkg).fault dir = t.fault dir := rfl
      unfold Tree.firstFault
      rw [hfault, ih]

/-- **The loop stamps the directories up to the first fault.** -/
theorem stampPlatforms_exec : (stampPlatforms v dirs).exec t = match t.firstFault dirs with
    | none => (.ok (dirs.map wantName), t.stampAll v dirs)
    | some (stamped, stop) => (.error stop, t.stampAll v stamped) := by
  induction dirs generalizing t with
  | nil =>
      rw [Tree.firstFault, stampAll_nil]
      rfl
  | cons dir dirs ih =>
      unfold stampPlatforms Tree.firstFault Tree.fault
      simp only [Throwing.exec_bind, Throwing.exec_get]
      cases hm : t.manifestAt dir with
      | none => simp [stampAll_nil]
      | some pkg =>
          cases hname : pkg.name == some (wantName dir) with
          | false => simp [stampAll_nil, hname]
          | true =>
              have hwrite : t.write dir { pkg with version := some v } = t.stampAll v [dir] :=
                write_stamp hm
              simp only [exec_readJson, hname, exec_stopUnless, Throwing.exec_modify, hwrite,
                if_true]
              rw [ih, firstFault_stampAll]
              cases t.firstFault dirs with
              | none => simp [stampAll_append]
              | some fault => simp [stampAll_append]

/-- The tree of a run that gets to the end: package.json is written last. -/
def Tree.stamped (v : String) (mainPkg : PackageJson) (t : Tree) : Tree :=
  (t.stampAll v (platformDirs t.npm)).writeMain (mainPkg.stampMain v)

/-- How a run ends that has written everything. -/
def lockSync (machine : Machine) (t : Tree) : Except Stop Unit :=
  if t.hasLock && !machine.syncsLock t then
    .error (failure "npm install --package-lock-only failed")
  else .ok ()

/-- What the plan makes of a run that stamps `v`. -/
def outcome (machine : Machine) (v : String) (t : Tree) : Except Stop Unit × Tree :=
  match plan machine t with
  | .error (stamped, stop) => (.error stop, t.stampAll v stamped)
  | .ok mainPkg => (lockSync machine (t.stamped v mainPkg), t.stamped v mainPkg)

/-- A version that is none is refused, and nothing is written. -/
theorem stampVersion_invalid {argv : Option String} (h : isVersion (argv.getD "") = false) :
    (stampVersion machine argv).exec t = (.error (failure (versionText argv)), t) := by
  unfold stampVersion
  simp [Throwing.exec_bind, h]

theorem exec_readNpm (h : t.hasNpm = true) : (readNpm).exec t = (.ok t.npm, t) := by
  unfold readNpm
  rw [Throwing.exec_bind, Throwing.exec_get]
  simp [h]

theorem exec_readNpm_none (h : t.hasNpm = false) : (readNpm).exec t = (.error .exception, t) := by
  unfold readNpm
  rw [Throwing.exec_bind, Throwing.exec_get]
  simp [h]

theorem stampPins_exec {mainPkg : PackageJson} {names : List String} :
    (stampPins machine v mainPkg names).exec t =
      if mainPkg.optNames.length == 5 && mainPkg.optNames == names then
        (lockSync machine (t.writeMain (mainPkg.stampMain v)), t.writeMain (mainPkg.stampMain v))
      else (.error (failure (pinsText machine mainPkg.optNames names)), t) := by
  unfold stampPins
  simp only [Throwing.exec_bind, Throwing.exec_modify, Throwing.exec_get]
  cases hpins : mainPkg.optNames.length == 5 && mainPkg.optNames == names with
  | false => rfl
  | true =>
      simp only [exec_stopUnless, if_true]
      unfold lockSync
      cases hlock : (t.writeMain (mainPkg.stampMain v)).hasLock with
      | false => simp
      | true =>
          cases machine.syncsLock (t.writeMain (mainPkg.stampMain v)) <;> simp

/-- **The script does what the plan says.** -/
theorem stampVersion_exec (h : isVersion v = true) :
    (stampVersion machine (some v)).exec t = outcome machine v t := by
  unfold stampVersion outcome plan
  simp only [Throwing.exec_bind, Option.getD_some, h, exec_stopUnless, Throwing.exec_get]
  cases hmain : t.main with
  | none => simp [stampAll_nil]
  | some mainPkg =>
      cases hname : mainPkg.name == some "@trueseal/sync" with
      | false => simp [hname, stampAll_nil]
      | true =>
          simp only [exec_readJson, hname, exec_stopUnless]
          cases hnpm : t.hasNpm with
          | false => simp [exec_readNpm_none hnpm, stampAll_nil]
          | true =>
              simp only [exec_readNpm hnpm]
              cases hcount : (platformDirs t.npm).length == 5 with
              | false => simp [stampAll_nil]
              | true =>
                  simp only [exec_stopUnless, stampPlatforms_exec]
                  cases t.firstFault (platformDirs t.npm) with
                  | some fault => rfl
                  | none =>
                      simp only [stampPins_exec]
                      cases hpins : mainPkg.optNames.length == 5 &&
                          mainPkg.optNames == (platformDirs t.npm).map wantName with
                      | false => simp
                      | true => simp [Tree.stamped]

/-! ## 6. Runs -/

/-- Everything is in its place: a run stamps `mainPkg` and all platform manifests. -/
structure Ready (t : Tree) (mainPkg : PackageJson) : Prop where
  main : t.main = some mainPkg
  name : mainPkg.name = some "@trueseal/sync"
  hasNpm : t.hasNpm = true
  count : (platformDirs t.npm).length = 5
  names : t.firstFault (platformDirs t.npm) = none
  pins : mainPkg.optNames = (platformDirs t.npm).map wantName

theorem plan_ok_iff {mainPkg : PackageJson} : plan machine t = .ok mainPkg ↔ Ready t mainPkg := by
  constructor
  · intro h
    unfold plan at h
    cases hmain : t.main with
    | none => simp [hmain] at h
    | some pkg =>
        rw [hmain] at h
        simp only at h
        split at h
        · cases h
        · rename_i hname
          split at h
          · cases h
          · rename_i hnpm
            split at h
            · cases h
            · rename_i hcount
              cases hfault : t.firstFault (platformDirs t.npm) with
              | some fault => simp [hfault] at h
              | none =>
                  rw [hfault] at h
                  simp only at h
                  split at h
                  · rename_i hpins
                    obtain rfl := Except.ok.inj h
                    obtain ⟨-, hpins⟩ : _ ∧ pkg.optNames = _ := by simpa using hpins
                    exact ⟨hmain, by simpa using hname, by simpa using hnpm,
                      by simpa using hcount, hfault, hpins⟩
                  · cases h
  · intro h
    have hcount := h.count
    unfold plan
    simp [h.main, h.name, h.hasNpm, h.names, h.pins, hcount]

/-- **The plan does not depend on versions.** -/
theorem plan_stampAll : plan machine (t.stampAll v dirs) = plan machine t := by
  have hmain : (t.stampAll v dirs).main = t.main := rfl
  have hnpm : (t.stampAll v dirs).hasNpm = t.hasNpm := rfl
  unfold plan
  rw [hmain, hnpm, platformDirs_stampAll, firstFault_stampAll]

theorem Ready.stamped {mainPkg : PackageJson} (h : Ready t mainPkg) :
    Ready (t.stamped v mainPkg) (mainPkg.stampMain v) := by
  have hdirs : platformDirs (t.stamped v mainPkg).npm = platformDirs t.npm := platformDirs_stampAll
  refine ⟨rfl, h.name, h.hasNpm, ?_, ?_, ?_⟩
  · rw [hdirs]
    exact h.count
  · rw [hdirs, Tree.stamped, firstFault_writeMain, firstFault_stampAll]
    exact h.names
  · rw [hdirs, optNames_stampMain]
    exact h.pins

theorem stamped_stamped (mainPkg : PackageJson) :
    (t.stamped v mainPkg).stamped version (mainPkg.stampMain v) = t.stamped version mainPkg := by
  have hdirs : platformDirs (t.stamped v mainPkg).npm = platformDirs t.npm := platformDirs_stampAll
  have hswap : (t.stamped v mainPkg).stampAll version (platformDirs t.npm) =
      ((t.stampAll v (platformDirs t.npm)).stampAll version (platformDirs t.npm)).writeMain
        (mainPkg.stampMain v) := rfl
  rw [Tree.stamped, hdirs, hswap, stampAll_stampAll (List.Subset.refl _), stampMain_stampMain]
  rfl

/-- **The last stamp wins**: a run that stamps a version ends, and leaves the manifests, as if no
    earlier run had been there, whatever that one stamped and wherever it stopped. The sync of the
    lockfile is taken to go by the manifests only. -/
theorem last_stamp_wins (machine : Machine) (argv : Option String) (t : Tree)
    (h : isVersion version = true) :
    (stampVersion machine (some version)).exec ((stampVersion machine argv).exec t).2 =
      (stampVersion machine (some version)).exec t := by
  cases hargv : isVersion (argv.getD "") with
  | false => rw [stampVersion_invalid hargv]
  | true =>
      cases argv with
      | none => cases hargv
      | some v =>
          rw [Option.getD_some] at hargv
          rw [stampVersion_exec h, stampVersion_exec h, stampVersion_exec hargv]
          cases hplan : plan machine t with
          | error fault =>
              obtain ⟨stamped, stop⟩ := fault
              have hfirst : outcome machine v t = (.error stop, t.stampAll v stamped) := by
                rw [outcome, hplan]
              rw [hfirst, outcome, outcome, plan_stampAll, hplan]
              simp only [stampAll_stampAll (List.Subset.refl stamped)]
          | ok mainPkg =>
              have hready := plan_ok_iff.mp hplan
              have hfirst : (outcome machine v t).2 = t.stamped v mainPkg := by
                rw [outcome, hplan]
              rw [hfirst, outcome, outcome, hplan, plan_ok_iff.mpr hready.stamped]
              simp only [stamped_stamped]

/-! ### What a run has written -/

theorem firstFault_prefix {fault : List String × Stop} (h : t.firstFault dirs = some fault) :
    fault.1 <+: dirs := by
  induction dirs generalizing fault with
  | nil => cases h
  | cons dir dirs ih =>
      unfold Tree.firstFault at h
      cases hf : t.fault dir with
      | some stop =>
          rw [hf] at h
          cases h
          exact List.nil_prefix
      | none =>
          rw [hf] at h
          obtain ⟨later, hlater, rfl⟩ := Option.map_eq_some_iff.mp h
          exact List.cons_prefix_cons.mpr ⟨rfl, ih hlater⟩

/-- A run that stops early has stamped some first directories. -/
theorem plan_prefix {fault : List String × Stop} (h : plan machine t = .error fault) :
    fault.1 <+: platformDirs t.npm := by
  unfold plan at h
  cases hmain : t.main with
  | none =>
      rw [hmain] at h
      cases h
      exact List.nil_prefix
  | some pkg =>
      rw [hmain] at h
      simp only at h
      split at h
      · cases h
        exact List.nil_prefix
      · split at h
        · cases h
          exact List.nil_prefix
        · split at h
          · cases h
            exact List.nil_prefix
          · cases hfault : t.firstFault (platformDirs t.npm) with
            | some fault' =>
                rw [hfault] at h
                cases h
                exact firstFault_prefix hfault
            | none =>
                rw [hfault] at h
                simp only at h
                split at h
                · cases h
                · cases h
                  exact List.prefix_refl _

/-- **What a run has written wherever it stops.** Where everything is in its place it has stamped
    all six manifests, and only the sync of the lockfile can still fail. Otherwise it fails,
    package.json is untouched, and the platform manifests it has stamped are the first ones in the
    order of their names; it has written none where the version is none. -/
theorem stamp_outcome (machine : Machine) (argv : Option String) (t : Tree) :
    (∃ v mainPkg, argv = some v ∧ isVersion v = true ∧ Ready t mainPkg ∧
      (stampVersion machine argv).exec t =
        (lockSync machine (t.stamped v mainPkg), t.stamped v mainPkg)) ∨
    ∃ stop dirs, dirs <+: platformDirs t.npm ∧
      (stampVersion machine argv).exec t = (.error stop, t.stampAll (argv.getD "") dirs) ∧
      (isVersion (argv.getD "") = true → ∀ mainPkg, ¬ Ready t mainPkg) ∧
      (isVersion (argv.getD "") = false → dirs = []) := by
  cases hargv : isVersion (argv.getD "") with
  | false =>
      refine Or.inr ⟨failure (versionText argv), [], List.nil_prefix, ?_, nofun, fun _ => rfl⟩
      rw [stampVersion_invalid hargv, stampAll_nil]
  | true =>
      cases argv with
      | none => cases hargv
      | some v =>
          rw [Option.getD_some] at hargv
          rw [stampVersion_exec hargv, outcome]
          cases hplan : plan machine t with
          | ok mainPkg => exact Or.inl ⟨v, mainPkg, rfl, hargv, plan_ok_iff.mp hplan, rfl⟩
          | error fault =>
              obtain ⟨dirs, stop⟩ := fault
              refine Or.inr ⟨stop, dirs, plan_prefix hplan, rfl, fun _ mainPkg hready => ?_, nofun⟩
              rw [plan_ok_iff.mpr hready] at hplan
              cases hplan

/-! ### What the verifications say of it -/

theorem orException_ok {γ δ : Type} {value : Option γ} {f : γ → Except Stop δ} {r : δ} :
    (orException value >>= f) = .ok r ↔ ∃ a, value = some a ∧ f a = .ok r := by
  cases value with
  | none => exact ⟨nofun, nofun⟩
  | some a => exact ⟨fun h => ⟨a, rfl, h⟩, fun ⟨_, rfl, h⟩ => h⟩

theorem check_iff {ok : Bool} {message : String} : check ok message = .ok () ↔ ok = true := by
  cases ok with
  | false => exact ⟨nofun, nofun⟩
  | true => exact ⟨fun _ => rfl, fun _ => rfl⟩

theorem checkPins_ok {entries : List (String × String)} :
    checkPins v entries = .ok () ↔ ∀ entry ∈ entries, entry.2 = v := by
  unfold checkPins
  rw [Fallible.forM_ok]
  exact forall₂_congr fun entry _ => check_iff.trans beq_iff_eq

/-- The entry has a manifest that carries the version. -/
def Carries (v : String) (e : Entry) : Prop := ∃ p, e.manifest = some p ∧ p.version = some v

theorem checkPlatforms_ok {entries : List Entry} :
    checkPlatforms v entries = .ok () ↔ ∀ e ∈ entries, Carries v e := by
  unfold checkPlatforms
  rw [Fallible.forM_ok]
  refine forall₂_congr fun e _ => orException_ok.trans (exists_congr fun p => ?_)
  exact and_congr_right fun _ => check_iff.trans beq_iff_eq

theorem readdir_some (h : t.hasNpm = true) : readdir t = some t.npm := if_pos h

/-- A package.json with its version and its pins passes where npm/ does. -/
theorem verifyStamps_iff {main : PackageJson} {optDeps : Pins} (hmain : t.main = some main)
    (hversion : main.version = some v) (hdeps : main.optionalDependencies = some optDeps)
    (hpins : ∀ entry ∈ optDeps.members, entry.2 = v) (hnpm : t.hasNpm = true) :
    verifyStamps v t = .ok () ↔ ∀ e ∈ t.npm, Carries v e := by
  unfold verifyStamps
  simp only [orException_ok, Fallible.then_ok, check_iff, checkPins_ok, checkPlatforms_ok]
  constructor
  · intro ⟨_, _, _, _, _, _, npm, hread, hall⟩
    obtain rfl := Option.some.inj ((readdir_some hnpm).symm.trans hread)
    exact hall
  · intro hall
    exact ⟨main, hmain, beq_iff_eq.mpr hversion, optDeps, hdeps, hpins, t.npm,
      readdir_some hnpm, hall⟩

theorem verifyCommit_iff {main : PackageJson} (hmain : t.main = some main)
    (hversion : main.version = some v) (hpins : ∀ entry ∈ main.optDeps.members, entry.2 = v)
    (hfive : main.optDeps.members.length = 5) (hnpm : t.hasNpm = true) :
    verifyCommit v t = .ok () ↔ ∀ e ∈ t.npm, Carries v e := by
  unfold verifyCommit
  simp only [orException_ok, Fallible.then_ok, check_iff, checkPins_ok, checkPlatforms_ok]
  constructor
  · intro ⟨_, _, _, _, _, npm, hread, hall⟩
    obtain rfl := Option.some.inj ((readdir_some hnpm).symm.trans hread)
    exact hall
  · intro hall
    exact ⟨main, hmain, beq_iff_eq.mpr hversion, beq_iff_eq.mpr hfive, hpins, t.npm,
      readdir_some hnpm, hall⟩

theorem mem_platformDirs {npm : List Entry} {name : String} :
    name ∈ platformDirs npm ↔ ∃ e ∈ npm, e.directory = true ∧ e.name = name := by
  rw [platformDirs, (sort_perm _).mem_iff]
  simp [and_assoc]

theorem eq_of_name {e e' : Entry} (he : e ∈ t.npm) (he' : e' ∈ t.npm) (h : e.name = e'.name) :
    e = e' :=
  List.inj_on_of_nodup_map t.distinct he he' h

theorem manifestAt_of_mem {e : Entry} (he : e ∈ t.npm) : t.manifestAt e.name = e.manifest := by
  unfold Tree.manifestAt
  cases hfind : t.npm.find? (·.name == e.name) with
  | none => exact absurd (List.find?_eq_none.mp hfind e he) (by simp)
  | some e' =>
      have hname : e'.name = e.name := by simpa using List.find?_some hfind
      obtain rfl := eq_of_name (List.mem_of_find?_eq_some hfind) he hname
      rfl

theorem fault_of_firstFault (h : t.firstFault dirs = none) : ∀ dir ∈ dirs, t.fault dir = none := by
  induction dirs with
  | nil => exact nofun
  | cons dir dirs ih =>
      unfold Tree.firstFault at h
      cases hf : t.fault dir with
      | some stop => simp [hf] at h
      | none =>
          rw [hf] at h
          exact List.forall_mem_cons.mpr ⟨hf, ih (Option.map_eq_none_iff.mp h)⟩

/-- A platform directory that passes has a manifest. -/
theorem Ready.manifest {mainPkg : PackageJson} (h : Ready t mainPkg) {e : Entry} (he : e ∈ t.npm)
    (hdir : e.directory = true) : ∃ pkg, e.manifest = some pkg := by
  have hfault := fault_of_firstFault h.names e.name (mem_platformDirs.mpr ⟨e, he, hdir, rfl⟩)
  unfold Tree.fault at hfault
  rw [manifestAt_of_mem he] at hfault
  cases hm : e.manifest with
  | none => simp [hm] at hfault
  | some pkg => exact ⟨pkg, rfl⟩

/-- **In npm/, a run that gets to the end leaves to chance only what is no directory.** -/
theorem carries_stamped {mainPkg : PackageJson} (h : Ready t mainPkg) :
    (∀ e ∈ (t.stamped v mainPkg).npm, Carries v e) ↔
      ∀ e ∈ t.npm, e.directory = false → Carries v e := by
  show (∀ e ∈ t.npm.map (Entry.stampIn v (platformDirs t.npm)), Carries v e) ↔ _
  rw [List.forall_mem_map]
  refine forall₂_congr fun e he => ?_
  cases hdir : e.directory with
  | true =>
      obtain ⟨pkg, hpkg⟩ := h.manifest he hdir
      have hmem : e.name ∈ platformDirs t.npm := mem_platformDirs.mpr ⟨e, he, hdir, rfl⟩
      have hcarries : Carries v (e.stampIn v (platformDirs t.npm)) := by
        rw [Entry.stampIn, if_pos hmem]
        exact ⟨pkg.stamp v, by rw [Entry.stamp, hpkg]; rfl, rfl⟩
      simp [hcarries]
  | false =>
      have hmem : e.name ∉ platformDirs t.npm := by
        intro hmem
        obtain ⟨e', he', hdir', hname⟩ := mem_platformDirs.mp hmem
        obtain rfl := eq_of_name he' he hname
        rw [hdir] at hdir'
        cases hdir'
      rw [Entry.stampIn, if_neg hmem]
      simp

/-- All pins of a stamped package.json are the version, and there are five. -/
theorem Ready.stampMain {mainPkg : PackageJson} (h : Ready t mainPkg) :
    (∀ entry ∈ (mainPkg.stampMain v).optDeps.members, entry.2 = v) ∧
      (mainPkg.stampMain v).optDeps.members.length = 5 := by
  have hmembers : (mainPkg.stampMain v).optDeps.members = mainPkg.optDeps.members.map
      fun m => if m.1 ∈ mainPkg.optNames then (m.1, v) else m :=
    members_pinAll (optNames_subset mainPkg)
  rw [hmembers]
  constructor
  · rw [List.forall_mem_map]
    intro m hm
    have hkey : m.1 ∈ mainPkg.optNames :=
      (sort_perm _).mem_iff.mpr (List.mem_map_of_mem (f := Prod.fst) hm)
    rw [if_pos hkey]
  · have hlength : mainPkg.optNames.length = mainPkg.optDeps.members.length := by
      rw [PackageJson.optNames, (sort_perm _).length_eq, Pins.keys, List.length_map]
    rw [List.length_map, ← hlength, h.pins, List.length_map, h.count]

/-- **What a run that succeeds leaves passes both verifications**, that of the candidate and that of
    promotion, exactly where everything in npm/ that is no directory carries the version: there the
    script looks at directories only, and the verifications at everything. -/
theorem stamp_verified {argv : Option String} {t' : Tree}
    (h : (stampVersion machine argv).exec t = (.ok (), t')) : ∃ v, argv = some v ∧
      (verifyStamps v t' = .ok () ↔ ∀ e ∈ t.npm, e.directory = false → Carries v e) ∧
      (verifyCommit v t' = .ok () ↔ ∀ e ∈ t.npm, e.directory = false → Carries v e) := by
  rcases stamp_outcome machine argv t with ⟨v, mainPkg, rfl, -, hready, hexec⟩ | hstop
  · obtain rfl : t.stamped v mainPkg = t' := congrArg Prod.snd (hexec.symm.trans h)
    have hmain : (t.stamped v mainPkg).main = some (mainPkg.stampMain v) := rfl
    have hnpm : (t.stamped v mainPkg).hasNpm = true := hready.hasNpm
    obtain ⟨hpins, hfive⟩ := hready.stampMain (v := v)
    have hnames := carries_stamped (v := v) hready
    exact ⟨v, rfl, (verifyStamps_iff hmain rfl rfl hpins hnpm).trans hnames,
      (verifyCommit_iff hmain rfl hpins hfive hnpm).trans hnames⟩
  · obtain ⟨stop, dirs, -, hexec, -, -⟩ := hstop
    rw [hexec] at h
    cases congrArg Prod.fst h

end Plan

/-! ## 7. The repository -/

def platforms : List String :=
  ["darwin-arm64", "darwin-x64", "linux-arm64-gnu", "linux-x64-gnu", "win32-x64-msvc"]

/-- The directory of a platform package as the repository has it. -/
def platformEntry (dir : String) : Entry :=
  ⟨dir, true, some { name := wantName dir, version := "0.6.0" }⟩

/-- The pins of the repository. -/
def repositoryPins : Pins where
  members := platforms.reverse.map fun dir => (wantName dir, "0.6.0")
  distinct := by decide +kernel

/-- The repository, with these files beside the directories of npm/. -/
def repository (beside : List Entry) (distinct : (beside.map (·.name) ++ platforms).Nodup) :
    Tree where
  main := some
    { name := "@trueseal/sync", version := "0.6.0", optionalDependencies := repositoryPins }
  hasNpm := true
  npm := beside ++ platforms.map platformEntry
  distinct := by
    rw [List.map_append, List.map_map]
    exact (List.map_id platforms).symm ▸ distinct
  hasLock := true

/-- npm syncs the lockfile, and no text is printed. -/
def machine : Machine := ⟨fun _ => "", fun _ => true⟩

theorem last_stamp_wins_repository :
    (stampVersion machine (some "0.7.0")).exec
        ((stampVersion machine (some "0.6.1")).exec (repository [] (by decide))).2 =
      (stampVersion machine (some "0.7.0")).exec (repository [] (by decide)) :=
  last_stamp_wins machine (some "0.6.1") (repository [] (by decide)) (by decide +kernel)

/-- A file of npm/ beside the directories. -/
def readme : Entry := ⟨"README.md", false, none⟩

/-- The stamped repository passes; with a file beside the directories of npm/ the script succeeds
    all the same, and both verifications stop. -/
theorem stamp_verified_repository : ∃ t t',
    (stampVersion machine (some "0.7.0")).exec (repository [] (by decide)) = (.ok (), t) ∧
      verifyStamps "0.7.0" t = .ok () ∧ verifyCommit "0.7.0" t = .ok () ∧
    (stampVersion machine (some "0.7.0")).exec (repository [readme] (by decide)) = (.ok (), t') ∧
      verifyStamps "0.7.0" t' ≠ .ok () ∧ verifyCommit "0.7.0" t' ≠ .ok () := by
  have hexec : (stampVersion machine (some "0.7.0")).exec (repository [] (by decide)) =
      (.ok (), ((stampVersion machine (some "0.7.0")).exec (repository [] (by decide))).2) :=
    Prod.ext (by decide +kernel) rfl
  have hexec' : (stampVersion machine (some "0.7.0")).exec (repository [readme] (by decide)) =
      (.ok (), ((stampVersion machine (some "0.7.0")).exec (repository [readme] (by decide))).2) :=
    Prod.ext (by decide +kernel) rfl
  obtain ⟨v, hv, hstamps, hcommit⟩ := stamp_verified hexec
  obtain ⟨v', hv', hstamps', hcommit'⟩ := stamp_verified hexec'
  cases hv
  cases hv'
  have hdirs : ∀ e ∈ (repository [] (by decide)).npm, e.directory = false → Carries "0.7.0" e := by
    intro e he hdir
    obtain ⟨dir, -, rfl⟩ := List.mem_map.mp he
    cases hdir
  have hreadme : ¬ ∀ e ∈ (repository [readme] (by decide)).npm, e.directory = false →
      Carries "0.7.0" e := by
    intro hall
    obtain ⟨p, hp, -⟩ := hall readme List.mem_cons_self rfl
    cases hp
  exact ⟨_, _, hexec, hstamps.mpr hdirs, hcommit.mpr hdirs, hexec',
    fun h => hreadme (hstamps'.mp h), fun h => hreadme (hcommit'.mp h)⟩

end TrueSealSync.Release.Stamp
