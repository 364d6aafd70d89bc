/-
  File:      TrueSealSync/Release/Loader.lean
  Subject:   THE LOADER index.js: which native binding a process gets on any platform, and what it
             is told where it gets none.

  What Node.js does when a module is required is a parameter (`Node`): it may run any code, which may
  change the environment, and answer a value that counts as false. A variable of the environment
  that is empty counts as not set.

  * `attempts`, `index` -- the code, with the probes for musl;
  * `Own` -- a computation that throws Error objects of its own and leaves the older ones alone;
  * `reduceErrors_links` -- the loop over `loadErrors` makes one chain of causes of them;
  * `orWasi_outcome` -- what the second part of the module comes to;
  * `Explained`, `load_failure_explained` -- what the module throws where it throws: an error that
    leads to every recorded error, the last one first, or what a member of the binding has thrown;
  * `index_agrees` -- on the supported hosts the loader of the install check is this one.
-/
import Mathlib.Data.List.Chain
import TrueSealSync.Release.Install
import TrueSealSync.Sdk.Errors

namespace TrueSealSync.Release.Loader

open TrueSealSync.Lib
open TrueSealSync.Lib.NodePackage (Content manifestIn)
open TrueSealSync.Sdk (JsVal Js ErrorObject Heap createError throwNew)

/-! ## 1. The machine -/

/-- What a call of `require` names: a file beside the loader, a package `@trueseal/sync-<name>`, or
    a path. -/
inductive Module where
  | beside (file : String)
  | package (name : String)
  | at (path : Path)
  deriving DecidableEq

/-- Of the diagnostic report of the process, what the probe for musl reads. -/
structure Report where
  glibcVersionRuntime : Bool
  sharedObjects : Option (List Text)

/-- The process the loader runs in. -/
structure Machine where
  platform : String
  arch : String
  /-- `/usr/bin/ldd`; `none` where it cannot be read -/
  lddFile : Option Text
  report : Option Report
  /-- what `ldd --version` prints; `none` where it fails -/
  lddVersion : Option Text
  shlibSuffix : Option String
  nodeTargetType : Option String

/-- The variables of `process.env` the loader reads. -/
structure Environment where
  nativeLibraryPath : Option Path
  enforceVersionCheck : Option String
  forceWasi : Option String

/-- What Node.js does for the loader: `process.env`; whether a binding counts as true; `require` of
    a binding, the read of `require('<package>/package.json').version`, a value in a template, and
    `v.cause = cause` for a `v` that is an object but no error; the read and the assignment of a
    member of a binding. Each of these may run code of the modules. -/
structure Node (β υ : Type) where
  env : υ → Environment
  truthy : β → Bool
  require : Module → Js (Sdk.Host υ) β
  version : String → Js (Sdk.Host υ) JsVal
  text : JsVal → Js (Sdk.Host υ) String
  assignCause : JsVal → JsVal → Js (Sdk.Host υ) PUnit
  get : β → String → Js (Sdk.Host υ) JsVal
  assign : β → String → JsVal → Js (Sdk.Host υ) PUnit

section Machine

variable (machine : Machine)

def isFileMusl (f : Text) : Bool :=
  occursIn "libc.musl-".toList f || occursIn "ld-musl-".toList f

def isMuslFromFilesystem : Option Bool := machine.lddFile.map (occursIn "musl".toList)

def isMuslFromReport : Option Bool :=
  machine.report.map fun report =>
    if report.glibcVersionRuntime then false else (report.sharedObjects.getD []).any isFileMusl

def isMuslFromChildProcess : Bool := (machine.lddVersion.map (occursIn "musl".toList)).getD false

def isMusl : Bool :=
  if machine.platform = "linux" then
    ((isMuslFromFilesystem machine).or (isMuslFromReport machine)).getD
      (isMuslFromChildProcess machine)
  else false

/-- Node.js itself was built with MinGW. -/
def mingw : Bool :=
  machine.shlibSuffix == some "dll.a" || machine.nodeTargetType == some "shared_library"

/-! ## 2. What is tried -/

/-- One entry of the search: a `require`, a platform package with its version check, or the error
    for a platform without a binary. -/
inductive Attempt where
  | require (m : Module)
  | platformPackage (variant : String)
  | unsupported (message : String)

/-- The file beside the loader, then the package. -/
def variant (name : String) : List Attempt :=
  [.require (.beside ("trueseal-sync-ts." ++ name ++ ".node")), .platformPackage name]

/-- The branches of `requireNative`. -/
def attempts (nativeLibraryPath : Option Path) : List Attempt :=
  match nativeLibraryPath with
  | some path => [.require (.at path)]
  | none =>
      if machine.platform = "android" then
        if machine.arch = "arm64" then variant "android-arm64"
        else if machine.arch = "arm" then variant "android-arm-eabi"
        else [.unsupported ("Unsupported architecture on Android " ++ machine.arch)]
      else if machine.platform = "win32" then
        if machine.arch = "x64" then
          if mingw machine then variant "win32-x64-gnu" else variant "win32-x64-msvc"
        else if machine.arch = "ia32" then variant "win32-ia32-msvc"
        else if machine.arch = "arm64" then variant "win32-arm64-msvc"
        else [.unsupported ("Unsupported architecture on Windows: " ++ machine.arch)]
      else if machine.platform = "darwin" then
        variant "darwin-universal" ++
          if machine.arch = "x64" then variant "darwin-x64"
          else if machine.arch = "arm64" then variant "darwin-arm64"
          else [.unsupported ("Unsupported architecture on macOS: " ++ machine.arch)]
      else if machine.platform = "freebsd" then
        if machine.arch = "x64" then variant "freebsd-x64"
        else if machine.arch = "arm64" then variant "freebsd-arm64"
        else [.unsupported ("Unsupported architecture on FreeBSD: " ++ machine.arch)]
      else if machine.platform = "linux" then
        if machine.arch = "x64" then
          if isMusl machine then variant "linux-x64-musl" else variant "linux-x64-gnu"
        else if machine.arch = "arm64" then
          if isMusl machine then variant "linux-arm64-musl" else variant "linux-arm64-gnu"
        else if machine.arch = "arm" then
          if isMusl machine then variant "linux-arm-musleabihf" else variant "linux-arm-gnueabihf"
        else if machine.arch = "loong64" then
          if isMusl machine then variant "linux-loong64-musl" else variant "linux-loong64-gnu"
        else if machine.arch = "riscv64" then
          if isMusl machine then variant "linux-riscv64-musl" else variant "linux-riscv64-gnu"
        else if machine.arch = "ppc64" then variant "linux-ppc64-gnu"
        else if machine.arch = "s390x" then variant "linux-s390x-gnu"
        else [.unsupported ("Unsupported architecture on Linux: " ++ machine.arch)]
      else if machine.platform = "openharmony" then
        if machine.arch = "arm64" then variant "openharmony-arm64"
        else if machine.arch = "x64" then variant "openharmony-x64"
        else if machine.arch = "arm" then variant "openharmony-arm"
        else [.unsupported ("Unsupported architecture on OpenHarmony: " ++ machine.arch)]
      else
        [.unsupported
          ("Unsupported OS: " ++ machine.platform ++ ", architecture: " ++ machine.arch)]

end Machine

/-! ## 3. The code -/

section Source

variable {β υ : Type} (node : Node β υ) (machine : Machine)

/-- `process.env`, as it is now. -/
def Node.environment (w : Sdk.Host υ) : Environment := node.env w.rest

/-- `process.env.NAPI_RS_FORCE_WASI` counts as true. -/
def Node.asked (w : Sdk.Host υ) : Bool := (node.environment w).forceWasi.isSome

/-- `NAPI_RS_ENFORCE_VERSION_CHECK` is set, and not to `0`. -/
def enforced (env : Environment) : Bool := env.enforceVersionCheck.any (· != "0")

/-- The text of the Error for a platform package of another version. -/
def mismatchText (version : String) : String :=
  "Native binding package version mismatch, expected 0.6.0 but got " ++ version ++
    ". You can reinstall dependencies to fix this issue."

/-- The body of one `try`. -/
def Attempt.run : Attempt → Js (Sdk.Host υ) β
  | .require m => node.require m
  | .platformPackage name => do
      let binding ← node.require (.package name)
      let bindingPackageVersion ← node.version name
      if bindingPackageVersion ≠ .string "0.6.0" ∧ enforced (node.environment (← get)) = true then
        throwNew (createError (mismatchText (← node.text bindingPackageVersion)))
      else
        return binding
  | .unsupported message => throwNew (createError message)

/-- `requireNative`: what it pushes to `loadErrors`, and the binding. -/
def requireNative : Js (Sdk.Host υ) (List JsVal × Option β) := do
  let env := node.environment (← get)
  Throwing.firstOf (Attempt.run node) (attempts machine env.nativeLibraryPath)

/-- The text of the TypeError for `null.cause = ..`. -/
def nullishText (text : String) : String :=
  "Cannot set properties of " ++ text ++ " (setting 'cause')"

/-- `v.cause = cause`, outside strict mode: a primitive value drops it. -/
def setCause (v cause : JsVal) : Js (Sdk.Host υ) PUnit := do
  let w ← get
  match v with
  | .undefined => throwNew (createError (nullishText "undefined"))
  | .null => throwNew (createError (nullishText "null"))
  | .object r =>
      match w.heap.errors r with
      | some _ => set { w with heap := w.heap.setProperty r "cause" cause }
      | none => node.assignCause v cause
  | .function _ => node.assignCause v cause
  | .boolean _ | .number _ | .bigint _ | .string _ | .symbol _ => pure ⟨⟩

/-- `if (!v)` is not taken. -/
def truthy : JsVal → Bool
  | .undefined | .null | .number .nan => false
  | .boolean b => b
  | .number (.fin _ m _ _) => m != 0
  | .bigint n => n != 0
  | .string s => s != ""
  | .number (.inf _) | .symbol _ | .object _ | .function _ => true

/-- The text of the Error where `NAPI_RS_FORCE_WASI` is `error`. -/
def wasiText : String := "WASI binding not found and NAPI_RS_FORCE_WASI is set to error"

/-- The variables of the module; of a binding, `none` is `null` and `undefined`. -/
structure Loading (β : Type) where
  nativeBinding : Option β
  wasiBinding : Option β := none
  wasiBindingError : JsVal := .null
  loadErrors : List JsVal

/-- `wasiBinding = require(..)` and `nativeBinding = wasiBinding`. -/
def Loading.load (v : Loading β) (binding : β) : Loading β :=
  { v with nativeBinding := some binding, wasiBinding := some binding }

/-- `require('./trueseal-sync-ts.wasi.cjs')`. -/
def wasiBeside (v : Loading β) : Js (Sdk.Host υ) (Loading β) := do
  match ← Throwing.attempt (node.require (.beside "trueseal-sync-ts.wasi.cjs")) with
  | .ok binding => return v.load binding
  | .error err =>
      if node.asked (← get) then return { v with wasiBindingError := err } else return v

/-- `require('@trueseal/sync-wasm32-wasi')`. -/
def wasiPackage (v : Loading β) : Js (Sdk.Host υ) (Loading β) := do
  if !v.nativeBinding.any node.truthy || node.asked (← get) then
    match ← Throwing.attempt (node.require (.package "wasm32-wasi")) with
    | .ok binding => return v.load binding
    | .error err =>
        if node.asked (← get) then
          if truthy v.wasiBindingError then
            setCause node v.wasiBindingError err
            return { v with loadErrors := v.loadErrors ++ [err] }
          else
            return { v with wasiBindingError := err, loadErrors := v.loadErrors ++ [err] }
        else return v
  else return v

/-- The check that the wasm build was loaded where the variable is `error`. -/
def wasiRequired (v : Loading β) : Js (Sdk.Host υ) PUnit := do
  if (node.environment (← get)).forceWasi = some "error" ∧
      v.wasiBinding.any node.truthy = false then
    throwNew ((createError wasiText).setNamedProperty "cause" v.wasiBindingError)

/-- The second part of index.js: the wasm build where it is needed or asked for. -/
def orWasi (v : Loading β) : Js (Sdk.Host υ) (Loading β) := do
  if !v.nativeBinding.any node.truthy || node.asked (← get) then
    let v ← wasiBeside node v
    let v ← wasiPackage node v
    wasiRequired node v
    return v
  else return v

/-- `loadErrors.reduce((err, cur) => { cur.cause = err; return cur })`, from `err` on. -/
def reduceErrors : JsVal → List JsVal → Js (Sdk.Host υ) JsVal
  | err, [] => pure err
  | err, cur :: rest => do
      setCause node cur err
      reduceErrors cur rest

/-- The text of the Error where no binding was found. -/
def notFoundText : String :=
  "Cannot find native binding. " ++
    "npm has a bug related to optional dependencies (https://github.com/npm/cli/issues/4828). " ++
    "Please try \u0060npm i\u0060 again after removing both package-lock.json and node_modules " ++
    "directory."

/-- The text where nothing is in `loadErrors`. -/
def failedText : String := "Failed to load native binding"

/-- The end of the module where no binding was found. -/
def notFound {α : Type} : List JsVal → Js (Sdk.Host υ) α
  | [] => throwNew (createError failedText)
  | err :: rest => do
      let cause ← reduceErrors node err rest
      throwNew ((createError notFoundText).setNamedProperty "cause" cause)

/-- The members the module assigns to its exports. -/
def exportNames : List String :=
  ["CoreSession", "parseRelayAddress", "truesealInfo", "truesealMaxGroupSize",
    "truesealMaxPayloadBytes", "version"]

/-- `module.exports.CoreSession = nativeBinding.CoreSession` and so on; `module.exports` is
    `nativeBinding`. -/
def reexport (nativeBinding : β) : Js (Sdk.Host υ) PUnit :=
  exportNames.forM fun name => do node.assign nativeBinding name (← node.get nativeBinding name)

/-- The end of the module. -/
def exported (v : Loading β) : Js (Sdk.Host υ) β :=
  match v.nativeBinding.filter node.truthy with
  | some nativeBinding => do
      reexport node nativeBinding
      return nativeBinding
  | none => notFound node v.loadErrors

/-- The search, in both its parts. -/
def search : Js (Sdk.Host υ) (Loading β) := do
  let (loadErrors, nativeBinding) ← requireNative node machine
  orWasi node { nativeBinding, loadErrors }

/-- index.js. -/
def index : Js (Sdk.Host υ) β := do exported node (← search node machine)

end Source

/-! ## 4. Errors of its own -/

section Errors

variable {α β υ : Type} {w w₁ w₂ w' : Sdk.Host υ}

/-- The errors there are stay what they are. -/
structure Kept (w w' : Sdk.Host υ) : Prop where
  next : w.heap.next ≤ w'.heap.next
  errors : ∀ r < w.heap.next, w'.heap.errors r = w.heap.errors r

/-- `refs` are error objects made between `w` and `w'`, in this order. -/
structure NewErrors (w w' : Sdk.Host υ) (refs : List Nat) : Prop where
  ordered : refs.Pairwise (· < ·)
  made : ∀ r ∈ refs, w.heap.next ≤ r ∧ ∃ o, w'.heap.errors r = some o

/-- The computation leaves the errors there are alone, and what it throws is a new one. -/
structure Own (c : Js (Sdk.Host υ) α) : Prop where
  keeps : Throwing.Preserves Kept c
  throws : ∀ {w e w'}, c.exec w = (.error e, w') → ∃ r, e = .object r ∧ NewErrors w w' [r]

theorem Kept.refl (w : Sdk.Host υ) : Kept w w := ⟨Nat.le_refl _, fun _ _ => rfl⟩

theorem Kept.trans (u v w : Sdk.Host υ) (h : Kept u v) (h' : Kept v w) : Kept u w :=
  ⟨h.next.trans h'.next, fun r hr =>
    (h'.errors r (Nat.lt_of_lt_of_le hr h.next)).trans (h.errors r hr)⟩

theorem kept_push (w : Sdk.Host υ) (o : ErrorObject) : Kept w (w.push o) :=
  ⟨Nat.le_succ _, fun _ hr => Function.update_of_ne (Nat.ne_of_lt hr) _ _⟩

/-- An object of the heap lies below `next`. -/
theorem lt_next {r : Nat} {o : ErrorObject} (h : w.heap.errors r = some o) : r < w.heap.next := by
  by_contra hr
  rw [w.heap.fresh r (Nat.le_of_not_lt hr)] at h
  cases h

/-- What was made stays made. -/
theorem NewErrors.later {refs : List Nat} (h : NewErrors w w₁ refs) (hk : Kept w₁ w₂) :
    NewErrors w w₂ refs := by
  refine ⟨h.ordered, fun r hr => ?_⟩
  obtain ⟨hle, o, ho⟩ := h.made r hr
  exact ⟨hle, o, (hk.errors r (lt_next ho)).trans ho⟩

/-- What is made later comes later. -/
theorem NewErrors.append {refs refs' : List Nat} (h : NewErrors w w₁ refs) (hw : Kept w w₁)
    (hk : Kept w₁ w₂) (h' : NewErrors w₁ w₂ refs') : NewErrors w w₂ (refs ++ refs') := by
  refine ⟨List.pairwise_append.mpr ⟨h.ordered, h'.ordered, fun r hr r' hr' => ?_⟩, fun r hr => ?_⟩
  · obtain ⟨-, o, ho⟩ := h.made r hr
    exact Nat.lt_of_lt_of_le (lt_next ho) (h'.made r' hr').1
  · rcases List.mem_append.mp hr with hr | hr
    · exact (h.later hk).made r hr
    · obtain ⟨hle, ho⟩ := h'.made r hr
      exact ⟨hw.next.trans hle, ho⟩

theorem own_pure (a : α) : Own (pure a : Js (Sdk.Host υ) α) :=
  ⟨Throwing.preserves_pure Kept.refl a, nofun⟩

theorem own_get : Own (get : Js (Sdk.Host υ) (Sdk.Host υ)) := ⟨fun w => Kept.refl w, nofun⟩

theorem own_throwNew (o : ErrorObject) : Own (throwNew o : Js (Sdk.Host υ) α) := by
  refine ⟨fun w => kept_push w o, fun {w e w'} h => ?_⟩
  obtain ⟨he, rfl⟩ := Prod.mk.inj h
  exact ⟨w.heap.next, (Except.error.inj he).symm, List.pairwise_singleton _ _, fun r hr => by
    rw [List.mem_singleton.mp hr]
    exact ⟨Nat.le_refl _, o, Sdk.Heap.errors_push_self ..⟩⟩

theorem own_bind {c : Js (Sdk.Host υ) α} {f : α → Js (Sdk.Host υ) β} (hc : Own c)
    (hf : ∀ a, Own (f a)) : Own (c >>= f) := by
  refine ⟨Throwing.preserves_bind Kept.trans hc.keeps fun a => (hf a).keeps, fun {w e w'} h => ?_⟩
  have hk := hc.keeps w
  rw [Throwing.exec_bind] at h
  rcases hrun : c.exec w with ⟨e₁ | a, w₁⟩
  · rw [hrun] at h
    obtain ⟨he, rfl⟩ := Prod.mk.inj h
    rw [← Except.error.inj he]
    exact hc.throws hrun
  · rw [hrun] at h hk
    obtain ⟨r, he, hnew⟩ := (hf a).throws h
    exact ⟨r, he, hnew.ordered, fun r' hr' =>
      ⟨hk.next.trans (hnew.made r' hr').1, (hnew.made r' hr').2⟩⟩

/-- **The errors of a search are all its own**, in the order in which they were thrown. -/
theorem tried_own {γ : Type} {c : γ → Js (Sdk.Host υ) α} (hc : ∀ a, Own (c a)) {l : List γ}
    {es : List JsVal} {found : Option α} (h : Throwing.Tried c l w es found w') :
    Kept w w' ∧ ∃ refs : List Nat, es = refs.map .object ∧ NewErrors w w' refs := by
  induction h with
  | exhausted w => exact ⟨Kept.refl w, [], rfl, List.Pairwise.nil, nofun⟩
  | @answered a l b w w' h =>
      have hk := (hc a).keeps w
      rw [h] at hk
      exact ⟨hk, [], rfl, List.Pairwise.nil, nofun⟩
  | @threw a l e es found w w₁ w' h rest ih =>
      obtain ⟨hk', refs, rfl, hnew⟩ := ih
      obtain ⟨r, rfl, hr⟩ := (hc a).throws h
      have hk := (hc a).keeps w
      rw [h] at hk
      exact ⟨hk.trans _ _ _ hk', r :: refs, rfl, hr.append hk hk' hnew⟩

end Errors

/-! ## 5. The chain of causes -/

section Causes

variable {α β υ : Type} (node : Node β υ) {w w' w₁ : Sdk.Host υ}

/-- `err.cause` is `cause`. -/
def CausedBy (w : Sdk.Host υ) (err cause : JsVal) : Prop :=
  ∃ r o, err = .object r ∧ w.heap.errors r = some o ∧ o.own "cause" = some cause

/-- The message of an error object. -/
def HasMessage (w : Sdk.Host υ) (err : JsVal) (text : String) : Prop :=
  ∃ r o, err = .object r ∧ w.heap.errors r = some o ∧ o.own "message" = some (.string text)

/-- The errors of `w` are there in `w'`, and differ in their `cause` only. -/
def SameButCause (w w' : Sdk.Host υ) : Prop :=
  ∀ r o, w.heap.errors r = some o → ∃ o', w'.heap.errors r = some o' ∧ o'.proto = o.proto ∧
    ∀ key, key ≠ "cause" → o'.own key = o.own key

theorem SameButCause.trans (u v w : Sdk.Host υ) (h : SameButCause u v) (h' : SameButCause v w) :
    SameButCause u w := by
  intro r o ho
  obtain ⟨o₁, ho₁, hproto₁, hown₁⟩ := h r o ho
  obtain ⟨o₂, ho₂, hproto₂, hown₂⟩ := h' r o₁ ho₁
  exact ⟨o₂, ho₂, hproto₂.trans hproto₁, fun key hkey => (hown₂ key hkey).trans (hown₁ key hkey)⟩

theorem Kept.sameButCause (h : Kept w w') : SameButCause w w' := fun r o ho =>
  ⟨o, (h.errors r (lt_next ho)).trans ho, rfl, fun _ _ => rfl⟩

theorem Kept.causedBy (h : Kept w w') {err cause : JsVal} (hc : CausedBy w err cause) :
    CausedBy w' err cause := by
  obtain ⟨r, o, rfl, ho, hcause⟩ := hc
  exact ⟨r, o, rfl, (h.errors r (lt_next ho)).trans ho, hcause⟩

/-- The host after `cur.cause = err` for two objects. -/
def linked (w : Sdk.Host υ) (cur err : Nat) : Sdk.Host υ :=
  { w with heap := w.heap.setProperty cur "cause" (.object err) }

theorem setCause_exec {cur err : Nat} {o : ErrorObject} (h : w.heap.errors cur = some o) :
    (setCause node (.object cur) (.object err)).exec w = (.ok ⟨⟩, linked w cur err) := by
  unfold setCause
  rw [Throwing.exec_bind, Throwing.exec_get]
  simp only [h]
  rfl

theorem linked_self {cur err : Nat} {o : ErrorObject} (h : w.heap.errors cur = some o) :
    (linked w cur err).heap.errors cur = some (o.setNamedProperty "cause" (.object err)) := by
  show Function.update w.heap.errors cur _ cur = _
  rw [Function.update_self, h]
  rfl

theorem linked_of_ne {cur err r : Nat} (h : r ≠ cur) :
    (linked w cur err).heap.errors r = w.heap.errors r := Function.update_of_ne h _ _

theorem linked_there {cur err r : Nat} {o : ErrorObject} (h : w.heap.errors r = some o) :
    ∃ o', (linked w cur err).heap.errors r = some o' := by
  by_cases hr : r = cur
  · rw [hr] at h ⊢
    exact ⟨_, linked_self h⟩
  · exact ⟨o, (linked_of_ne hr).trans h⟩

theorem linked_sameButCause (w : Sdk.Host υ) (cur err : Nat) :
    SameButCause w (linked w cur err) := by
  intro r o ho
  by_cases hr : r = cur
  · rw [hr] at ho ⊢
    refine ⟨_, linked_self ho, rfl, fun key hkey => ?_⟩
    rw [ErrorObject.own_set, if_neg hkey]
  · exact ⟨o, (linked_of_ne hr).trans ho, rfl, fun _ _ => rfl⟩

/-- **The loop over `loadErrors` links them**: it answers the last error, every error has the one
    before it as its cause, and nothing else changes. -/
theorem reduceErrors_links {first : Nat} {refs : List Nat} (hord : (first :: refs).Pairwise (· < ·))
    (hthere : ∀ r ∈ first :: refs, ∃ o, w.heap.errors r = some o) :
    ∃ last w', (reduceErrors node (.object first) (refs.map .object)).exec w =
        (.ok (.object last), w') ∧ (first :: refs).getLast? = some last ∧
      ((first :: refs).map JsVal.object).IsChain (fun err cur => CausedBy w' cur err) ∧
      SameButCause w w' ∧ ∀ r ∉ refs, w'.heap.errors r = w.heap.errors r := by
  induction refs generalizing first w with
  | nil =>
      exact ⟨first, w, rfl, rfl, List.isChain_singleton _, (Kept.refl w).sameButCause,
        fun _ _ => rfl⟩
  | cons cur rest ih =>
      obtain ⟨hfirst, hord⟩ := List.pairwise_cons.mp hord
      obtain ⟨o, ho⟩ := hthere cur (by simp)
      have hthere' : ∀ r ∈ cur :: rest, ∃ o', (linked w cur first).heap.errors r = some o' := by
        intro r hr
        obtain ⟨or, hor⟩ := hthere r (List.mem_cons_of_mem _ hr)
        exact linked_there hor
      obtain ⟨last, w', hrun, hlast, hchain, hsame, hframe⟩ := ih hord hthere'
      have hcur : cur ∉ rest := fun h => Nat.lt_irrefl _ ((List.pairwise_cons.mp hord).1 cur h)
      refine ⟨last, w', ?_, by rw [List.getLast?_cons_cons, hlast], ?_,
        (linked_sameButCause w cur first).trans _ _ _ hsame, fun r hr => ?_⟩
      · show (setCause node (.object cur) (.object first) >>= fun _ =>
          reduceErrors node (.object cur) (rest.map .object)).exec w = _
        rw [Throwing.exec_bind, setCause_exec node ho]
        exact hrun
      · -- the rest of the loop does not come back to `cur`
        refine List.isChain_cons_cons.mpr
          ⟨⟨cur, _, rfl, (hframe cur hcur).trans (linked_self ho), ?_⟩, hchain⟩
        rw [ErrorObject.own_set, if_pos rfl]
      · obtain ⟨hne, hr⟩ := not_or.mp (mt List.mem_cons.mpr hr)
        exact (hframe r hr).trans (linked_of_ne hne)

/-- A new Error with a cause. -/
def errorWith (text : String) (cause : JsVal) : ErrorObject :=
  (createError text).setNamedProperty "cause" cause

theorem errorWith_thrown (w : Sdk.Host υ) (text : String) (cause : JsVal) :
    HasMessage (w.push (errorWith text cause)) (.object w.heap.next) text ∧
      CausedBy (w.push (errorWith text cause)) (.object w.heap.next) cause :=
  ⟨⟨_, _, rfl, Sdk.Heap.errors_push_self .., rfl⟩, ⟨_, _, rfl, Sdk.Heap.errors_push_self .., rfl⟩⟩

/-- The text of the error where no binding was found. -/
def missingText : List JsVal → String
  | [] => failedText
  | _ :: _ => notFoundText

/-- **The end of the module**: the error thrown leads to all of `loadErrors`, the last one first. -/
theorem notFound_exec {refs : List Nat} (hord : refs.Pairwise (· < ·))
    (hthere : ∀ r ∈ refs, ∃ o, w.heap.errors r = some o) :
    ∃ err w', (notFound node (refs.map .object) : Js (Sdk.Host υ) α).exec w = (.error err, w') ∧
      HasMessage w' err (missingText (refs.map .object)) ∧
      (err :: (refs.map JsVal.object).reverse).IsChain (CausedBy w') ∧ SameButCause w w' := by
  cases refs with
  | nil =>
      exact ⟨.object w.heap.next, _, rfl, ⟨_, _, rfl, Sdk.Heap.errors_push_self .., rfl⟩,
        List.isChain_singleton _, (kept_push w _).sameButCause⟩
  | cons first rest =>
      obtain ⟨last, w₁, hrun, hlast, hchain, hsame, -⟩ := reduceErrors_links node hord hthere
      have hkept : Kept w₁ (w₁.push (errorWith notFoundText (.object last))) := kept_push ..
      obtain ⟨htext, hcause⟩ := errorWith_thrown w₁ notFoundText (.object last)
      refine ⟨.object w₁.heap.next, _, ?_, htext, ?_, hsame.trans _ _ _ hkept.sameButCause⟩
      · show (reduceErrors node (.object first) (rest.map .object) >>= fun cause =>
          throwNew (errorWith notFoundText cause)).exec w = _
        rw [Throwing.exec_bind, hrun]
        rfl
      · have hreverse := (List.isChain_reverse.mpr hchain).imp fun _ _ h => hkept.causedBy h
        refine List.isChain_cons.mpr ⟨fun cause hc => ?_, hreverse⟩
        rw [List.head?_reverse, List.getLast?_map, hlast] at hc
        obtain rfl := Option.some.inj hc
        exact hcause

end Causes

/-! ## 6. The second part of the module -/

/-- What Node.js documents of `require`: a failure is an Error made for it, and the errors thrown
    before are left alone. -/
structure Node.OwnErrors {β υ : Type} (node : Node β υ) : Prop where
  require : ∀ m, Own (node.require m)
  version : ∀ name, Own (node.version name)
  text : ∀ v, Own (node.text v)

section Wasi

variable {β υ : Type} {node : Node β υ} {w w₁ w₂ : Sdk.Host υ}

/-- What the loader keeps of a failed `require` of the wasm build: the error, where the variable is
    set by then. -/
def recorded (asked : Bool) : Except JsVal β → List JsVal
  | .ok _ => []
  | .error err => if asked then [err] else []

/-- The host after `wasiBindingError.cause = err`, where both failures are kept. -/
def relinked (w : Sdk.Host υ) : List JsVal → List JsVal → Sdk.Host υ
  | [.object r₁], [.object r₂] => linked w r₁ r₂
  | _, _ => w

theorem relinked_nil (w : Sdk.Host υ) (es : List JsVal) : relinked w es [] = w := by
  unfold relinked
  split
  · rename_i he
    cases he
  · rfl

theorem environment_relinked (w : Sdk.Host υ) (es es' : List JsVal) :
    node.environment (relinked w es es') = node.environment w := by
  unfold relinked
  split <;> rfl

theorem sameButCause_relinked (w : Sdk.Host υ) (es es' : List JsVal) :
    SameButCause w (relinked w es es') := by
  unfold relinked
  split
  · exact linked_sameButCause w _ _
  · exact (Kept.refl w).sameButCause

/-- What is kept is nothing, or one error of its own. -/
theorem recorded_cases {c : Js (Sdk.Host υ) β} (hc : Own c) {o : Except JsVal β}
    (h : c.exec w = (o, w₁)) (asked : Bool) : recorded asked o = [] ∨
      ∃ r, recorded asked o = [.object r] ∧ NewErrors w w₁ [r] := by
  cases o with
  | ok b => exact Or.inl rfl
  | error e =>
      obtain ⟨r, rfl, hr⟩ := hc.throws h
      cases asked with
      | false => exact Or.inl rfl
      | true => exact Or.inr ⟨r, rfl, hr⟩

theorem recorded_own {c : Js (Sdk.Host υ) β} (hc : Own c) {o : Except JsVal β}
    (h : c.exec w = (o, w₁)) (asked : Bool) :
    Kept w w₁ ∧ ∃ refs : List Nat, recorded asked o = refs.map .object ∧ NewErrors w w₁ refs := by
  have hk := hc.keeps w
  rw [h] at hk
  rcases recorded_cases hc h asked with hnone | ⟨r, hone, hnew⟩
  · exact ⟨hk, [], hnone, List.Pairwise.nil, nofun⟩
  · exact ⟨hk, [r], hone, hnew⟩

theorem wasiBeside_exec {o : Except JsVal β}
    (h : (node.require (.beside "trueseal-sync-ts.wasi.cjs")).exec w = (o, w₁))
    (native : Option β) (es : List JsVal) :
    (wasiBeside node ⟨native, none, .null, es⟩).exec w = (.ok ⟨o.toOption.or native, o.toOption,
      (recorded (node.asked w₁) o).head?.getD .null, es⟩, w₁) := by
  unfold wasiBeside
  rw [Throwing.exec_bind, Throwing.exec_attempt, h]
  cases o with
  | ok b => rfl
  | error err =>
      simp only [Throwing.exec_bind, Throwing.exec_get, recorded]
      cases node.asked w₁ <;> rfl

/-- The `require` of the package: `kept` is what was kept of the file beside the loader. -/
theorem wasiPackage_exec (hpackage : Own (node.require (.package "wasm32-wasi")))
    {o : Except JsVal β} (h : (node.require (.package "wasm32-wasi")).exec w = (o, w₁))
    {v : Loading β} (hneeded : (!v.nativeBinding.any node.truthy || node.asked w) = true)
    {kept : List JsVal} (hv : v.wasiBindingError = kept.head?.getD .null)
    (hkept : kept = [] ∨ ∃ r obj, kept = [.object r] ∧ w₁.heap.errors r = some obj) :
    (wasiPackage node v).exec w = (.ok ⟨o.toOption.or v.nativeBinding, o.toOption.or v.wasiBinding,
      (kept ++ recorded (node.asked w₁) o).head?.getD .null,
      v.loadErrors ++ recorded (node.asked w₁) o⟩, relinked w₁ kept (recorded (node.asked w₁) o)) := by
  unfold wasiPackage
  rw [Throwing.exec_bind, Throwing.exec_get]
  simp only [hneeded, if_true]
  rw [Throwing.exec_bind, Throwing.exec_attempt, h]
  cases o with
  | ok b =>
      simp only [recorded, List.append_nil, relinked_nil, ← hv]
      rfl
  | error err =>
      obtain ⟨r, rfl, -⟩ := hpackage.throws h
      simp only [Throwing.exec_bind, Throwing.exec_get, recorded]
      cases node.asked w₁ with
      | false =>
          simp only [Bool.false_eq_true, if_false, List.append_nil, relinked_nil, ← hv]
          rfl
      | true =>
          rcases hkept with rfl | ⟨r₁, obj, rfl, hobj⟩
          · simp only [if_true, hv]
            rfl
          · simp only [if_true, hv, List.head?_cons, Option.getD_some, truthy, Throwing.exec_bind,
              setCause_exec node hobj]
            rfl

/-- Where a binding is there and the variable is not set, the package is not required. -/
theorem wasiPackage_skip {v : Loading β} (hv : v.nativeBinding.any node.truthy = true)
    (hasked : node.asked w = false) : (wasiPackage node v).exec w = (.ok v, w) := by
  unfold wasiPackage
  rw [Throwing.exec_bind, Throwing.exec_get]
  simp only [hv, hasked]
  rfl

theorem wasiRequired_exec (v : Loading β) (w : Sdk.Host υ) : (wasiRequired node v).exec w =
    if (node.environment w).forceWasi = some "error" ∧ v.wasiBinding.any node.truthy = false then
      (.error (.object w.heap.next), w.push (errorWith wasiText v.wasiBindingError))
    else (.ok ⟨⟩, w) := by
  unfold wasiRequired
  rw [Throwing.exec_bind, Throwing.exec_get]
  simp only
  split <;> rfl

/-- **What the second part of the module comes to**, from a host `w` on, with `native` and `es` from
    the first part. -/
inductive WasiOutcome (node : Node β υ) (native : Option β) (es : List JsVal) (w : Sdk.Host υ)
    (out : Except JsVal (Loading β) × Sdk.Host υ) : Prop
  /-- it is not needed -/
  | unneeded (loaded : native.any node.truthy = true) (unset : node.asked w = false)
      (h : out = (.ok ⟨native, none, .null, es⟩, w))
  /-- the file beside the loader was required, and was enough -/
  | beside (o : Except JsVal β) (w₁ : Sdk.Host υ)
      (needed : (!native.any node.truthy || node.asked w) = true)
      (run : (node.require (.beside "trueseal-sync-ts.wasi.cjs")).exec w = (o, w₁))
      (loaded : (o.toOption.or native).any node.truthy = true) (unset : node.asked w₁ = false)
      (h : out = (.ok ⟨o.toOption.or native, o.toOption, .null, es⟩, w₁))
  /-- so was the package -/
  | both (o₁ o₂ : Except JsVal β) (w₁ w₂ w₃ : Sdk.Host υ) (kept kept' : List JsVal)
      (needed : (!native.any node.truthy || node.asked w) = true)
      (run₁ : (node.require (.beside "trueseal-sync-ts.wasi.cjs")).exec w = (o₁, w₁))
      (again : (!(o₁.toOption.or native).any node.truthy || node.asked w₁) = true)
      (run₂ : (node.require (.package "wasm32-wasi")).exec w₁ = (o₂, w₂))
      (hkept : kept = recorded (node.asked w₁) o₁) (hkept' : kept' = recorded (node.asked w₂) o₂)
      (world : w₃ = relinked w₂ kept kept')
      (h : out = if (node.environment w₂).forceWasi = some "error" ∧
          (o₂.toOption.or o₁.toOption).any node.truthy = false then
        (.error (.object w₃.heap.next),
          w₃.push (errorWith wasiText ((kept ++ kept').head?.getD .null)))
      else (.ok ⟨o₂.toOption.or (o₁.toOption.or native), o₂.toOption.or o₁.toOption,
        (kept ++ kept').head?.getD .null, es ++ kept'⟩, w₃))

theorem orWasi_outcome (hnode : node.OwnErrors) (native : Option β) (es : List JsVal)
    (w : Sdk.Host υ) : WasiOutcome node native es w
      ((orWasi node ⟨native, none, .null, es⟩).exec w) := by
  unfold orWasi
  rw [Throwing.exec_bind, Throwing.exec_get]
  by_cases hneeded : (!native.any node.truthy || node.asked w) = true
  · simp only [hneeded, if_true]
    rcases hbeside : (node.require (.beside "trueseal-sync-ts.wasi.cjs")).exec w with ⟨o₁, w₁⟩
    rw [Throwing.exec_bind, wasiBeside_exec hbeside]
    simp only [Throwing.exec_bind]
    by_cases hagain : (!(o₁.toOption.or native).any node.truthy || node.asked w₁) = true
    · rcases hpackage : (node.require (.package "wasm32-wasi")).exec w₁ with ⟨o₂, w₂⟩
      obtain ⟨hk₂, -⟩ := recorded_own (hnode.require _) hpackage (node.asked w₂)
      have hkept : recorded (node.asked w₁) o₁ = [] ∨ ∃ r obj,
          recorded (node.asked w₁) o₁ = [.object r] ∧ w₂.heap.errors r = some obj := by
        refine (recorded_cases (hnode.require _) hbeside (node.asked w₁)).imp_right fun hone => ?_
        obtain ⟨r, hr, hnew⟩ := hone
        obtain ⟨-, obj, hobj⟩ := hnew.made r (by simp)
        exact ⟨r, obj, hr, (hk₂.errors r (lt_next hobj)).trans hobj⟩
      rw [wasiPackage_exec (hnode.require _) hpackage hagain rfl hkept]
      simp only [wasiRequired_exec, environment_relinked]
      refine .both o₁ o₂ w₁ w₂ _ _ _ hneeded hbeside hagain hpackage rfl rfl rfl ?_
      by_cases hthrow : (node.environment w₂).forceWasi = some "error" ∧
          (o₂.toOption.or o₁.toOption).any node.truthy = false
      · rw [if_pos hthrow, if_pos hthrow]
      · rw [if_neg hthrow, if_neg hthrow]
        rfl
    · simp only [Bool.or_eq_true, Bool.not_eq_true', not_or, Bool.not_eq_false,
        Bool.not_eq_true] at hagain
      have hnone : recorded (node.asked w₁) o₁ = [] := by
        rw [hagain.2]
        cases o₁ <;> rfl
      rw [wasiPackage_skip hagain.1 hagain.2, hnone]
      simp only [wasiRequired_exec]
      have hunset : (node.environment w₁).forceWasi = none := by
        simpa [Node.asked] using hagain.2
      rw [hunset]
      exact .beside o₁ w₁ hneeded hbeside hagain.1 hagain.2 rfl
  · simp only [Bool.or_eq_true, Bool.not_eq_true', not_or, Bool.not_eq_false,
      Bool.not_eq_true] at hneeded
    simp only [hneeded.1, hneeded.2]
    exact .unneeded hneeded.1 hneeded.2 rfl

end Wasi

/-! ## 7. Where nothing is exported -/

/-- The modules of the wasm build, in the order in which they are required. -/
def wasiModules : List Module := [.beside "trueseal-sync-ts.wasi.cjs", .package "wasm32-wasi"]

/-- The cause of an error whose first cause would be the head of `es`. -/
def orNull : List JsVal → List JsVal
  | [] => [.null]
  | e :: es => e :: es

section Failure

variable {β υ : Type} {node : Node β υ} {machine : Machine} {w w' w₁ w₂ w₃ : Sdk.Host υ}

theorem attempt_own (hnode : node.OwnErrors) (a : Attempt) : Own (a.run node) := by
  cases a with
  | require m => exact hnode.require m
  | unsupported message => exact own_throwNew _
  | platformPackage name =>
      refine own_bind (hnode.require _) fun binding =>
        own_bind (hnode.version name) fun version => own_bind own_get fun w => ?_
      split
      · exact own_bind (hnode.text version) fun text => own_throwNew _
      · exact own_pure binding

theorem variant_ne_nil (name : String) : variant name ≠ [] := List.cons_ne_nil _ _

theorem ite_ne_nil {γ : Type} {p : Prop} [Decidable p] {l l' : List γ} (h : l ≠ [])
    (h' : l' ≠ []) : (if p then l else l') ≠ [] := by
  split
  · exact h
  · exact h'

/-- Every platform has something to try, or an error for itself. -/
theorem attempts_ne_nil (machine : Machine) (path : Option Path) : attempts machine path ≠ [] := by
  unfold attempts
  cases path with
  | some path => exact List.cons_ne_nil _ _
  | none =>
      repeat' first
        | exact variant_ne_nil _
        | exact List.cons_ne_nil _ _
        | refine ite_ne_nil ?_ ?_

/-- The search from the host `w` on: the attempts of the platform's branch, in their order, and then
    both modules of the wasm build. -/
structure Searched (node : Node β υ) (machine : Machine) (w : Sdk.Host υ) (es : List JsVal)
    (found : Option β) (o₁ o₂ : Except JsVal β) (w₁ w₂ w₃ : Sdk.Host υ) : Prop where
  native : Throwing.Tried (Attempt.run node)
    (attempts machine (node.environment w).nativeLibraryPath) w es found w₁
  beside : (node.require (.beside "trueseal-sync-ts.wasi.cjs")).exec w₁ = (o₁, w₂)
  package : (node.require (.package "wasm32-wasi")).exec w₂ = (o₂, w₃)

/-- **What a process is told that gets no binding.** -/
inductive Explained (node : Node β υ) (machine : Machine) (w : Sdk.Host υ) (err : JsVal)
    (w' : Sdk.Host υ) : Prop
  /-- The last module that answered, if any did, answered a value that counts as false. The causes
      of the error are the recorded ones, the last one first. -/
  | notFound (es : List JsVal) (found : Option β) (o₁ o₂ : Except JsVal β) (w₁ w₂ w₃ : Sdk.Host υ)
      (searched : Searched node machine w es found o₁ o₂ w₁ w₂ w₃)
      (last : (o₂.toOption.or (o₁.toOption.or found)).any node.truthy = false)
      (notError : (node.environment w₃).forceWasi ≠ some "error")
      (message : HasMessage w' err (missingText (es ++ recorded (node.asked w₃) o₂)))
      (chain : (err :: (es ++ recorded (node.asked w₃) o₂).reverse).IsChain (CausedBy w'))
      (same : SameButCause w₃ w')
  /-- The wasm build is required, and its last module that answered, if any did, answered such a
      value; what the first part has found is not used. The causes are the errors of its modules. -/
  | wasi (es : List JsVal) (found : Option β) (o₁ o₂ : Except JsVal β) (w₁ w₂ w₃ : Sdk.Host υ)
      (searched : Searched node machine w es found o₁ o₂ w₁ w₂ w₃)
      (last : (o₂.toOption.or o₁.toOption).any node.truthy = false)
      (isError : (node.environment w₃).forceWasi = some "error")
      (message : HasMessage w' err wasiText)
      (chain : (err :: orNull (recorded (node.asked w₂) o₁ ++ recorded (node.asked w₃) o₂)).IsChain
        (CausedBy w'))
      (same : SameButCause w₃ w')
  /-- A binding was found, and reading or assigning one of its members threw. -/
  | member (v : Loading β) (binding : β) (w₁ : Sdk.Host υ)
      (searched : (search node machine).exec w = (.ok v, w₁))
      (found : v.nativeBinding = some binding) (loaded : node.truthy binding = true)
      (threw : (reexport node binding).exec w₁ = (.error err, w'))

theorem search_exec {es : List JsVal} {found : Option β}
    (h : (requireNative node machine).exec w = (.ok (es, found), w₁)) :
    (search node machine).exec w = (orWasi node ⟨found, none, .null, es⟩).exec w₁ := by
  unfold search
  rw [Throwing.exec_bind, h]

/-- The end of the module, where a binding was found. -/
theorem exported_found {v : Loading β} {binding : β} (hb : v.nativeBinding = some binding)
    (hloaded : node.truthy binding = true) (w : Sdk.Host υ) : (exported node v).exec w =
      match (reexport node binding).exec w with
      | (.ok _, w') => (.ok binding, w')
      | (.error err, w') => (.error err, w') := by
  unfold exported
  rw [hb, Option.filter_some, if_pos hloaded]
  show (reexport node binding >>= fun _ => pure binding).exec w = _
  rw [Throwing.exec_bind]
  rcases (reexport node binding).exec w with ⟨_ | _, w'⟩ <;> rfl

theorem exported_none {v : Loading β} (hb : v.nativeBinding.any node.truthy = false) :
    exported node v = notFound node v.loadErrors := by
  have hnone : v.nativeBinding.filter node.truthy = none := by
    cases h : v.nativeBinding with
    | none => rfl
    | some b => simpa [h] using hb
  unfold exported
  rw [hnone]

/-- Where a binding was found, only its members can throw. -/
theorem explained_member {err : JsVal} {v : Loading β}
    (hsearch : (search node machine).exec w = (.ok v, w₁))
    (hloaded : v.nativeBinding.any node.truthy = true)
    (h : (exported node v).exec w₁ = (.error err, w')) : Explained node machine w err w' := by
  obtain ⟨binding, hb, htruthy⟩ := (Option.any_eq_true _ _).mp hloaded
  rw [exported_found hb htruthy] at h
  refine .member v binding w₁ hsearch hb htruthy ?_
  rcases hrun : (reexport node binding).exec w₁ with ⟨e | u, w₂⟩
  · rw [hrun] at h
    obtain ⟨he, hw⟩ := Prod.mk.inj h
    rw [Except.error.inj he, hw]
  · rw [hrun] at h
    cases (Prod.mk.inj h).1

theorem relinked_there {es es' : List JsVal} {r : Nat} {o : ErrorObject}
    (h : w.heap.errors r = some o) : ∃ o', (relinked w es es').heap.errors r = some o' := by
  unfold relinked
  split
  · exact linked_there h
  · exact ⟨o, h⟩

section Both

variable {es : List JsVal} {found : Option β} {o₁ o₂ : Except JsVal β}

/-- Both modules of the wasm build were required, and there is still no binding. -/
theorem explained_notFound (hnode : node.OwnErrors)
    (hs : Searched node machine w es found o₁ o₂ w₁ w₂ w₃) {kept : List JsVal}
    (hlast : (o₂.toOption.or (o₁.toOption.or found)).any node.truthy = false)
    (hnot : (node.environment w₃).forceWasi ≠ some "error") {err : JsVal}
    (h : (notFound node (es ++ recorded (node.asked w₃) o₂) : Js (Sdk.Host υ) β).exec
      (relinked w₃ kept (recorded (node.asked w₃) o₂)) = (.error err, w')) :
    Explained node machine w err w' := by
  obtain ⟨hk₁, refs, rfl, hnew₁⟩ := tried_own (attempt_own hnode) hs.native
  obtain ⟨hk₂, -⟩ := recorded_own (hnode.require _) hs.beside (node.asked w₂)
  obtain ⟨hk₃, refs', hrefs', hnew₃⟩ := recorded_own (hnode.require _) hs.package (node.asked w₃)
  have hnew := (hnew₁.later hk₂).append (hk₁.trans _ _ _ hk₂) hk₃ hnew₃
  have hmap : refs.map JsVal.object ++ recorded (node.asked w₃) o₂ =
      (refs ++ refs').map .object := by rw [hrefs', List.map_append]
  have hthere : ∀ r ∈ refs ++ refs',
      ∃ o, (relinked w₃ kept (recorded (node.asked w₃) o₂)).heap.errors r = some o := fun r hr => by
    obtain ⟨-, o, ho⟩ := hnew.made r hr
    exact relinked_there ho
  obtain ⟨err', w'', hrun, hmessage, hchain, hsame⟩ :=
    notFound_exec (α := β) node hnew.ordered hthere
  rw [hmap, hrun] at h
  obtain ⟨herr, rfl⟩ := Prod.mk.inj h
  obtain rfl := Except.error.inj herr
  exact .notFound _ found o₁ o₂ w₁ w₂ w₃ hs hlast hnot (by rwa [hmap]) (by rwa [hmap])
    ((sameButCause_relinked w₃ kept _).trans _ _ _ hsame)

/-- The wasm build is required and is not there. -/
theorem explained_wasi (hnode : node.OwnErrors)
    (hs : Searched node machine w es found o₁ o₂ w₁ w₂ w₃)
    (hlast : (o₂.toOption.or o₁.toOption).any node.truthy = false)
    (hisError : (node.environment w₃).forceWasi = some "error") {kept kept' : List JsVal}
    (hkept : kept = recorded (node.asked w₂) o₁) (hkept' : kept' = recorded (node.asked w₃) o₂) :
    Explained node machine w (.object (relinked w₃ kept kept').heap.next)
      ((relinked w₃ kept kept').push (errorWith wasiText ((kept ++ kept').head?.getD .null))) := by
  obtain ⟨hmessage, hcause⟩ :=
    errorWith_thrown (relinked w₃ kept kept') wasiText ((kept ++ kept').head?.getD .null)
  have hpush : Kept (relinked w₃ kept kept') _ :=
    kept_push _ (errorWith wasiText ((kept ++ kept').head?.getD .null))
  refine .wasi es found o₁ o₂ w₁ w₂ w₃ hs hlast hisError hmessage ?_
    ((sameButCause_relinked w₃ kept kept').trans _ _ _ hpush.sameButCause)
  rw [← hkept, ← hkept']
  obtain ⟨hk₃, -⟩ := recorded_own (hnode.require _) hs.package (node.asked w₃)
  have hfirst := recorded_cases (hnode.require _) hs.beside (node.asked w₂)
  have hsecond := recorded_cases (hnode.require _) hs.package (node.asked w₃)
  rw [← hkept] at hfirst
  rw [← hkept'] at hsecond
  rcases hfirst with rfl | ⟨r₁, rfl, hnew⟩ <;> rcases hsecond with rfl | ⟨r₂, rfl, -⟩
  · exact List.isChain_cons_cons.mpr ⟨hcause, List.isChain_singleton _⟩
  · exact List.isChain_cons_cons.mpr ⟨hcause, List.isChain_singleton _⟩
  · exact List.isChain_cons_cons.mpr ⟨hcause, List.isChain_singleton _⟩
  · -- the second failure was made the cause of the first
    obtain ⟨-, o, ho⟩ := hnew.made r₁ (by simp)
    have hlink : CausedBy (linked w₃ r₁ r₂) (.object r₁) (.object r₂) :=
      ⟨r₁, _, rfl, linked_self ((hk₃.errors r₁ (lt_next ho)).trans ho),
        by rw [ErrorObject.own_set, if_pos rfl]⟩
    exact List.isChain_cons_cons.mpr ⟨hcause,
      List.isChain_cons_cons.mpr ⟨hpush.causedBy hlink, List.isChain_singleton _⟩⟩

end Both

/-- Where index.js throws, that is explained. -/
theorem explained_of_error (hnode : node.OwnErrors) {err : JsVal}
    (h : (index node machine).exec w = (.error err, w')) : Explained node machine w err w' := by
  obtain ⟨es, found, w₁, hrun, htried⟩ := Throwing.exec_firstOf (c := Attempt.run node)
    (attempts machine (node.environment w).nativeLibraryPath) w
  have hsearch : (search node machine).exec w = (orWasi node ⟨found, none, .null, es⟩).exec w₁ :=
    search_exec hrun
  unfold index at h
  rw [Throwing.exec_bind] at h
  rcases orWasi_outcome hnode found es w₁ with ⟨hloaded, -, hout⟩ |
    ⟨o, w₂, -, -, hloaded, -, hout⟩ |
    ⟨o₁, o₂, w₂, w₃, w₄, kept, kept', -, hbeside, -, hpackage, hkept, hkept', rfl, hout⟩
  · rw [hsearch, hout] at h
    exact explained_member (hsearch.trans hout) hloaded h
  · rw [hsearch, hout] at h
    exact explained_member (hsearch.trans hout) hloaded h
  · have hs : Searched node machine w es found o₁ o₂ w₁ w₂ w₃ := ⟨htried, hbeside, hpackage⟩
    by_cases hthrow : (node.environment w₃).forceWasi = some "error" ∧
        (o₂.toOption.or o₁.toOption).any node.truthy = false
    · rw [if_pos hthrow] at hout
      rw [hsearch, hout] at h
      obtain ⟨herr, rfl⟩ := Prod.mk.inj h
      obtain rfl := Except.error.inj herr
      exact explained_wasi hnode hs hthrow.2 hthrow.1 hkept hkept'
    · rw [if_neg hthrow] at hout
      rw [hsearch, hout] at h
      cases hlast : (o₂.toOption.or (o₁.toOption.or found)).any node.truthy with
      | true => exact explained_member (hsearch.trans hout) hlast h
      | false =>
          simp only at h
          rw [exported_none hlast, hkept'] at h
          refine explained_notFound hnode hs hlast (fun hisError => hthrow ⟨hisError, ?_⟩) h
          -- the last answer of the wasm build is the last one of all
          cases o₂ <;> cases o₁ <;> first | exact hlast | rfl

/-- No module exports a value that counts as false. -/
def Node.ExportsTruthy (node : Node β υ) : Prop :=
  ∀ m w b w', (node.require m).exec w = (.ok b, w') → node.truthy b = true

/-- Reading and assigning the members of a binding throws nothing. -/
def Node.MembersReturn (node : Node β υ) : Prop := ∀ b, Throwing.Returns (reexport node b)

/-- Every attempt threw that could have given a binding: both modules of the wasm build, and unless
    that is required everything in the platform's branch. -/
inductive EveryThrew (node : Node β υ) (machine : Machine) (w : Sdk.Host υ) (err : JsVal)
    (w' : Sdk.Host υ) : Prop
  | notFound (es : List JsVal) (e₁ e₂ : JsVal) (w₁ w₃ : Sdk.Host υ)
      (native : Throwing.Tried (Attempt.run node)
        (attempts machine (node.environment w).nativeLibraryPath) w es none w₁)
      (wasi : Throwing.Tried node.require wasiModules w₁ [e₁, e₂] none w₃)
      (notError : (node.environment w₃).forceWasi ≠ some "error")
      (message : HasMessage w' err notFoundText)
  | wasi (es : List JsVal) (found : Option β) (e₁ e₂ : JsVal) (w₁ w₃ : Sdk.Host υ)
      (native : Throwing.Tried (Attempt.run node)
        (attempts machine (node.environment w).nativeLibraryPath) w es found w₁)
      (wasi : Throwing.Tried node.require wasiModules w₁ [e₁, e₂] none w₃)
      (isError : (node.environment w₃).forceWasi = some "error")
      (message : HasMessage w' err wasiText)

/-- An attempt that answers, answers what a `require` has. -/
theorem attempt_truthy (hnode : node.ExportsTruthy) {a : Attempt} {b : β}
    (h : (a.run node).exec w = (.ok b, w')) : node.truthy b = true := by
  cases a with
  | require m => exact hnode m w b w' h
  | unsupported message => cases (Prod.mk.inj h).1
  | platformPackage name =>
      unfold Attempt.run at h
      rw [Throwing.exec_bind] at h
      rcases hrequire : (node.require (.package name)).exec w with ⟨e | binding, w₁⟩
      · rw [hrequire] at h
        cases (Prod.mk.inj h).1
      · rw [hrequire] at h
        simp only [Throwing.exec_bind, Throwing.exec_get] at h
        rcases hversion : (node.version name).exec w₁ with ⟨e | version, w₂⟩
        · rw [hversion] at h
          cases (Prod.mk.inj h).1
        · rw [hversion] at h
          simp only at h
          split at h
          · rw [Throwing.exec_bind] at h
            rcases htext : (node.text version).exec w₂ with ⟨e | text, w₃⟩ <;> rw [htext] at h <;>
              cases (Prod.mk.inj h).1
          · obtain ⟨hb, -⟩ := Prod.mk.inj h
            rw [← Except.ok.inj hb]
            exact hnode _ _ _ _ hrequire

theorem tried_truthy (hnode : node.ExportsTruthy) {l : List Attempt} {es : List JsVal}
    {found : Option β} (h : Throwing.Tried (Attempt.run node) l w es found w') :
    ∀ b, found = some b → node.truthy b = true := by
  induction h with
  | exhausted w => exact nofun
  | answered h =>
      intro b hb
      exact attempt_truthy hnode (Option.some.inj hb ▸ h)
  | threw h rest ih => exact ih

/-- A module of the wasm build that gave nothing threw. -/
theorem threw_of_falsy (hnode : node.ExportsTruthy) {m : Module} {o : Except JsVal β}
    (h : (node.require m).exec w = (o, w')) (hfalsy : o.toOption.any node.truthy = false) :
    ∃ e, o = .error e := by
  cases o with
  | error e => exact ⟨e, rfl⟩
  | ok b =>
      have ht := hnode m w b w' h
      rw [show (Except.ok b : Except JsVal β).toOption = some b from rfl, Option.any_some, ht] at hfalsy
      cases hfalsy

end Failure

/-! ## 8. The loader of the install check -/

/-- Where a module is looked for. -/
def Module.path : Module → Path
  | .beside file => syncDir ++ [file]
  | .package name => variantDir name
  | .at path => path

/-- What a computation answers, where it does. -/
def answer {α υ : Type} (c : Js (Sdk.Host υ) α) (w : Sdk.Host υ) : Option α :=
  (c.exec w).1.toOption

/-- The process is the machine of the install check, and the modules leave the variables of the
    environment alone. -/
structure Describes {β υ : Type} (m : InstallMachine β) (machine : Machine) (node : Node β υ) :
    Prop where
  platform : machine.platform = m.platform
  arch : machine.arch = m.arch
  musl : machine.platform = "linux" → isMusl machine = m.musl
  mingw : mingw machine = m.mingw
  truthy : node.truthy = m.truthy
  nativeLibraryPath : ∀ w, (node.environment w).nativeLibraryPath = m.nativeLibraryPath
  enforced : ∀ w, enforced (node.environment w) = m.enforceVersionCheck
  forceWasi : ∀ w, (node.environment w).forceWasi = m.forceWasi

/-- `require` answers what is found in the files. -/
structure Reads {β υ : Type} (node : Node β υ) (m : InstallMachine β)
    (fs : FileSystem (Content β)) : Prop where
  require : ∀ module w, answer (node.require module) w =
    NodePackage.require m.evaluate fs module.path
  version : ∀ name w, answer (node.version name) w =
    (manifestIn fs (variantDir name)).map fun package => package.version.elim .undefined .string

/-- The value of `process.platform` on a host, and of `process.arch`. -/
def process : Host → String × String
  | .darwinArm64 => ("darwin", "arm64")
  | .darwinX64 => ("darwin", "x64")
  | .linuxX64 => ("linux", "x64")
  | .linuxArm64 => ("linux", "arm64")
  | .win32X64 => ("win32", "x64")

section Agreement

variable {β υ : Type} {node : Node β υ} {machine : Machine} {m : InstallMachine β} {host : Host}
  {fs : FileSystem (Content β)}

/-- The key of a host says its platform and its architecture. -/
theorem process_of_host (h : HOSTS (m.platform ++ "-" ++ m.arch) = some host) :
    m.platform = (process host).1 ∧ m.arch = (process host).2 := by
  have hkey : (process host).1 ++ "-" ++ (process host).2 = m.platform ++ "-" ++ m.arch := by
    unfold HOSTS at h
    split at h
    case h_6 => cases h
    all_goals
      rename_i heq
      cases h
      exact heq.symm
  have hchars : m.platform.toList ++ '-' :: m.arch.toList =
      (process host).1.toList ++ '-' :: (process host).2.toList := by
    simpa using congrArg String.toList hkey.symm
  have hdash : '-' ∉ (process host).1.toList ∧ '-' ∉ (process host).2.toList := by
    cases host <;> decide
  obtain ⟨hplatform, -, harch⟩ :=
    (List.append_cons_inj_of_notMem hdash.1 hdash.2).mp hchars.symm
  exact ⟨String.toList_inj.mp hplatform.symm, String.toList_inj.mp harch.symm⟩

theorem Reads.require_eq (hnode : Reads node m fs) {module : Module} {w w' : Sdk.Host υ}
    {o : Except JsVal β} (h : (node.require module).exec w = (o, w')) :
    NodePackage.require m.evaluate fs module.path = o.toOption := by
  have ha := hnode.require module w
  rw [answer, h] at ha
  exact ha.symm

/-- What an attempt finds in the files. -/
def Attempt.found (m : InstallMachine β) (fs : FileSystem (Content β)) : Attempt → Option β
  | .require module => NodePackage.require m.evaluate fs module.path
  | .platformPackage name => requirePackage m fs name
  | .unsupported _ => none

theorem answer_bind_throwNew {α γ : Type} (c : Js (Sdk.Host υ) α) (o : α → ErrorObject)
    (w : Sdk.Host υ) : ((c >>= fun a => throwNew (o a) : Js (Sdk.Host υ) γ).exec w).1.toOption =
      none := by
  rw [Throwing.exec_bind]
  rcases c.exec w with ⟨e | a, w'⟩ <;> rfl

/-- The version check of the loader is the one of the files. -/
theorem version_check {version : Option String} {binding : β} {w w₀ : Sdk.Host υ}
    (hm : Describes m machine node) :
    ((if version.elim .undefined .string ≠ JsVal.string "0.6.0" ∧
          enforced (node.environment w₀) = true then
        node.text (version.elim .undefined .string) >>= fun text =>
          throwNew (createError (mismatchText text))
      else pure binding : Js (Sdk.Host υ) β).exec w).1.toOption =
      if (version ≠ some "0.6.0" && m.enforceVersionCheck) = true then none else some binding := by
  have hversion : version.elim .undefined .string ≠ JsVal.string "0.6.0" ↔
      version ≠ some "0.6.0" := by
    cases version with
    | none => simp
    | some v => simp
  rw [hm.enforced w₀]
  by_cases hcheck : version ≠ some "0.6.0" ∧ m.enforceVersionCheck = true
  · rw [if_pos (hversion.symm.and Iff.rfl |>.mp hcheck), if_pos (by simpa using hcheck)]
    exact answer_bind_throwNew _ _ w
  · rw [if_neg (mt (hversion.symm.and Iff.rfl).mpr hcheck), if_neg (by simpa using hcheck)]
    rfl

theorem attempt_answer (hm : Describes m machine node) (hnode : Reads node m fs) (a : Attempt)
    (w : Sdk.Host υ) : ((a.run node).exec w).1.toOption = a.found m fs := by
  cases a with
  | require module => exact hnode.require module w
  | unsupported message => rfl
  | platformPackage name =>
      have hrequire := hnode.require (.package name) w
      unfold answer at hrequire
      unfold Attempt.run Attempt.found requirePackage
      rw [Throwing.exec_bind]
      show _ = NodePackage.require m.evaluate fs (Module.path (.package name)) >>= _
      rw [← hrequire]
      rcases (node.require (.package name)).exec w with ⟨e | binding, w₁⟩
      · rfl
      · have hversion := hnode.version name w₁
        unfold answer at hversion
        simp only [Throwing.exec_bind]
        rcases hrun : (node.version name).exec w₁ with ⟨e | version, w₂⟩
        · rw [hrun] at hversion
          cases hmanifest : manifestIn fs (variantDir name) with
          | none => rfl
          | some package => rw [hmanifest] at hversion; cases hversion
        · rw [hrun] at hversion
          cases hmanifest : manifestIn fs (variantDir name) with
          | none => rw [hmanifest] at hversion; cases hversion
          | some package =>
              rw [hmanifest] at hversion
              obtain rfl : version = package.version.elim .undefined .string :=
                Option.some.inj hversion
              simp only [Throwing.exec_get]
              exact version_check hm

theorem variant_found (m : InstallMachine β) (fs : FileSystem (Content β)) (name : String) :
    (variant name).findSome? (Attempt.found m fs) = requireVariant m fs name := by
  show (match NodePackage.require m.evaluate fs (syncDir ++ [localBinary name]) with
    | some b => some b
    | none =>
        match requirePackage m fs name with
        | some b => some b
        | none => none) = _
  unfold requireVariant
  cases NodePackage.require m.evaluate fs (syncDir ++ [localBinary name]) with
  | some b => rfl
  | none => cases requirePackage m fs name <;> rfl

theorem variants_found (m : InstallMachine β) (fs : FileSystem (Content β)) (names : List String) :
    (names.flatMap variant).findSome? (Attempt.found m fs) =
      names.findSome? (requireVariant m fs) := by
  induction names with
  | nil => rfl
  | cons name names ih =>
      rw [List.flatMap_cons, List.findSome?_append, variant_found, ih, List.findSome?_cons]
      cases requireVariant m fs name <;> rfl

/-- **The branches of a supported host are its variants.** -/
theorem attempts_host (hm : Describes m machine node)
    (hhost : HOSTS (m.platform ++ "-" ++ m.arch) = some host) :
    attempts machine none = (host.variants m.musl m.mingw).flatMap variant := by
  obtain ⟨hplatform, harch⟩ := process_of_host hhost
  have hmusl := hm.musl
  unfold attempts
  rw [hm.platform, hplatform] at hmusl
  rw [hm.platform, hm.arch, hm.mingw, hplatform, harch]
  cases host with
  | darwinArm64 => rfl
  | darwinX64 => rfl
  | linuxX64 =>
      simp only [process, hmusl rfl, Host.variants]
      cases m.musl <;> rfl
  | linuxArm64 =>
      simp only [process, hmusl rfl, Host.variants]
      cases m.musl <;> rfl
  | win32X64 =>
      simp only [process, Host.variants]
      cases m.mingw <;> rfl

theorem native_found (hm : Describes m machine node)
    (hhost : HOSTS (m.platform ++ "-" ++ m.arch) = some host) :
    (attempts machine m.nativeLibraryPath).findSome? (Attempt.found m fs) =
      Release.requireNative m host fs := by
  unfold Release.requireNative
  cases m.nativeLibraryPath with
  | some path => simp [attempts, Attempt.found, Module.path]
  | none => rw [attempts_host hm hhost, variants_found]

/-- What the module exports: the binding, if it counts as true. -/
theorem exported_answer (hmembers : node.MembersReturn) (v : Loading β) (w : Sdk.Host υ) :
    ((exported node v).exec w).1.toOption = v.nativeBinding.filter node.truthy := by
  cases hb : v.nativeBinding.filter node.truthy with
  | none =>
      have hfalsy : v.nativeBinding.any node.truthy = false := by
        cases h : v.nativeBinding with
        | none => rfl
        | some b => simpa [h] using hb
      rw [exported_none hfalsy]
      cases v.loadErrors with
      | nil => rfl
      | cons err rest => exact answer_bind_throwNew _ _ w
  | some b =>
      obtain ⟨hnative, hloaded⟩ := Option.filter_eq_some_iff.mp hb
      obtain ⟨u, w', hreturn⟩ := hmembers b w
      rw [exported_found hnative hloaded, hreturn]
      rfl

theorem filter_of_any {o : Option β} {p : β → Bool} (h : o.any p = true) : o.filter p = o := by
  obtain ⟨b, rfl, hb⟩ := (Option.any_eq_true _ _).mp h
  exact Option.filter_some_pos hb

/-- The second part of the module is needed where the first one is not enough. -/
theorem not_enough {loaded : Bool} {force : Option String}
    (h : (!loaded || force.isSome) = true) : (loaded && force.isNone) = false := by
  cases loaded with
  | false => rfl
  | true => cases force with
    | none => cases h
    | some v => rfl

end Agreement

/-! ## 9. A process over files -/

section Repository

variable {β : Type} (m : InstallMachine β) (fs : FileSystem (Content β))

/-- Node.js over the files `fs`. -/
def filesNode : Node β Unit where
  env := fun _ => ⟨m.nativeLibraryPath, if m.enforceVersionCheck then some "1" else none, m.forceWasi⟩
  truthy := m.truthy
  require := fun module =>
    match NodePackage.require m.evaluate fs module.path with
    | some binding => pure binding
    | none => throwNew (createError "Cannot find module")
  version := fun name =>
    match manifestIn fs (variantDir name) with
    | some package => pure (package.version.elim .undefined .string)
    | none => throwNew (createError "Cannot find module")
  text := fun
    | .string s => pure s
    | _ => pure "undefined"
  assignCause := fun _ _ => pure ⟨⟩
  get := fun _ _ => pure .undefined
  assign := fun _ _ _ => pure ⟨⟩

theorem filesNode_own : (filesNode m fs).OwnErrors where
  require module := by
    show Own (match NodePackage.require m.evaluate fs module.path with
      | some binding => pure binding
      | none => throwNew _)
    split
    · exact own_pure _
    · exact own_throwNew _
  version name := by
    show Own (match manifestIn fs (variantDir name) with
      | some package => pure _
      | none => throwNew _)
    split
    · exact own_pure _
    · exact own_throwNew _
  text v := by
    cases v <;> exact own_pure _

theorem filesNode_reads : Reads (filesNode m fs) m fs where
  require module w := by
    show answer (match NodePackage.require m.evaluate fs module.path with
      | some binding => pure binding
      | none => throwNew _) w = _
    cases NodePackage.require m.evaluate fs module.path <;> rfl
  version name w := by
    show answer (match manifestIn fs (variantDir name) with
      | some package => pure _
      | none => throwNew _) w = _
    cases manifestIn fs (variantDir name) <;> rfl

theorem filesNode_members : (filesNode m fs).MembersReturn := fun _ w => ⟨⟨⟩, w, rfl⟩

/-- A process on linux-x64 with the GNU library. -/
def linuxProcess : Machine where
  platform := "linux"
  arch := "x64"
  lddFile := some "(GNU libc)".toList
  report := none
  lddVersion := none
  shlibSuffix := none
  nodeTargetType := none

theorem linuxProcess_describes (fs : FileSystem (Content Unit)) :
    Describes linuxMachine linuxProcess (filesNode linuxMachine fs) where
  platform := rfl
  arch := rfl
  musl _ := by decide
  mingw := rfl
  truthy := rfl
  nativeLibraryPath _ := rfl
  enforced _ := rfl
  forceWasi _ := rfl

end Repository

end TrueSealSync.Release.Loader
