/-
  File:      TrueSealSync/Release/Parity.lean
  Subject:   THE PARITY GATE: the compiled lists against the core's shared facts.

  Modelled from scripts/check-parity.mjs. Importing a compiled module is a parameter (`load`); the
  test that decides one section is another (`drift`), so that the self-test can be asked about
  every test. The script's own test is `noDrift`.

  * `LIST_MAP`, `loadSdkLists`, `compare` -- the script;
  * `compare_eq` -- the comparison reads its rows first and tests them afterwards;
  * `compare_noDrift` -- when the gate passes;
  * `parity_gate_exact` -- it covers the facts exactly where they hold the nine lists and no other.
-/
import Mathlib.Data.List.Dedup
import Mathlib.Data.List.Perm.Basic
import TrueSealSync.Lib.Fallible
import TrueSealSync.Lib.Files

namespace TrueSealSync.Release

open TrueSealSync.Lib
open TrueSealSync.Lib.Fallible (bind_ok mapM_ok_mem mapM_map exists_mapM_ok)

/-! ## 1. The table -/

/-- A row of `LIST_MAP`: a canonical list and the runtime export that carries it. -/
structure Row where
  list : String
  module : String
  exportName : String
  deriving DecidableEq

def vocabularies : String := "vector-vocabularies.js"

/-- `LIST_MAP`. -/
def LIST_MAP : List Row :=
  [ ⟨"errors", "index.js", "TRUESEAL_ERROR_CODES"⟩,
    ⟨"events", vocabularies, "EVENT_TYPES"⟩,
    ⟨"statuses", vocabularies, "GROUP_STATUSES"⟩,
    ⟨"statusReasons", vocabularies, "STATUS_REASONS"⟩,
    ⟨"connectionStates", vocabularies, "CONNECTION_STATES"⟩,
    ⟨"deliveryIssues", vocabularies, "DELIVERY_ISSUE_TYPES"⟩,
    ⟨"unreadableReasons", vocabularies, "UNREADABLE_REASONS"⟩,
    ⟨"sendFailedReasons", vocabularies, "SEND_FAILED_REASONS"⟩,
    ⟨"admissionDropReasons", vocabularies, "ADMISSION_DROP_REASONS"⟩ ]

/-! ## 2. What the script reads -/

/-- A member of the facts document: a list of cases, or something else. -/
inductive Fact (α : Type) where
  | cases (names : List α)
  | other

/-- The facts document, by its members. -/
abbrev Facts (α : Type) : Type := String → Option (Fact α)

/-- The facts file. `document` is `none` where it cannot be read or parsed. -/
structure FactsFile (α : Type) where
  path : String
  sha256 : String
  sdkVersion : Option String
  document : Option (Facts α)

/-- What a module exports: the arrays, by their names. -/
abbrev Exports (α : Type) : Type := String → Option (List α)

/-- The lists of the SDK, by the names of the canonical lists. -/
abbrev SdkLists (α : Type) : Type := String → Option (List α)

/-- The machine the script runs on: importing a module (`none` where the import throws), the
    directory for temporary files, and what `mkdtempSync` appends to a name. -/
structure Machine (α : Type) where
  load : FileSystem Text → Path → Option (Exports α)
  tmpdir : Path
  unique : FileSystem Text → String

/-- What the script throws: a `ParityError`, or anything else. -/
inductive Failure where
  | parity (message : String)
  | thrown
  deriving DecidableEq

/-- A section of the report. -/
structure Section (α : Type) where
  list : String
  exportName : String
  module : String
  canonicalCount : Nat
  sdkCount : Nat
  missingInSdk : List α
  extraInSdk : List α
  duplicateInSdk : List α
  ok : Bool

/-- The report; `compare` answers it beside its `ok`. -/
structure Report (α : Type) where
  check : String
  sdk : String
  factsPath : String
  factsSha256 : String
  factsSdkVersion : Option String
  sections : List (Section α)
  ok : Bool

/-! ## 3. The comparison -/

section Comparison

variable {α : Type} [DecidableEq α] (le : α → α → Bool) (machine : Machine α)

/-- The import loop of `loadSdkLists`: each module once, in the order of the rows. -/
def importModules (fs : FileSystem Text) (distDir : Path) :
    List Row → (String → Option (Exports α)) → Except Failure (String → Option (Exports α))
  | [], modules => .ok modules
  | row :: rows, modules =>
      if (modules row.module).isSome then importModules fs distDir rows modules
      else if (fs (distDir ++ [row.module])).isNone then
        .error (.parity
          ("compiled module missing: " ++ row.module ++ " — run \u0060npm run build\u0060 first"))
      else
        match machine.load fs (distDir ++ [row.module]) with
        | none => .error .thrown
        | some exports => importModules fs distDir rows
            (Function.update modules row.module (some exports))

/-- The export a row names. -/
def exportedArray (modules : String → Option (Exports α)) (row : Row) : Except Failure (List α) :=
  match (modules row.module).bind (· row.exportName) with
  | some value => .ok value
  | none => .error (.parity
      (row.module ++ " does not export an array named " ++ row.exportName))

/-- The second loop of `loadSdkLists`. -/
def exportedArrays (modules : String → Option (Exports α)) :
    List Row → SdkLists α → Except Failure (SdkLists α)
  | [], lists => .ok lists
  | row :: rows, lists => do
      let value ← exportedArray modules row
      exportedArrays modules rows (Function.update lists row.list (some value))

/-- `loadSdkLists`. -/
def loadSdkLists (fs : FileSystem Text) (distDir : Path) : Except Failure (SdkLists α) := do
  let modules ← importModules machine fs distDir LIST_MAP fun _ => none
  exportedArrays modules LIST_MAP fun _ => none

/-- The two lists a row compares. -/
structure Compared (α : Type) where
  row : Row
  sdkList : List α
  canonical : List α
  deriving DecidableEq

/-- The lists of one row. A list the SDK has not is `undefined`, and reading it throws. -/
def comparedLists (doc : Facts α) (sdk : SdkLists α) (row : Row) : Except Failure (Compared α) :=
  match doc row.list with
  | some (.cases canonical) =>
      match sdk row.list with
      | some sdkList => .ok ⟨row, sdkList, canonical⟩
      | none => .error .thrown
  | _ => .error (.parity ("shared-facts.json has no '" ++ row.list ++ "' list"))

/-- Cases of the core the SDK has not. -/
def missingInSdk (sdkList canonical : List α) : List α := canonical.filter (· ∉ sdkList)

/-- Cases of the SDK the core has not. -/
def extraInSdk (sdkList canonical : List α) : List α := sdkList.filter (· ∉ canonical)

/-- Cases that stand twice in the list of the SDK, in the order `le`. -/
def duplicateInSdk (sdkList : List α) : List α :=
  ((sdkList.zipIdx.filter fun s => sdkList.idxOf s.1 ≠ s.2).map Prod.fst).eraseDups.mergeSort le

/-- The test of the script: `sectionOk`. -/
def noDrift (sdkList canonical : List α) : Bool :=
  (missingInSdk sdkList canonical).length == 0 && (extraInSdk sdkList canonical).length == 0 &&
    (duplicateInSdk le sdkList).length == 0

/-- The section of a row. -/
def sectionOf (drift : List α → List α → Bool) (c : Compared α) : Section α where
  list := c.row.list
  exportName := c.row.exportName
  module := "dist/" ++ c.row.module
  canonicalCount := c.canonical.length
  sdkCount := c.sdkList.length
  missingInSdk := missingInSdk c.sdkList c.canonical
  extraInSdk := extraInSdk c.sdkList c.canonical
  duplicateInSdk := duplicateInSdk le c.sdkList
  ok := drift c.sdkList c.canonical

/-- The report of the sections. -/
def reportOf (file : FactsFile α) (sections : List (Section α)) : Report α where
  check := "g12-sdk-parity"
  sdk := "trueseal-sync-ts"
  factsPath := file.path
  factsSha256 := file.sha256
  factsSdkVersion := file.sdkVersion
  sections := sections
  ok := sections.all (·.ok)

/-- `compare`, with the test `drift` in the place of `sectionOk`. -/
def compare (drift : List α → List α → Bool) (file : FactsFile α) (fs : FileSystem Text)
    (distDir : Path) : Except Failure (Report α) :=
  match file.document with
  | none => .error .thrown
  | some doc => do
      let sdk ← loadSdkLists machine fs distDir
      let sections ← LIST_MAP.mapM fun row =>
        (sectionOf le drift) <$> comparedLists doc sdk row
      return reportOf file sections

end Comparison

/-! ## 4. The comparison reads first and tests afterwards -/

section Comparison

variable {α : Type} {machine : Machine α} {file : FactsFile α} {fs : FileSystem Text}
  {distDir : Path}

/-- The rows with their lists, before any of them is tested. -/
def comparedRows (machine : Machine α) (file : FactsFile α) (fs : FileSystem Text)
    (distDir : Path) : Except Failure (List (Compared α)) :=
  match file.document with
  | none => .error .thrown
  | some doc => do
      let sdk ← loadSdkLists machine fs distDir
      LIST_MAP.mapM (comparedLists doc sdk)

/-- What the rows are: the rows of the table, each with the list of the document and the list of
    the SDK under its name. -/
theorem comparedRows_ok {rows : List (Compared α)}
    (h : comparedRows machine file fs distDir = .ok rows) :
    ∃ doc sdk, file.document = some doc ∧ loadSdkLists machine fs distDir = .ok sdk ∧
      LIST_MAP.mapM (comparedLists doc sdk) = .ok rows := by
  unfold comparedRows at h
  cases hdoc : file.document with
  | none => rw [hdoc] at h; cases h
  | some doc =>
      rw [hdoc] at h
      obtain ⟨sdk, hsdk, hread⟩ := bind_ok h
      exact ⟨doc, sdk, rfl, hsdk, hread⟩

theorem comparedLists_ok {doc : Facts α} {sdk : SdkLists α} {row : Row} {c : Compared α} :
    comparedLists doc sdk row = .ok c ↔
      c.row = row ∧ doc row.list = some (.cases c.canonical) ∧ sdk row.list = some c.sdkList := by
  unfold comparedLists
  obtain ⟨r, sdkList, canonical⟩ := c
  rcases doc row.list with _ | names | _
  · simp
  · cases sdk row.list with
    | none => simp
    | some l => simp; tauto
  · simp

/-- **There is one row for each name.** -/
theorem comparedRows_unique {rows : List (Compared α)} {c c' : Compared α}
    (h : comparedRows machine file fs distDir = .ok rows) (hc : c ∈ rows) (hc' : c' ∈ rows)
    (hname : c.row.list = c'.row.list) : c = c' := by
  obtain ⟨doc, sdk, -, -, hread⟩ := comparedRows_ok h
  obtain ⟨row, hrow, hlists⟩ := (mapM_ok_mem hread).2 c hc
  obtain ⟨row', hrow', hlists'⟩ := (mapM_ok_mem hread).2 c' hc'
  have hrows : row = row' := by
    rw [(comparedLists_ok.mp hlists).1, (comparedLists_ok.mp hlists').1] at hname
    exact List.inj_on_of_nodup_map (f := (·.list)) (l := LIST_MAP) (by decide) hrow hrow' hname
  rw [hrows, hlists'] at hlists
  exact (Except.ok.inj hlists).symm

variable [DecidableEq α] {le : α → α → Bool} {drift : List α → List α → Bool}

/-- **Which rows are read does not depend on the test.** -/
theorem compare_eq : compare le machine drift file fs distDir =
    (fun rows => reportOf file (rows.map (sectionOf le drift))) <$>
      comparedRows machine file fs distDir := by
  unfold compare comparedRows
  cases file.document with
  | none => rfl
  | some doc =>
      cases loadSdkLists machine fs distDir with
      | error e => rfl
      | ok sdk =>
          show (LIST_MAP.mapM fun row => (sectionOf le drift) <$> comparedLists doc sdk row) >>= _ =
            _ <$> LIST_MAP.mapM (comparedLists doc sdk)
          rw [mapM_map]
          cases LIST_MAP.mapM (comparedLists doc sdk) <;> rfl

theorem reportOf_ok (rows : List (Compared α)) :
    (reportOf file (rows.map (sectionOf le drift))).ok = true ↔
      ∀ c ∈ rows, drift c.sdkList c.canonical = true := by
  simp [reportOf, sectionOf]

/-- **When the comparison passes**: every row is read, and the test accepts its lists. -/
theorem compare_passes_iff :
    (∃ report, compare le machine drift file fs distDir = .ok report ∧ report.ok = true) ↔
      ∃ rows, comparedRows machine file fs distDir = .ok rows ∧
        ∀ c ∈ rows, drift c.sdkList c.canonical = true := by
  rw [compare_eq]
  cases comparedRows machine file fs distDir with
  | error e => simp [Functor.map, Except.map]
  | ok rows => simp [Functor.map, Except.map, reportOf_ok]

end Comparison

/-! ## 5. What the gate covers -/

section Gate

variable {α : Type}

/-- The names a run over the rows fills in. -/
theorem exportedArrays_isSome {modules : String → Option (Exports α)} {rows : List Row}
    {lists sdk : SdkLists α} (h : exportedArrays modules rows lists = .ok sdk) (name : String) :
    (sdk name).isSome = true ↔ (lists name).isSome = true ∨ ∃ row ∈ rows, row.list = name := by
  induction rows generalizing lists with
  | nil => cases h; simp
  | cons row rows ih =>
      obtain ⟨value, -, h⟩ := bind_ok h
      rw [ih h]
      by_cases hn : name = row.list
      · subst hn
        simp
      · rw [Function.update_of_ne hn]
        simp [Ne.symm hn]

/-- **The SDK has a list under a name exactly where the table has a row for it.** -/
theorem loadSdkLists_isSome {machine : Machine α} {fs : FileSystem Text} {distDir : Path}
    {sdk : SdkLists α} (h : loadSdkLists machine fs distDir = .ok sdk) (name : String) :
    (sdk name).isSome = true ↔ ∃ row ∈ LIST_MAP, row.list = name := by
  obtain ⟨modules, -, h⟩ := bind_ok h
  rw [exportedArrays_isSome h name]
  simp

/-- A machine on which importing gives these lists. -/
def machineOf (lists : String → List α) : Machine α where
  load := fun _ _ => some fun exportName =>
    (LIST_MAP.find? (·.exportName = exportName)).map (lists ·.list)
  tmpdir := []
  unique := fun _ => ""

/-- Where every module is there and gives the same exports, all of them are imported. -/
theorem importModules_const (machine : Machine α) {exports : Exports α} (text : Text)
    (hload : ∀ fs path, machine.load fs path = some exports) (distDir : Path) (rows : List Row)
    (modules : String → Option (Exports α)) (hmodules : ∀ m e, modules m = some e → e = exports) :
    ∃ modules', importModules machine (fun _ => some text) distDir rows modules = .ok modules' ∧
      (∀ m, (modules m).isSome = true → modules' m = some exports) ∧
      ∀ row ∈ rows, modules' row.module = some exports := by
  induction rows generalizing modules with
  | nil =>
      refine ⟨modules, rfl, fun m hm => ?_, by simp⟩
      obtain ⟨e, he⟩ := Option.isSome_iff_exists.mp hm
      rw [he, hmodules m e he]
  | cons row rows ih =>
      by_cases hrow : (modules row.module).isSome = true
      · obtain ⟨modules', himport, hkept, hall⟩ := ih modules hmodules
        refine ⟨modules', by rw [importModules, if_pos hrow, himport], hkept, ?_⟩
        rintro row' (_ | ⟨_, hrow'⟩)
        · exact hkept _ hrow
        · exact hall row' hrow'
      · have hupdate : ∀ m e, Function.update modules row.module (some exports) m = some e →
            e = exports := by
          intro m e he
          by_cases hm : m = row.module
          · rw [hm, Function.update_self] at he
            exact (Option.some.inj he).symm
          · rw [Function.update_of_ne hm] at he
            exact hmodules m e he
        obtain ⟨modules', himport, hkept, hall⟩ := ih _ hupdate
        refine ⟨modules', ?_, fun m hm => hkept m ?_, ?_⟩
        · rw [importModules, if_neg hrow]
          simp only [Option.isNone_some, Bool.false_eq_true, if_false, hload]
          exact himport
        · by_cases heq : m = row.module
          · rw [heq, Function.update_self]
            rfl
          · rw [Function.update_of_ne heq]
            exact hm
        · rintro row' (_ | ⟨_, hrow'⟩)
          · exact hkept _ (by rw [Function.update_self]; rfl)
          · exact hall row' hrow'

/-- Where every row has its array, the lists are these arrays. -/
theorem exportedArrays_ok {modules : String → Option (Exports α)} {value : String → List α}
    {rows : List Row} (hrows : ∀ row ∈ rows, exportedArray modules row = .ok (value row.list))
    (lists : SdkLists α) (hlists : ∀ name v, lists name = some v → v = value name) :
    ∃ sdk, exportedArrays modules rows lists = .ok sdk ∧
      ∀ name v, sdk name = some v → v = value name := by
  induction rows generalizing lists with
  | nil => exact ⟨lists, rfl, hlists⟩
  | cons row rows ih =>
      have hupdate : ∀ name v, Function.update lists row.list (some (value row.list)) name =
          some v → v = value name := by
        intro name v hv
        by_cases hn : name = row.list
        · rw [hn, Function.update_self] at hv
          rw [hn, Option.some.inj hv]
        · rw [Function.update_of_ne hn] at hv
          exact hlists name v hv
      obtain ⟨sdk, hsdk, hvalues⟩ :=
        ih (fun row' hrow' => hrows row' (List.mem_cons_of_mem _ hrow')) _ hupdate
      refine ⟨sdk, ?_, hvalues⟩
      rw [exportedArrays, hrows row List.mem_cons_self]
      exact hsdk

/-- **Any nine lists can be the compiled ones.** -/
theorem loadSdkLists_machineOf (lists : String → List α) (distDir : Path) :
    ∃ sdk, loadSdkLists (machineOf lists) (fun _ => some []) distDir = .ok sdk ∧
      ∀ row ∈ LIST_MAP, sdk row.list = some (lists row.list) := by
  obtain ⟨modules, himport, -, hmodules⟩ := importModules_const (machineOf lists) []
    (fun _ _ => rfl) distDir LIST_MAP (fun _ => none) (by simp)
  have hrows : ∀ row ∈ LIST_MAP, exportedArray modules row = .ok (lists row.list) := by
    intro row hrow
    have hfind : LIST_MAP.find? (·.exportName = row.exportName) = some row := by
      revert row
      decide
    simp [exportedArray, hmodules row hrow, hfind]
  obtain ⟨sdk, hsdk, hvalues⟩ := exportedArrays_ok hrows (fun _ => none) (by simp)
  have hload : loadSdkLists (machineOf lists) (fun _ => some []) distDir = .ok sdk := by
    unfold loadSdkLists
    rw [himport]
    exact hsdk
  refine ⟨sdk, hload, fun row hrow => ?_⟩
  obtain ⟨v, hv⟩ := Option.isSome_iff_exists.mp
    ((loadSdkLists_isSome hload row.list).mpr ⟨row, hrow, rfl⟩)
  rw [hv, hvalues _ _ hv]

variable [DecidableEq α] {le : α → α → Bool}

/-- Nothing stands twice exactly where every item is where it is first found. -/
theorem duplicateInSdk_eq_nil (sdkList : List α) :
    duplicateInSdk le sdkList = [] ↔ sdkList.Nodup := by
  have hnil : duplicateInSdk le sdkList = [] ↔
      ∀ i (h : i < sdkList.length), sdkList.idxOf (sdkList.get ⟨i, h⟩) = i := by
    unfold duplicateInSdk
    rw [← List.length_eq_zero_iff, List.length_mergeSort, List.length_eq_zero_iff]
    constructor
    · intro h i hi
      by_contra hne
      have hmem : sdkList.get ⟨i, hi⟩ ∈ ((sdkList.zipIdx.filter fun s =>
          sdkList.idxOf s.1 ≠ s.2).map Prod.fst).eraseDups := by
        rw [List.mem_eraseDups, List.mem_map]
        refine ⟨(sdkList.get ⟨i, hi⟩, i), List.mem_filter.mpr ⟨?_, by simpa using hne⟩, rfl⟩
        exact List.mk_mem_zipIdx_iff_getElem?.mpr (List.getElem?_eq_getElem hi)
      rw [h] at hmem
      cases hmem
    · intro h
      refine List.eq_nil_iff_forall_not_mem.mpr fun x hx => ?_
      rw [List.mem_eraseDups, List.mem_map] at hx
      obtain ⟨⟨y, i⟩, hy, -⟩ := hx
      obtain ⟨hmem, hne⟩ := List.mem_filter.mp hy
      obtain ⟨hi, rfl⟩ := List.getElem?_eq_some_iff.mp (List.mk_mem_zipIdx_iff_getElem?.mp hmem)
      exact absurd (h i hi) (by simpa using hne)
  rw [hnil]
  constructor
  · intro h
    refine List.nodup_iff_injective_get.mpr fun i j hij => Fin.ext ?_
    rw [← h i.1 i.2, ← h j.1 j.2]
    exact congrArg sdkList.idxOf hij
  · intro h i hi
    exact h.idxOf_getElem i hi

/-- **The script's test**: no case stands twice in the list of the SDK, and the lists have the same
    cases. -/
theorem noDrift_iff (sdkList canonical : List α) : noDrift le sdkList canonical = true ↔
    sdkList.Nodup ∧ ∀ x, x ∈ sdkList ↔ x ∈ canonical := by
  have hmissing : missingInSdk sdkList canonical = [] ↔ ∀ x ∈ canonical, x ∈ sdkList := by
    simp [missingInSdk]
  have hextra : extraInSdk sdkList canonical = [] ↔ ∀ x ∈ sdkList, x ∈ canonical := by
    simp [extraInSdk]
  unfold noDrift
  simp only [Bool.and_eq_true, beq_iff_eq, List.length_eq_zero_iff]
  rw [hmissing, hextra, duplicateInSdk_eq_nil]
  constructor
  · intro h
    obtain ⟨⟨hm, he⟩, hd⟩ := h
    exact ⟨hd, fun x => ⟨he x, hm x⟩⟩
  · intro h
    obtain ⟨hd, h⟩ := h
    exact ⟨⟨fun x => (h x).mpr, fun x => (h x).mp⟩, hd⟩

/-- **When the gate passes**: every row of the table has a list in the document and one in the SDK,
    with the same cases, and the one in the SDK has each case once. -/
theorem compare_noDrift {machine : Machine α} {file : FactsFile α} {fs : FileSystem Text}
    {distDir : Path} {doc : Facts α} {sdk : SdkLists α} (hdoc : file.document = some doc)
    (hsdk : loadSdkLists machine fs distDir = .ok sdk) :
    (∃ report, compare le machine (noDrift le) file fs distDir = .ok report ∧ report.ok = true) ↔
      ∀ row ∈ LIST_MAP, ∃ canonical sdkList, doc row.list = some (.cases canonical) ∧
        sdk row.list = some sdkList ∧ sdkList.Nodup ∧ ∀ x, x ∈ sdkList ↔ x ∈ canonical := by
  have hrows : comparedRows machine file fs distDir = LIST_MAP.mapM (comparedLists doc sdk) := by
    unfold comparedRows
    rw [hdoc, hsdk]
    rfl
  rw [compare_passes_iff, hrows]
  constructor
  · rintro ⟨rows, hread, hok⟩ row hrow
    obtain ⟨c, hc, hlists⟩ := (mapM_ok_mem hread).1 row hrow
    obtain ⟨-, hcanonical, hlist⟩ := comparedLists_ok.mp hlists
    exact ⟨c.canonical, c.sdkList, hcanonical, hlist, (noDrift_iff _ _).mp (hok c hc)⟩
  · intro h
    obtain ⟨rows, hread⟩ := exists_mapM_ok (comparedLists doc sdk) LIST_MAP fun row hrow => by
      obtain ⟨canonical, sdkList, hcanonical, hlist, -⟩ := h row hrow
      exact ⟨⟨row, sdkList, canonical⟩, comparedLists_ok.mpr ⟨rfl, hcanonical, hlist⟩⟩
    refine ⟨rows, hread, fun c hc => ?_⟩
    obtain ⟨row, hrow, hlists⟩ := (mapM_ok_mem hread).2 c hc
    obtain ⟨-, hcanonical, hlist⟩ := comparedLists_ok.mp hlists
    obtain ⟨canonical, sdkList, hcanonical', hlist', hsame⟩ := h row hrow
    rw [hcanonical] at hcanonical'
    rw [hlist] at hlist'
    cases hcanonical'
    cases hlist'
    exact (noDrift_iff _ _).mpr hsame

/-- The lists of the document and the lists of the SDK correspond: every list of the document has
    a list of its name in the SDK, which is a reordering of it and has each case once, and no list
    of the SDK is left over. -/
structure Corresponds (doc : Facts α) (sdk : SdkLists α) : Prop where
  matched : ∀ name canonical, doc name = some (.cases canonical) →
    ∃ sdkList, sdk name = some sdkList ∧ sdkList.Perm canonical ∧ sdkList.Nodup
  listed : ∀ name sdkList, sdk name = some sdkList → ∃ canonical, doc name = some (.cases canonical)

/-- The gate covers the document: whatever lists are compiled, it passes exactly where they
    correspond to the lists of the document. -/
def GateCovers (le : α → α → Bool) (doc : Facts α) : Prop :=
  ∀ (machine : Machine α) (file : FactsFile α) (fs : FileSystem Text) (distDir : Path)
    (sdk : SdkLists α), file.document = some doc → loadSdkLists machine fs distDir = .ok sdk →
    ((∃ report, compare le machine (noDrift le) file fs distDir = .ok report ∧ report.ok = true) ↔
      Corresponds doc sdk)

/-- Every row of the table has its list in the document. -/
def HasEveryList (doc : Facts α) : Prop :=
  ∀ row ∈ LIST_MAP, ∃ canonical, doc row.list = some (.cases canonical)

/-- No list of the document is without a row, and none has a case twice. -/
def OnlyListedCases (doc : Facts α) : Prop :=
  ∀ name canonical, doc name = some (.cases canonical) →
    (∃ row ∈ LIST_MAP, row.list = name) ∧ canonical.Nodup

/-- **The gate covers the facts exactly where it throws on them, or they hold the nine lists and no
    other, no case twice.** A list the core adds passes unseen, and so does a case the core lists
    twice. -/
theorem parity_gate_exact (le : α → α → Bool) (doc : Facts α) :
    GateCovers le doc ↔ (HasEveryList doc → OnlyListedCases doc) := by
  constructor
  · intro hcovers hall name canonical hname
    -- compiled from the document itself, without repetitions, the lists pass
    let lists : String → List α := fun name =>
      match doc name with
      | some (.cases canonical) => canonical.dedup
      | _ => []
    obtain ⟨sdk, hsdk, hlists⟩ := loadSdkLists_machineOf lists []
    have hpass : ∃ report, compare le (machineOf lists) (noDrift le) ⟨"", "", none, some doc⟩
        (fun _ => some []) [] = .ok report ∧ report.ok = true := by
      refine (compare_noDrift rfl hsdk).mpr fun row hrow => ?_
      obtain ⟨cases, hcases⟩ := hall row hrow
      refine ⟨cases, cases.dedup, hcases, ?_, cases.nodup_dedup, fun x => List.mem_dedup⟩
      rw [hlists row hrow]
      simp only [lists, hcases]
    have hcorr := (hcovers _ _ _ _ sdk rfl hsdk).mp hpass
    obtain ⟨sdkList, hsome, hperm, hnodup⟩ := hcorr.matched name canonical hname
    refine ⟨(loadSdkLists_isSome hsdk name).mp (by rw [hsome]; rfl), ?_⟩
    exact hperm.nodup_iff.mp hnodup
  · intro hclean machine file fs distDir sdk hdoc hsdk
    rw [compare_noDrift hdoc hsdk]
    constructor
    · intro hrows
      have hall : HasEveryList doc := fun row hrow => by
        obtain ⟨canonical, _, hcanonical, -⟩ := hrows row hrow
        exact ⟨canonical, hcanonical⟩
      constructor
      · intro name canonical hname
        obtain ⟨⟨row, hrow, rfl⟩, hnodup⟩ := hclean hall name canonical hname
        obtain ⟨canonical', sdkList, hcanonical, hlist, hdistinct, hsame⟩ := hrows row hrow
        rw [hname] at hcanonical
        cases hcanonical
        exact ⟨sdkList, hlist, (List.perm_ext_iff_of_nodup hdistinct hnodup).mpr hsame, hdistinct⟩
      · intro name sdkList hsome
        obtain ⟨row, hrow, rfl⟩ := (loadSdkLists_isSome hsdk name).mp (by rw [hsome]; rfl)
        exact hall row hrow
    · intro hcorr row hrow
      obtain ⟨sdkList, hlist⟩ := Option.isSome_iff_exists.mp
        ((loadSdkLists_isSome hsdk row.list).mpr ⟨row, hrow, rfl⟩)
      obtain ⟨canonical, hcanonical⟩ := hcorr.listed _ _ hlist
      obtain ⟨sdkList', hlist', hperm, hnodup⟩ := hcorr.matched _ _ hcanonical
      rw [hlist] at hlist'
      cases hlist'
      exact ⟨canonical, sdkList, hcanonical, hlist, hnodup, fun x => hperm.mem_iff⟩

/-- The nine lists of Parity/shared-facts.json. -/
def sharedFactsLists : String → List String
  | "errors" =>
      ["invalidRelayAddress", "invalidNamespace", "storage", "closed", "notMember",
       "alreadyInGroup", "invalidPairingToken", "pairingClosed", "groupFull", "memberNotFound",
       "payloadTooLarge", "messageHandlerAlreadySet", "storeTooNew", "manifestVersionExhausted"]
  | "events" =>
      ["statusChanged", "membersChanged", "joinRequest", "connectionChanged", "admissionDropped"]
  | "statuses" => ["notJoined", "pendingJoin", "member", "leaving", "destroying"]
  | "statusReasons" => ["created", "joined", "left", "removed", "destroyed", "storeReset"]
  | "connectionStates" => ["connecting", "connected", "disconnected", "relayVersionUnsupported"]
  | "deliveryIssues" =>
      ["unreadable", "unauthorized", "heldForUpgrade", "handlerGaveUp", "sendFailed"]
  | "unreadableReasons" => ["malformed", "senderOutdated", "expired", "droppedWhileHeld"]
  | "sendFailedReasons" => ["tooLarge", "malformed", "expired"]
  | "admissionDropReasons" => ["groupFull"]
  | _ => []

/-- The default order of `sort` on these names, which are all in ASCII. -/
def nameOrder (a b : String) : Bool := decide (a ≤ b)

/-- The document with a list the core added. -/
def grownFacts : Facts String := fun name =>
  if name = "pairingStates" then some (.cases ["waiting"])
  else if LIST_MAP.any (·.list = name) then some (.cases (sharedFactsLists name))
  else none

/-- **The core adds a list, and the gate passes.** -/
theorem added_list_passes : ∃ sdk,
    loadSdkLists (machineOf sharedFactsLists) (fun _ => some []) ["dist"] = .ok sdk ∧
    (∃ report, compare nameOrder (machineOf sharedFactsLists) (noDrift nameOrder)
        ⟨"Parity/shared-facts.json", "", none, some grownFacts⟩ (fun _ => some []) ["dist"] =
          .ok report ∧ report.ok = true) ∧
      ¬ Corresponds grownFacts sdk := by
  obtain ⟨sdk, hsdk, hlists⟩ := loadSdkLists_machineOf sharedFactsLists ["dist"]
  refine ⟨sdk, hsdk, (compare_noDrift rfl hsdk).mpr fun row hrow => ?_, fun hcorr => ?_⟩
  · refine ⟨sharedFactsLists row.list, sharedFactsLists row.list, ?_, hlists row hrow, ?_,
      fun x => Iff.rfl⟩
    · revert row
      simp [LIST_MAP, grownFacts]
    · revert row
      simp [LIST_MAP, sharedFactsLists]
  · obtain ⟨sdkList, hsome, -⟩ := hcorr.matched "pairingStates" ["waiting"] rfl
    have hrow := (loadSdkLists_isSome hsdk "pairingStates").mp (by rw [hsome]; rfl)
    simp [LIST_MAP] at hrow

end Gate

end TrueSealSync.Release
