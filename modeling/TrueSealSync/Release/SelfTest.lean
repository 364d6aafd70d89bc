/-
  File:      TrueSealSync/Release/SelfTest.lean
  Subject:   THE SELF-TEST OF THE PARITY GATE, which is to prove that the gate can fail.

  Modelled from scripts/check-parity.mjs. The self-test changes the statuses in copies of the
  compiled output and compares each copy; whatever the comparison throws counts as a catch.

  * `mutations`, `allCaught`, `selfTest` -- the script;
  * `mutatedCopies_index` -- what lies in a copy and beside it;
  * `selfTest_true_iff` -- when the self-test passes;
  * `selfTest_blind` -- where the copies cannot be imported it passes for every test;
  * `selfTest_exact` -- the trees on which it really tests the comparison.
-/
import TrueSealSync.Release.Parity

namespace TrueSealSync.Release

open TrueSealSync.Lib
open TrueSealSync.Lib.Fallible (bind_ok)

/-! ## 1. The self-test -/

section SelfTest

variable {α : Type} [DecidableEq α] (le : α → α → Bool) (machine : Machine α)
  (drift : List α → List α → Bool) (file : FactsFile α)

/-- The text the mutations look for. -/
def notJoined : Text := "'notJoined'".toList

/-- The same with the comma and the end of the line. -/
def notJoinedLine : Text := "'notJoined',\n".toList

/-- `mutations`. -/
def mutations (original : Text) : List (String × Text) :=
  [ ("renamed case", replaceFirst notJoined "'notJoinedRenamed'".toList original),
    ("missing case", replaceFirst notJoinedLine [] original),
    ("extra case", replaceFirst notJoinedLine
      "'notJoined',\n  'anExtraCaseTheCoreDoesNotHave',\n".toList original) ]

/-- `mkdtempSync`. -/
def mkdtemp (fs : FileSystem Text) : Path :=
  machine.tmpdir ++ ["trueseal-parity-selftest-" ++ machine.unique fs]

/-- The copy of the compiled output with the vocabularies replaced. -/
def mutatedCopy (fs : FileSystem Text) (distDir : Path) (mutated : Text) : FileSystem Text :=
  (fs.copyTree distDir (mkdtemp machine fs)).write (mkdtemp machine fs ++ [vocabularies]) mutated

/-- `caughtOk`: the comparison passes on the copy. Whatever it throws counts as caught. -/
def caughtOk (fs : FileSystem Text) (tmp : Path) : Bool :=
  match compare le machine drift file fs tmp with
  | .ok report => report.ok
  | .error _ => false

/-- The loop over the mutations: `allCaught`. -/
def allCaught (distDir : Path) (original : Text) :
    FileSystem Text → List (String × Text) → Bool
  | _, [] => true
  | fs, (_, mutated) :: rest =>
      if mutated = original then
        false && allCaught distDir original fs rest
      else
        !caughtOk le machine drift file (mutatedCopy machine fs distDir mutated)
            (mkdtemp machine fs) &&
          allCaught distDir original (mutatedCopy machine fs distDir mutated) rest

/-- `selfTest`. -/
def selfTest (fs : FileSystem Text) (distDir : Path) : Except Failure Bool := do
  let pristine ← compare le machine drift file fs distDir
  if !pristine.ok then
    return false
  match fs (distDir ++ [vocabularies]) with
  | none => .error .thrown
  | some original =>
      if !occursIn notJoined original then
        return false
      return allCaught le machine drift file distDir original fs (mutations original)

/-- A copy: the files at the time it is compared, and its directory. -/
structure Copy where
  files : FileSystem Text
  dir : Path

/-- The copies the loop compares, one for each mutation that applies. -/
def mutatedCopies (distDir : Path) (original : Text) :
    FileSystem Text → List (String × Text) → List Copy
  | _, [] => []
  | fs, (_, mutated) :: rest =>
      if mutated = original then mutatedCopies distDir original fs rest
      else ⟨mutatedCopy machine fs distDir mutated, mkdtemp machine fs⟩ ::
        mutatedCopies distDir original (mutatedCopy machine fs distDir mutated) rest

end SelfTest

/-! ## 2. What the self-test tests -/

section Copies

variable {α : Type} {machine : Machine α} {distDir : Path} {original : Text}

theorem mutatedCopies_length {muts : List (String × Text)} (h : ∀ m ∈ muts, m.2 ≠ original)
    (fs : FileSystem Text) :
    (mutatedCopies machine distDir original fs muts).length = muts.length := by
  induction muts generalizing fs with
  | nil => rfl
  | cons m muts ih =>
      rw [mutatedCopies, if_neg (h m List.mem_cons_self), List.length_cons, List.length_cons,
        ih fun m' hm' => h m' (List.mem_cons_of_mem _ hm')]

theorem tempName_ne (suffix : String) : "trueseal-parity-selftest-" ++ suffix ≠ "index.js" := by
  intro h
  have := congrArg String.toList h
  simp at this

/-- **Making a copy changes nothing in the directory of the temporary files itself.** -/
theorem mutatedCopy_beside (fs : FileSystem Text) (mutated : Text) :
    mutatedCopy machine fs distDir mutated (machine.tmpdir ++ ["index.js"]) =
      fs (machine.tmpdir ++ ["index.js"]) := by
  unfold mutatedCopy
  have hlength : machine.tmpdir ++ ["index.js"] ≠ mkdtemp machine fs ++ [vocabularies] := by
    intro h
    have := congrArg List.length h
    simp [mkdtemp] at this
  rw [FileSystem.write_of_ne _ _ hlength, FileSystem.copyTree_outside]
  intro hprefix
  have heq := hprefix.eq_of_length (by simp [mkdtemp])
  exact tempName_ne _ (by simpa [mkdtemp] using heq)

/-- Nor anywhere outside that directory. -/
theorem mutatedCopy_outside {path : Path} (fs : FileSystem Text) (mutated : Text)
    (h : ¬ machine.tmpdir <+: path) : mutatedCopy machine fs distDir mutated path = fs path := by
  unfold mutatedCopy
  have hne : path ≠ mkdtemp machine fs ++ [vocabularies] := by
    rintro rfl
    exact h ⟨_, (List.append_assoc ..).symm⟩
  rw [FileSystem.write_of_ne _ _ hne, FileSystem.copyTree_outside]
  exact fun hprefix => h ((List.prefix_append _ _).trans hprefix)

/-- The index.js of a copy is the one of the compiled output. -/
theorem mutatedCopy_index {text : Text} (fs : FileSystem Text) (mutated : Text)
    (h : fs (distDir ++ ["index.js"]) = some text) :
    mutatedCopy machine fs distDir mutated (mkdtemp machine fs ++ ["index.js"]) = some text := by
  unfold mutatedCopy
  rw [FileSystem.write_of_ne _ _ (by simp [vocabularies]), FileSystem.copyTree_inside, h]
  rfl

/-- Every copy lies directly in the directory of the temporary files, has the index.js of the
    compiled output, and beside it there is an index.js only if there was one before. -/
theorem mutatedCopies_index {muts : List (String × Text)} {fs : FileSystem Text} {copy : Copy}
    {text : Text} (hdist : ¬ machine.tmpdir <+: distDir ++ ["index.js"])
    (htext : fs (distDir ++ ["index.js"]) = some text)
    (h : copy ∈ mutatedCopies machine distDir original fs muts) :
    copy.dir.dropLast = machine.tmpdir ∧ copy.files (copy.dir ++ ["index.js"]) = some text ∧
      copy.files (machine.tmpdir ++ ["index.js"]) = fs (machine.tmpdir ++ ["index.js"]) := by
  induction muts generalizing fs with
  | nil => cases h
  | cons m muts ih =>
      rw [mutatedCopies] at h
      split at h
      · exact ih htext h
      · rcases List.mem_cons.mp h with rfl | h
        · exact ⟨by simp [mkdtemp], mutatedCopy_index fs m.2 htext, mutatedCopy_beside fs m.2⟩
        · obtain ⟨hdir, hindex, hbeside⟩ := ih ((mutatedCopy_outside fs m.2 hdist).trans htext) h
          exact ⟨hdir, hindex, by rw [hbeside, mutatedCopy_beside]⟩

/-- The first module of a run over the rows is there, and importing it works. -/
theorem importModules_head {fs : FileSystem Text} {row : Row} {rows : List Row}
    {modules : String → Option (Exports α)}
    (h : importModules machine fs distDir (row :: rows) (fun _ => none) = .ok modules) :
    (∃ text, fs (distDir ++ [row.module]) = some text) ∧
      machine.load fs (distDir ++ [row.module]) ≠ none := by
  rw [importModules, if_neg (by simp)] at h
  cases hfile : fs (distDir ++ [row.module]) with
  | none => rw [hfile] at h; cases h
  | some text =>
      refine ⟨⟨text, rfl⟩, fun hload => ?_⟩
      rw [hfile, hload] at h
      cases h

/-- What was compared had its first module. -/
theorem index_of_comparedRows {file : FactsFile α} {fs : FileSystem Text}
    {rows : List (Compared α)} (h : comparedRows machine file fs distDir = .ok rows) :
    (∃ text, fs (distDir ++ ["index.js"]) = some text) ∧
      machine.load fs (distDir ++ ["index.js"]) ≠ none := by
  obtain ⟨doc, sdk, -, hsdk, -⟩ := comparedRows_ok h
  obtain ⟨modules, himport, -⟩ := bind_ok hsdk
  exact importModules_head himport

/-- The pairs of lists the rows compare. -/
def pairs (rows : List (Compared α)) : List (List α × List α) :=
  rows.map fun c => (c.sdkList, c.canonical)

theorem accepted_of_mem_pairs {drift : List α → List α → Bool} {rows : List (Compared α)}
    (hok : ∀ c ∈ rows, drift c.sdkList c.canonical = true) {sdkList canonical : List α}
    (h : (sdkList, canonical) ∈ pairs rows) : drift sdkList canonical = true := by
  obtain ⟨c, hc, hpair⟩ := List.mem_map.mp h
  obtain ⟨rfl, rfl⟩ := Prod.mk.inj hpair
  exact hok c hc

end Copies

section SelfTest

variable {α : Type} [DecidableEq α] {le : α → α → Bool} {machine : Machine α}
  {drift : List α → List α → Bool} {file : FactsFile α} {fs : FileSystem Text} {distDir : Path}

theorem caughtOk_iff {tmp : Path} : caughtOk le machine drift file fs tmp = true ↔
    ∃ rows, comparedRows machine file fs tmp = .ok rows ∧
      ∀ c ∈ rows, drift c.sdkList c.canonical = true := by
  have hpasses : (∃ report, compare le machine drift file fs tmp = .ok report ∧ report.ok = true) ↔
      _ := compare_passes_iff
  rw [← hpasses, caughtOk]
  cases compare le machine drift file fs tmp <;> simp

/-- **The loop**: every mutation applies, and the comparison passes on none of the copies. -/
theorem allCaught_iff {original : Text} {muts : List (String × Text)} :
    allCaught le machine drift file distDir original fs muts = true ↔
      (∀ m ∈ muts, m.2 ≠ original) ∧
        ∀ copy ∈ mutatedCopies machine distDir original fs muts,
          ¬ caughtOk le machine drift file copy.files copy.dir = true := by
  induction muts generalizing fs with
  | nil => simp [allCaught, mutatedCopies]
  | cons m muts ih =>
      obtain ⟨name, mutated⟩ := m
      rw [allCaught, mutatedCopies]
      by_cases hm : mutated = original
      · simp [hm]
      · rw [if_neg hm, if_neg hm, Bool.and_eq_true, ih]
        simp [hm]
        tauto

/-- The self-test gets to its copies: the compiled output is read, the pattern is there and every
    mutation changes the text. Nothing here depends on the test. -/
structure Reaches (machine : Machine α) (file : FactsFile α) (fs : FileSystem Text)
    (distDir : Path) (rows : List (Compared α)) (original : Text) : Prop where
  read : comparedRows machine file fs distDir = .ok rows
  text : fs (distDir ++ [vocabularies]) = some original
  pattern : occursIn notJoined original = true
  applies : ∀ m ∈ mutations original, m.2 ≠ original

/-- The three copies. -/
def copies (machine : Machine α) (fs : FileSystem Text) (distDir : Path) (original : Text) :
    List Copy :=
  mutatedCopies machine distDir original fs (mutations original)

/-- **When the self-test passes**: the test accepts every row of the compiled output, and on no
    copy every row is read and accepted. -/
theorem selfTest_true_iff : selfTest le machine drift file fs distDir = .ok true ↔
    ∃ rows original, Reaches machine file fs distDir rows original ∧
      (∀ c ∈ rows, drift c.sdkList c.canonical = true) ∧
      ∀ copy ∈ copies machine fs distDir original,
        ¬ caughtOk le machine drift file copy.files copy.dir = true := by
  constructor
  · intro h
    unfold selfTest at h
    rw [compare_eq] at h
    cases hrows : comparedRows machine file fs distDir with
    | error e => rw [hrows] at h; cases h
    | ok rows =>
        rw [hrows] at h
        simp only [Functor.map, Except.map, bind, Except.bind, pure, Except.pure] at h
        split at h
        · cases h
        · rename_i hok
          simp only [Bool.not_eq_eq_eq_not, Bool.not_true, Bool.not_eq_false] at hok
          cases htext : fs (distDir ++ [vocabularies]) with
          | none => rw [htext] at h; cases h
          | some original =>
              simp only [htext] at h
              split at h
              · cases h
              · rename_i hpattern
                obtain ⟨happlies, hcopies⟩ := allCaught_iff.mp (Except.ok.inj h)
                exact ⟨rows, original, ⟨hrows, htext, by simpa using hpattern, happlies⟩,
                  (reportOf_ok rows).mp hok, hcopies⟩
  · intro h
    obtain ⟨rows, original, hr, hok, hcopies⟩ := h
    unfold selfTest
    rw [compare_eq, hr.read]
    simp only [Functor.map, Except.map, bind, Except.bind, pure, Except.pure, hr.text, hr.pattern,
      (reportOf_ok rows).mpr hok]
    exact congrArg Except.ok (allCaught_iff.mpr ⟨hr.applies, hcopies⟩)

/-- **Where the copies miss what index.js requires, the self-test passes for every test that
    accepts the compiled output**: every copy throws on import, and that counts as caught. -/
theorem selfTest_blind {rows : List (Compared α)} {original : Text}
    (hr : Reaches machine file fs distDir rows original)
    (hok : ∀ c ∈ rows, drift c.sdkList c.canonical = true)
    (hrequires : ∀ fs' dir, fs' (dir ++ ["index.js"]) = fs (distDir ++ ["index.js"]) →
      fs' (dir.dropLast ++ ["index.js"]) = none → machine.load fs' (dir ++ ["index.js"]) = none)
    (hdist : ¬ machine.tmpdir <+: distDir ++ ["index.js"])
    (habsent : fs (machine.tmpdir ++ ["index.js"]) = none) :
    selfTest le machine drift file fs distDir = .ok true := by
  refine selfTest_true_iff.mpr ⟨rows, original, hr, hok, fun copy hcopy hcaught => ?_⟩
  obtain ⟨⟨text, htext⟩, -⟩ := index_of_comparedRows hr.read
  obtain ⟨hdir, hindex, hbeside⟩ := mutatedCopies_index hdist htext hcopy
  obtain ⟨rows', hrows', -⟩ := caughtOk_iff.mp hcaught
  refine (index_of_comparedRows hrows').2 (hrequires _ _ (hindex.trans htext.symm) ?_)
  rw [hdir, hbeside, habsent]

/-- The test was put to the statuses of the copy, and rejected them. -/
def Rejects (le : α → α → Bool) (machine : Machine α) (drift : List α → List α → Bool)
    (file : FactsFile α) (copy : Copy) : Prop :=
  ∃ report, compare le machine drift file copy.files copy.dir = .ok report ∧
    ∃ s ∈ report.sections, s.list = "statuses" ∧ s.ok = false

theorem rejects_iff {copy : Copy} : Rejects le machine drift file copy ↔
    ∃ rows, comparedRows machine file copy.files copy.dir = .ok rows ∧
      ∃ c ∈ rows, c.row.list = "statuses" ∧ drift c.sdkList c.canonical = false := by
  unfold Rejects
  rw [compare_eq]
  cases comparedRows machine file copy.files copy.dir with
  | error e => simp [Functor.map, Except.map]
  | ok rows => simp [Functor.map, Except.map, reportOf, sectionOf]

/-- The self-test really tests the comparison: for every test with which it passes there are three
    copies, and the test was put to the statuses of each and rejected them. -/
def SelfTestTests (le : α → α → Bool) (machine : Machine α) (file : FactsFile α)
    (fs : FileSystem Text) (distDir : Path) : Prop :=
  ∀ drift, selfTest le machine drift file fs distDir = .ok true →
    ∃ original, fs (distDir ++ [vocabularies]) = some original ∧
      (copies machine fs distDir original).length = 3 ∧
      ∀ copy ∈ copies machine fs distDir original, Rejects le machine drift file copy

/-- The copy is read, and compares no pair of lists but these. -/
def Within (machine : Machine α) (file : FactsFile α) (known : List (List α × List α))
    (copy : Copy) : Prop :=
  ∃ rows, comparedRows machine file copy.files copy.dir = .ok rows ∧
    ∀ c ∈ rows, (c.sdkList, c.canonical) ∈ known

/-- **The trees on which the copies decide**: once the self-test gets to its copies, and none of
    them reads as the compiled output does, each copy is read, and for the statuses of each there
    is a copy which differs from the compiled output in nothing else. -/
def CopiesDecide (machine : Machine α) (file : FactsFile α) (fs : FileSystem Text)
    (distDir : Path) : Prop :=
  ∀ rows original, Reaches machine file fs distDir rows original →
    (∀ copy ∈ copies machine fs distDir original, ¬ Within machine file (pairs rows) copy) →
    ∀ copy ∈ copies machine fs distDir original,
      ∃ rows', comparedRows machine file copy.files copy.dir = .ok rows' ∧
        ∃ c ∈ rows', c.row.list = "statuses" ∧
          ∃ copy' ∈ copies machine fs distDir original,
            Within machine file ((c.sdkList, c.canonical) :: pairs rows) copy'

/-- The test that accepts these pairs of lists and no other. -/
def accepting (known : List (List α × List α)) (sdkList canonical : List α) : Bool :=
  decide ((sdkList, canonical) ∈ known)

theorem caughtOk_accepting {known : List (List α × List α)} {copy : Copy} :
    caughtOk le machine (accepting known) file copy.files copy.dir = true ↔
      Within machine file known copy := by
  rw [caughtOk_iff]
  simp [Within, accepting]

/-- **The self-test really tests the comparison exactly on the trees on which the copies decide.** -/
theorem selfTest_exact : SelfTestTests le machine file fs distDir ↔
    CopiesDecide machine file fs distDir := by
  constructor
  · intro htests rows original hr hnone copy hcopy
    have haccepts : ∀ known, (∀ p ∈ pairs rows, p ∈ known) →
        ∀ c ∈ rows, accepting known c.sdkList c.canonical = true := fun known hsub c hc =>
      decide_eq_true (hsub _ (List.mem_map_of_mem (f := fun c => (c.sdkList, c.canonical)) hc))
    -- the test that knows the compiled output only makes the self-test pass
    have hpass : selfTest le machine (accepting (pairs rows)) file fs distDir = .ok true :=
      selfTest_true_iff.mpr ⟨rows, original, hr, haccepts _ fun _ h => h,
        fun copy hcopy h => hnone copy hcopy (caughtOk_accepting.mp h)⟩
    obtain ⟨text, htext, -, hrejects⟩ := htests _ hpass
    obtain rfl := Option.some.inj (htext.symm.trans hr.text)
    obtain ⟨rows', hrows', c, hc, hstatuses, -⟩ := rejects_iff.mp (hrejects copy hcopy)
    refine ⟨rows', hrows', c, hc, hstatuses, ?_⟩
    -- and so does the one that knows this copy's statuses too, unless it accepts a copy
    by_contra hno
    have hpass' : selfTest le machine (accepting ((c.sdkList, c.canonical) :: pairs rows)) file fs
        distDir = .ok true :=
      selfTest_true_iff.mpr ⟨rows, text, hr, haccepts _ fun _ h => List.mem_cons_of_mem _ h,
        fun copy' hcopy' h => hno ⟨copy', hcopy', caughtOk_accepting.mp h⟩⟩
    obtain ⟨text', htext', -, hrejects'⟩ := htests _ hpass'
    obtain rfl := Option.some.inj (htext'.symm.trans htext)
    obtain ⟨rows'', hrows'', c', hc', hstatuses', hfalse⟩ := rejects_iff.mp (hrejects' copy hcopy)
    rw [hrows'] at hrows''
    obtain rfl := Except.ok.inj hrows''
    obtain rfl := comparedRows_unique hrows' hc hc' (hstatuses.trans hstatuses'.symm)
    simp [accepting] at hfalse
  · intro hdecide drift hpass
    obtain ⟨rows, original, hr, hok, hcopies⟩ := selfTest_true_iff.mp hpass
    refine ⟨original, hr.text, mutatedCopies_length hr.applies fs, fun copy hcopy => ?_⟩
    have hnone : ∀ copy ∈ copies machine fs distDir original,
        ¬ Within machine file (pairs rows) copy := by
      rintro copy hcopy ⟨rows', hrows', hknown⟩
      exact hcopies copy hcopy
        (caughtOk_iff.mpr ⟨rows', hrows', fun c hc => accepted_of_mem_pairs hok (hknown c hc)⟩)
    obtain ⟨rows', hrows', c, hc, hstatuses, copy', hcopy', rows'', hrows'', hknown⟩ :=
      hdecide rows original hr hnone copy hcopy
    refine rejects_iff.mpr ⟨rows', hrows', c, hc, hstatuses, ?_⟩
    by_contra htrue
    refine hcopies copy' hcopy' (caughtOk_iff.mpr ⟨rows'', hrows'', fun d hd => ?_⟩)
    rcases List.mem_cons.mp (hknown d hd) with hpair | hpair
    · obtain ⟨hlist, hcanonical⟩ := Prod.mk.inj hpair
      rw [hlist, hcanonical]
      simpa using htrue
    · exact accepted_of_mem_pairs hok hpair

end SelfTest

/-! ## 3. The self-test of the repository -/

section Repository

/-- What stands after the first occurrence of `pattern`. -/
def textAfter (pattern : Text) : Text → Option Text
  | [] => none
  | c :: text =>
      if pattern.isPrefixOf (c :: text) then some ((c :: text).drop pattern.length)
      else textAfter pattern text

/-- The strings of an array literal up to its bracket; the first argument is the string being
    read. -/
def arrayItems : Option (List Char) → Text → List String
  | _, [] => []
  | none, c :: text =>
      if c = ']' then []
      else if c = '\'' then arrayItems (some []) text
      else arrayItems none text
  | some read, c :: text =>
      if c = '\'' then String.ofList read.reverse :: arrayItems none text
      else arrayItems (some (c :: read)) text

/-- Node.js on compiled modules that export array literals: an import throws where the file is
    missing, or where it requires ../index.js and that is missing. -/
def nodeMachine : Machine String where
  load := fun fs path =>
    match fs path with
    | none => none
    | some text =>
        if (fs (path.dropLast.dropLast ++ ["index.js"])).isNone &&
            occursIn "require('../index.js')".toList text then none
        else some fun exportName =>
          (textAfter ("exports.".toList ++ exportName.toList ++ " = [".toList) text).map
            (arrayItems none)
  tmpdir := ["tmp"]
  unique := fun fs =>
    (["a1B2c3", "d4E5f6", "g7H8i9"].find? fun suffix =>
      (fs ["tmp", "trueseal-parity-selftest-" ++ suffix, "index.js"]).isNone).getD "j0K1l2"

/-- `exports.<name> = [ .. ];` as tsc prints it. -/
def compiledArray (row : Row) : Text :=
  "exports.".toList ++ row.exportName.toList ++ " = [\n".toList ++
    ((sharedFactsLists row.list).map fun name =>
      "    '".toList ++ name.toList ++ "',\n".toList).flatten ++ "];\n".toList

/-- The compiled tree: dist/index.js requires the native loader beside dist. -/
def compiledTree : FileSystem Text := fun path =>
  if path = ["repo", "index.js"] then some "module.exports = nativeBinding\n".toList
  else if path = ["repo", "dist", "index.js"] then
    some ("const native = require('../index.js');\n".toList ++
      (LIST_MAP.filter (·.module = "index.js")).flatMap compiledArray)
  else if path = ["repo", "dist", vocabularies] then
    some ((LIST_MAP.filter (·.module = vocabularies)).flatMap compiledArray)
  else none

/-- The vendored facts. -/
def sharedFacts : FactsFile String where
  path := "Parity/shared-facts.json"
  sha256 := "159491b8a563c6928d564458c898e2c5e815e3e291091bc7e6342624031fe62a"
  sdkVersion := some "0.6.0"
  document := some fun name =>
    if LIST_MAP.any (·.list = name) then some (.cases (sharedFactsLists name)) else none

/-- The self-test gets to its copies. -/
theorem compiledTree_reaches : ∃ rows original,
    Reaches nodeMachine sharedFacts compiledTree ["repo", "dist"] rows original := by
  have hread : (comparedRows nodeMachine sharedFacts compiledTree ["repo", "dist"]).isOk = true := by
    decide +kernel
  cases hrows : comparedRows nodeMachine sharedFacts compiledTree ["repo", "dist"] with
  | error e => rw [hrows] at hread; cases hread
  | ok rows =>
      exact ⟨rows, _, hrows, rfl, by decide +kernel, by decide +kernel⟩

theorem compiledTree_requires : ∃ text, compiledTree ["repo", "dist", "index.js"] = some text ∧
    occursIn "require('../index.js')".toList text = true := ⟨_, rfl, by decide +kernel⟩

/-- **On the repository's own tree a test that accepts everything passes the self-test**: no copy
    can be imported, and no test is put to any statuses. -/
theorem selfTest_accepts_everything :
    selfTest nameOrder nodeMachine (fun _ _ => true) sharedFacts compiledTree ["repo", "dist"] =
        .ok true ∧
      ¬ SelfTestTests nameOrder nodeMachine sharedFacts compiledTree ["repo", "dist"] := by
  have hpass : selfTest nameOrder nodeMachine (fun _ _ => true) sharedFacts compiledTree
      ["repo", "dist"] = .ok true := by
    obtain ⟨rows, original, hr⟩ := compiledTree_reaches
    refine selfTest_blind hr (fun c _ => rfl) ?_ (by decide) rfl
    intro fs' dir hindex hbeside
    obtain ⟨text, htext, hrequire⟩ := compiledTree_requires
    have htext' : fs' (dir ++ ["index.js"]) = some text := hindex.trans htext
    have hbeside' : fs' ((dir ++ ["index.js"]).dropLast.dropLast ++ ["index.js"]) = none := by
      rw [List.dropLast_concat, hbeside]
    unfold nodeMachine
    simp only [htext', hbeside', hrequire, Option.isNone_none, Bool.and_true, if_true]
  refine ⟨hpass, fun htests => ?_⟩
  obtain ⟨original, -, hlength, hrejects⟩ := htests _ hpass
  obtain ⟨copy, hcopy⟩ := List.exists_mem_of_length_pos (by rw [hlength]; decide)
  obtain ⟨rows, -, c, -, -, hfalse⟩ := rejects_iff.mp (hrejects copy hcopy)
  cases hfalse

end Repository

end TrueSealSync.Release
