/-
  File:      TrueSealSync/Release/Candidate.lean
  Subject:   FROM THE CANDIDATE TO THE RELEASE: the checksums manifest the candidate stages lets
             exactly its own bytes through promotion.

  Modelled from the step "Compute the checksums manifest" of candidate.yml; the other end is
  `verifyStaged`. What sha256sum prints for a file is a parameter too, and it reads its own lines.

  * `Printer` -- the lines sha256sum prints, with what it makes of them under `-c`;
  * `computeManifest` -- the step; `computeManifest_ok_iff` says when it succeeds, and with what;
  * `SameTarballs` -- the tarballs of a release are those of the candidate, hash by hash;
  * `verifyStaged_iff` -- the verification of a release with the manifest of a candidate;
  * `promotion_accepts_exactly` -- which candidates get a manifest, and that a release with it
    passes the verification exactly where it has the same tarballs.
-/
import Mathlib.Data.List.Sort
import TrueSealSync.Release.Promote

namespace TrueSealSync.Release

open TrueSealSync.Lib

/-! ## 1. The step -/

/-- A name a release keeps as it is. -/
def IsAssetName (name : Text) : Prop := name.all isAssetChar = true ∧ name.head? ≠ some '.'

/-- What sha256sum prints for the file under a name: one line, which `-c` reads as the digest and
    the name printed, and the name leads to the file of the directory. -/
structure Printer {δ : Type} (tool : Sha256sum δ) where
  line : δ → Text → Text
  one_line : ∀ content name, IsAssetName name → '\n' ∉ line (tool.sha256 content) name
  parses : ∀ content name, IsAssetName name →
    tool.parseLine (line (tool.sha256 content) name) = some (tool.sha256 content, name)
  locates : ∀ name, IsAssetName name → tool.locate name = some name

/-- `sort`: the lines in some order of the locale. -/
structure SortTool where
  sort : List Text → List Text
  perm : ∀ xs, (sort xs).Perm xs

section Step

variable {δ : Type} {tool : Sha256sum δ} (printer : Printer tool) (order : SortTool)
  (built : Staged)

/-- `sha256sum "$f"`; a file that is not there prints nothing. -/
def checksumOf (name : Text) : Option Text :=
  (built.content name).map fun content => printer.line (tool.sha256 content) name

/-- `ls -1 *.tgz | sort | while read -r f; do sha256sum "$f"; done`. -/
def checksums : Text :=
  ((order.sort (lines (lsTgz built))).filterMap (checksumOf printer built)).flatMap (· ++ ['\n'])

/-- The step; it ends with the message of its check. -/
def computeManifest : Except String Text :=
  if newlines (checksums printer order built) ≠ 6 then
    .error "expected 6 tarballs (main + 5 platform)"
  else .ok (checksums printer order built)

end Step

/-! ## 2. What the step writes -/

section Manifest

variable {δ : Type} {tool : Sha256sum δ} (printer : Printer tool) (order : SortTool)
  {built : Staged} {manifest : Text}

theorem isAssetName_of_mem {name : Text} (h : name ∈ built.names) : IsAssetName name := by
  obtain ⟨asset, -, rfl⟩ := List.mem_map.mp h
  exact ⟨asset.plain, asset.visible⟩

theorem isAssetName_of_tarball {name : Text} (h : name ∈ built.tarballs) : IsAssetName name :=
  isAssetName_of_mem (List.mem_filter.mp h).1

theorem content_of_mem {name : Text} (h : name ∈ built.names) :
    ∃ content, built.content name = some content := by
  obtain ⟨asset, hasset, rfl⟩ := List.mem_map.mp h
  unfold Staged.content
  cases hfind : built.assets.find? (·.name == asset.name) with
  | some found => exact ⟨found.content, rfl⟩
  | none => exact absurd (List.find?_eq_none.mp hfind asset hasset) (by simp)

theorem tarballs_nodup (staged : Staged) : staged.tarballs.Nodup := staged.distinct.filter _

/-- No tarball has a name that `ls` takes for an option. -/
def NoOption (staged : Staged) : Prop := staged.tarballs.any (·.head? == some '-') = false

/-- What `ls` lists, read line by line. -/
theorem lines_lsTgz (h : NoOption built) : lines (lsTgz built) = built.tarballs := by
  unfold lsTgz
  rw [glob_eq_tarballs, h]
  refine lines_unlines fun name hname => ?_
  obtain ⟨asset, -, rfl⟩ := List.mem_map.mp (List.mem_filter.mp hname).1
  exact newline_notMem_name

theorem lsTgz_option (h : ¬ NoOption built) : lsTgz built = [] := by
  unfold lsTgz
  rw [glob_eq_tarballs, if_pos (by simpa [NoOption] using h)]

theorem checksumOf_tarball {name : Text} (h : name ∈ built.tarballs) : ∃ content,
    built.content name = some content ∧
      checksumOf printer built name = some (printer.line (tool.sha256 content) name) := by
  obtain ⟨content, hcontent⟩ := content_of_mem (List.mem_filter.mp h).1
  exact ⟨content, hcontent, by rw [checksumOf, hcontent]; rfl⟩

/-- Every tarball gets a line. -/
theorem checksums_length {names : List Text} (h : names ⊆ built.tarballs) :
    (names.filterMap (checksumOf printer built)).length = names.length := by
  induction names with
  | nil => rfl
  | cons name names ih =>
      obtain ⟨content, -, hline⟩ := checksumOf_tarball printer (h List.mem_cons_self)
      rw [List.filterMap_cons_some hline, List.length_cons, List.length_cons,
        ih fun _ hmem => h (List.mem_cons_of_mem _ hmem)]

theorem newline_notMem_checksums {names : List Text} (h : names ⊆ built.tarballs) :
    ∀ line ∈ names.filterMap (checksumOf printer built), '\n' ∉ line := by
  intro line hline
  obtain ⟨name, hname, hsome⟩ := List.mem_filterMap.mp hline
  obtain ⟨content, -, hline'⟩ := checksumOf_tarball printer (h hname)
  obtain rfl := Option.some.inj (hline'.symm.trans hsome)
  exact printer.one_line content name (isAssetName_of_tarball (h hname))

/-- **The lines the step writes**: one for each tarball, where `ls` lists them. -/
theorem lines_checksums (h : NoOption built) : ∃ names : List Text, names.Perm built.tarballs ∧
    lines (checksums printer order built) = names.filterMap (checksumOf printer built) ∧
    newlines (checksums printer order built) = built.tarballs.length := by
  have hperm := order.perm built.tarballs
  refine ⟨order.sort built.tarballs, hperm, ?_, ?_⟩
  · rw [checksums, lines_lsTgz h]
    exact lines_unlines (newline_notMem_checksums printer hperm.subset)
  · rw [checksums, lines_lsTgz h, newlines_unlines (newline_notMem_checksums printer hperm.subset),
      checksums_length printer hperm.subset, hperm.length_eq]

theorem checksums_option (h : ¬ NoOption built) : checksums printer order built = [] := by
  have hnil : order.sort [] = [] := List.perm_nil.mp (order.perm [])
  rw [checksums, lsTgz_option h]
  show ((order.sort []).filterMap _).flatMap _ = []
  rw [hnil]
  rfl

/-- **The step succeeds exactly where there are six tarballs**, each with a name `ls` lists. -/
theorem computeManifest_ok_iff : computeManifest printer order built = .ok manifest ↔
    (NoOption built ∧ built.tarballs.length = 6) ∧ checksums printer order built = manifest := by
  unfold computeManifest
  by_cases hopt : NoOption built
  · obtain ⟨-, -, -, hcount⟩ := lines_checksums printer order hopt
    rw [hcount]
    by_cases hsix : built.tarballs.length = 6
    · simp [hopt, hsix]
    · simp [hsix]
  · have hne : newlines (checksums printer order built) ≠ 6 := by
      rw [checksums_option printer order hopt]
      decide
    rw [if_pos hne]
    simp [hopt]

end Manifest

/-! ## 3. Promotion -/

section Promotion

variable {δ : Type} {tool : Sha256sum δ} (printer : Printer tool) {order : SortTool}
  {built staged : Staged} {manifest version : Text}

/-- The tarballs of the release are those of the candidate, with the same hashes. -/
structure SameTarballs (tool : Sha256sum δ) (built staged : Staged) : Prop where
  names : staged.tarballs.Perm built.tarballs
  hashes : ∀ name ∈ built.tarballs,
    (staged.content name).map tool.sha256 = (built.content name).map tool.sha256

/-- A file with a hash is a file of the directory. -/
theorem mem_names_of_hash {name : Text} {digest : δ}
    (h : (staged.content name).map tool.sha256 = some digest) : name ∈ staged.names := by
  unfold Staged.content at h
  cases hfind : staged.assets.find? (·.name == name) with
  | none => simp [hfind] at h
  | some asset =>
      obtain rfl : asset.name = name := by simpa using List.find?_some hfind
      exact List.mem_map_of_mem (List.mem_of_find?_eq_some hfind)

/-- Where every tarball of the candidate has its hash in a release of as many, the tarballs are the
    same. -/
theorem sameTarballs_of_hashes (hlength : staged.tarballs.length = built.tarballs.length)
    (hhashes : ∀ name ∈ built.tarballs,
      (staged.content name).map tool.sha256 = (built.content name).map tool.sha256) :
    SameTarballs tool built staged := by
  refine ⟨?_, hhashes⟩
  have hsub : built.tarballs ⊆ staged.tarballs := by
    intro name hname
    obtain ⟨hmem, htgz⟩ := List.mem_filter.mp hname
    obtain ⟨content, hcontent⟩ := content_of_mem hmem
    have hhash := hhashes name hname
    rw [hcontent] at hhash
    exact List.mem_filter.mpr ⟨mem_names_of_hash hhash, htgz⟩
  exact ((List.subperm_of_subset (tarballs_nodup built) hsub).perm_of_length_le
    (by omega)).symm

theorem SameTarballs.noOption (h : SameTarballs tool built staged) (hopt : NoOption built) :
    NoOption staged := by
  unfold NoOption at hopt ⊢
  rw [List.any_eq_false] at hopt ⊢
  exact fun name hname => hopt name (h.names.mem_iff.mp hname)

/-- The line of a tarball names it. -/
theorem fileNamed_checksum {name line : Text} (hname : name ∈ built.tarballs)
    (h : checksumOf printer built name = some line) : fileNamed tool line = some name := by
  obtain ⟨content, -, hline⟩ := checksumOf_tarball printer hname
  obtain rfl := Option.some.inj (hline.symm.trans h)
  have hasset := isAssetName_of_tarball hname
  unfold fileNamed
  rw [printer.parses content name hasset]
  exact printer.locates name hasset

/-- The names in the lines of the manifest are the names it was made of. -/
theorem filterMap_fileNamed {names : List Text} (h : names ⊆ built.tarballs) :
    (names.filterMap (checksumOf printer built)).filterMap (fileNamed tool) = names := by
  induction names with
  | nil => rfl
  | cons name names ih =>
      have hname := h List.mem_cons_self
      obtain ⟨content, -, hline⟩ := checksumOf_tarball printer hname
      rw [List.filterMap_cons_some hline,
        List.filterMap_cons_some (fileNamed_checksum printer hname hline),
        ih fun _ hmem => h (List.mem_cons_of_mem _ hmem)]

/-- The names `ls` lists are those of the tarballs, one a line. -/
theorem newlines_lsTgz (h : NoOption staged) :
    newlines (lsTgz staged) = staged.tarballs.length := by
  unfold lsTgz
  rw [glob_eq_tarballs, h]
  refine newlines_unlines fun name hname => ?_
  obtain ⟨asset, -, rfl⟩ := List.mem_map.mp (List.mem_filter.mp hname).1
  exact newline_notMem_name

/-- **The manifest of a candidate covers a release that has its tarballs.** -/
theorem manifestCovers_of_same {names : List Text} (hperm : names.Perm built.tarballs)
    (hlines : lines manifest = names.filterMap (checksumOf printer built))
    (h : SameTarballs tool built staged) : ManifestCovers tool staged manifest := by
  refine ⟨fun name hname => ?_, fun line hline => ?_, ?_⟩
  · have hbuilt := h.names.mem_iff.mp hname
    obtain ⟨content, hcontent, hline⟩ := checksumOf_tarball printer hbuilt
    have hasset := isAssetName_of_tarball hbuilt
    refine ⟨_, ?_, _, _, printer.parses content name hasset, printer.locates name hasset, ?_⟩
    · rw [hlines]
      exact List.mem_filterMap.mpr ⟨name, hperm.mem_iff.mpr hbuilt, hline⟩
    · rw [h.hashes name hbuilt, hcontent]
      rfl
  · rw [hlines] at hline
    obtain ⟨name, hname, hsome⟩ := List.mem_filterMap.mp hline
    have hbuilt := hperm.mem_iff.mp hname
    exact ⟨name, h.names.mem_iff.mpr hbuilt, fileNamed_checksum printer hbuilt hsome⟩
  · rw [hlines, filterMap_fileNamed printer hperm.subset, hperm.nodup_iff]
    exact tarballs_nodup built

/-- A manifest that covers a release with tarballs has a line sha256sum can read. -/
theorem ManifestCovers.exists_parsed (h : ManifestCovers tool staged manifest)
    (hne : staged.tarballs ≠ []) : ∃ line ∈ lines manifest, ∃ entry,
      tool.parseLine line = some entry := by
  obtain ⟨name, hname⟩ := List.exists_mem_of_ne_nil _ hne
  obtain ⟨line, hline, digest, path, hparse, -⟩ := h.covered name hname
  exact ⟨line, hline, (digest, path), hparse⟩

variable [DecidableEq δ]

/-- The line of a tarball passes where the release has a file of its name and hash. -/
theorem linePasses_checksum {name content : Text} (hname : IsAssetName name) :
    linePasses tool staged (printer.line (tool.sha256 content) name) = true ↔
      (staged.content name).map tool.sha256 = some (tool.sha256 content) := by
  unfold linePasses contentAt
  rw [printer.parses content name hname]
  simp only [printer.locates name hname]
  exact beq_iff_eq

/-- **The lines of the manifest pass exactly where the release has the tarballs.** -/
theorem lines_pass_iff (staged : Staged) {names : List Text} (h : names ⊆ built.tarballs) :
    (∀ line ∈ names.filterMap (checksumOf printer built), linePasses tool staged line = true) ↔
      ∀ name ∈ names, (staged.content name).map tool.sha256 =
        (built.content name).map tool.sha256 := by
  constructor
  · intro hlines name hname
    obtain ⟨content, hcontent, hline⟩ := checksumOf_tarball printer (h hname)
    have hpass := hlines _ (List.mem_filterMap.mpr ⟨name, hname, hline⟩)
    rw [hcontent]
    exact (linePasses_checksum printer (isAssetName_of_tarball (h hname))).mp hpass
  · intro hhashes line hline
    obtain ⟨name, hname, hsome⟩ := List.mem_filterMap.mp hline
    obtain ⟨content, hcontent, hline'⟩ := checksumOf_tarball printer (h hname)
    obtain rfl := Option.some.inj (hline'.symm.trans hsome)
    refine (linePasses_checksum printer (isAssetName_of_tarball (h hname))).mpr ?_
    rw [hhashes name hname, hcontent]
    rfl

/-- The step of promotion passes where its checks do. -/
theorem verifyStaged_of_checks (hmanifest : staged.content (checksumsName version) = some manifest)
    (hcheck : sha256sumCheck tool staged manifest = true)
    (htgz : newlines (lsTgz staged) = 6) (hcount : newlines manifest = 6) :
    verifyStaged tool staged version = .ok () := by
  unfold verifyStaged
  rw [hmanifest]
  simp [hcheck, htgz, hcount]

/-- **The verification of a release with the manifest of a candidate** passes exactly where the
    release has the tarballs of the candidate. -/
theorem verifyStaged_iff (hopt : NoOption built) (hsix : built.tarballs.length = 6)
    (hmanifest : staged.content (checksumsName version) = some (checksums printer order built)) :
    verifyStaged tool staged version = .ok () ↔ SameTarballs tool built staged := by
  obtain ⟨names, hperm, hlines, hcount⟩ := lines_checksums printer order hopt
  have hpass := lines_pass_iff printer staged hperm.subset
  rw [← hlines] at hpass
  constructor
  · intro hverify
    obtain ⟨manifest', hmanifest', hall, htgz, -⟩ := verifyStaged_ok hverify
    obtain rfl := Option.some.inj (hmanifest.symm.trans hmanifest')
    refine sameTarballs_of_hashes ?_ fun name hname => hpass.mp hall name (hperm.mem_iff.mpr hname)
    rw [tarballs_length htgz, hsix]
  · intro hsame
    have hstaged : staged.tarballs.length = 6 := hsame.names.length_eq.trans hsix
    have hcovers := manifestCovers_of_same printer hperm hlines hsame
    have hparsed := hcovers.exists_parsed (List.ne_nil_of_length_pos (by omega))
    have hall := hpass.mpr fun name hname => hsame.hashes name (hperm.mem_iff.mp hname)
    refine verifyStaged_of_checks hmanifest (sha256sumCheck_iff.mpr ⟨hparsed, hall⟩) ?_
      (hcount.trans hsix)
    rw [newlines_lsTgz (hsame.noOption hopt), hstaged]

end Promotion

/-! ## 4. The lines of sha256sum -/

theorem digestText_hex (digest : Nat) :
    ∀ c ∈ digestText digest, (c.isDigit || ('a' ≤ c && c ≤ 'f')) = true := by
  intro c hc
  obtain ⟨i, -, rfl⟩ := List.mem_map.mp hc
  have hlt : digest >>> (4 * (63 - i)) % 16 < 16 := Nat.mod_lt _ (by decide)
  generalize digest >>> (4 * (63 - i)) % 16 = d at hlt
  revert d
  decide

theorem digestText_length (digest : Nat) : (digestText digest).length = 64 := by
  simp [digestText]

theorem assetName_all {name : Text} (h : IsAssetName name) : ∀ c ∈ name, isAssetChar c = true :=
  List.all_eq_true.mp h.1

/-- **sha256sum reads the lines it prints**: the digest, two spaces, the name. -/
def sha256sumPrinter : Printer sha256sum where
  line digest name := digest ++ "  ".toList ++ name
  one_line content name h := by
    intro hmem
    rcases List.mem_append.mp hmem with hmem | hmem
    · rcases List.mem_append.mp hmem with hmem | hmem
      · exact absurd (digestText_hex _ _ hmem) (by decide)
      · revert hmem
        decide
    · exact absurd (assetName_all h _ hmem) (by decide)
  parses content name h := by
    have hdigest : ∀ digest : Text, digest.length = 64 →
        digest.all (fun c => c.isDigit || ('a' ≤ c && c ≤ 'f')) = true →
        checksumLine (digest ++ "  ".toList ++ name) = some (digest, name) := by
      intro digest hlength hhex
      unfold checksumLine
      rw [List.append_assoc, ← hlength, List.drop_left, List.take_left]
      simp [hlength, hhex]
    exact hdigest _ (digestText_length _) (List.all_eq_true.mpr (digestText_hex _))
  locates name h := by
    have hslash : name.contains '/' = false := by
      cases hc : name.contains '/' with
      | false => rfl
      | true =>
          have hmem : '/' ∈ name := by simpa using hc
          exact absurd (assetName_all h _ hmem) (by decide)
    show (if name.contains '/' then none else some name) = some name
    rw [hslash]
    rfl

/-- `sort` in the locale C. -/
def sortC : SortTool where
  sort := List.insertionSort fun a b => lexLe (a.map Char.toNat) (b.map Char.toNat) = true
  perm := List.perm_insertionSort _

/-- The packages in the order of the names of their tarballs. -/
def sortedPackages : List String :=
  ["main", "darwin-arm64", "darwin-x64", "linux-arm64-gnu", "linux-x64-gnu", "win32-x64-msvc"]

end TrueSealSync.Release
