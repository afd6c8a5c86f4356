import LocaleAudit.Proofs.SortedSet
import LocaleAudit.Source.Scanning
import Mathlib.Data.List.Induction

namespace LocaleAudit

/-!
# Scans without order

What an extractor finds depends on the matchers it has, and the keys of a scan on the files that can
be read. In which order they come and how often a matcher is applied makes no difference.
-/

namespace Extractor

variable {e e' : Extractor} {text : String} {r : KeyRef}

theorem mem_extract :
    r ∈ e.extract text ↔
      ∃ m ∈ e.matchers, ∃ raw ∈ m.findKeys text, KeyRef.parse? raw = some r := by
  rw [extract, mem_sortedSet, List.mem_filterMap]
  simp only [rawKeys, List.mem_flatMap]
  constructor
  · rintro ⟨raw, ⟨m, hm, hraw⟩, hr⟩
    exact ⟨m, hm, raw, hraw, hr⟩
  · rintro ⟨m, hm, raw, hraw, hr⟩
    exact ⟨raw, ⟨m, hm, hraw⟩, hr⟩

/-- Extractors with the same matchers find the same set. -/
theorem extract_eq_extract (h : ∀ m, m ∈ e.matchers ↔ m ∈ e'.matchers) (text : String) :
    e.extract text = e'.extract text := by
  have hmem : ∀ raw, raw ∈ e.rawKeys text ↔ raw ∈ e'.rawKeys text := by
    intro raw
    simp only [rawKeys, List.mem_flatMap, h]
  rw [extract, extract, KeyRef.ranked.sortedSet_eq_iff]
  intro r
  simp only [List.mem_filterMap, hmem]

end Extractor

namespace SourceScan

variable {e : Extractor} {files : Directory} {defaultNamespace path : String}
  {paths : List String} {s : SourceScan}

/-! ## What a scan is about -/

/-- One of the files can be read, and a match in it reads as the reference. -/
def Uses (e : Extractor) (files : Directory) (paths : List String) (r : KeyRef) : Prop :=
  ∃ path ∈ paths, ∃ text, files.readText path = .ok text ∧
    ∃ m ∈ e.matchers, ∃ raw ∈ m.findKeys text, KeyRef.parse? raw = some r

def isReadable (files : Directory) (path : String) : Bool :=
  (files.readText path).toOption.isSome

/-- A file that cannot be read, with the reason. -/
def unreadable? (files : Directory) (path : String) : Option (String × String) :=
  match files.readText path with
  | .ok _ => none
  | .error fault => some (path, (Error.io fault).message)

/-- A scan of the files at some paths: every key that a readable one uses, once, and every file
that is not readable, in order. -/
structure Accounts (e : Extractor) (files : Directory) (defaultNamespace : String)
    (paths : List String) (s : SourceScan) : Prop where
  sorted : s.keys.Pairwise fun a b => a.rank < b.rank
  keys : ∀ k, k ∈ s.keys ↔ ∃ r, Uses e files paths r ∧ r.resolve defaultNamespace = k
  filesScanned : s.filesScanned = (paths.filter (isReadable files)).length
  skipped : s.skipped = paths.filterMap (unreadable? files)

theorem uses_iff_mem_extract {r : KeyRef} :
    Uses e files paths r ↔
      ∃ path ∈ paths, ∃ text, files.readText path = .ok text ∧ r ∈ e.extract text := by
  simp only [Uses, Extractor.mem_extract]

theorem not_uses_nil {r : KeyRef} : ¬Uses e files [] r := by
  rintro ⟨path, hpath, _⟩
  cases hpath

theorem uses_append {paths' : List String} {r : KeyRef} :
    Uses e files (paths ++ paths') r ↔ Uses e files paths r ∨ Uses e files paths' r := by
  simp only [Uses, List.mem_append, or_and_right, exists_or]

theorem uses_singleton {text : String} {r : KeyRef} (h : files.readText path = .ok text) :
    Uses e files [path] r ↔ r ∈ e.extract text := by
  simp [uses_iff_mem_extract, h]

theorem not_uses_singleton {fault : IoFault} {r : KeyRef}
    (h : files.readText path = .error fault) : ¬Uses e files [path] r := by
  simp [uses_iff_mem_extract, h]

theorem mem_keysOfText {text : String} {k : ResolvedKey} :
    k ∈ keysOfText e defaultNamespace text ↔
      ∃ r ∈ e.extract text, r.resolve defaultNamespace = k :=
  List.mem_map

/-! ## File by file -/

/-- The scan with one more file. -/
def addFile (e : Extractor) (files : Directory) (defaultNamespace : String) (s : SourceScan)
    (path : String) : SourceScan :=
  match readFile e files defaultNamespace path with
  | .ok keys =>
    { s with
      keys := sortedSet ResolvedKey.le (s.keys ++ keys)
      filesScanned := s.filesScanned + 1 }
  | .error reason => { s with skipped := s.skipped ++ [(path, reason)] }

theorem addFile_of_ok {text : String} (h : files.readText path = .ok text) :
    addFile e files defaultNamespace s path =
      { s with
        keys := sortedSet ResolvedKey.le (s.keys ++ keysOfText e defaultNamespace text)
        filesScanned := s.filesScanned + 1 } := by
  simp only [addFile, readFile, h]

theorem addFile_of_error {fault : IoFault} (h : files.readText path = .error fault) :
    addFile e files defaultNamespace s path =
      { s with skipped := s.skipped ++ [(path, (Error.io fault).message)] } := by
  simp only [addFile, readFile, h]

theorem accounts_empty : Accounts e files defaultNamespace [] empty where
  sorted := List.Pairwise.nil
  keys k := by simp [empty, not_uses_nil]
  filesScanned := rfl
  skipped := rfl

theorem Accounts.addFile (h : Accounts e files defaultNamespace paths s) (path : String) :
    Accounts e files defaultNamespace (paths ++ [path])
      (addFile e files defaultNamespace s path) := by
  cases hread : files.readText path with
  | ok text =>
    rw [addFile_of_ok hread]
    refine ⟨ResolvedKey.ranked.pairwise_sortedSet _, fun k => ?_, ?_, ?_⟩
    · simp only [mem_sortedSet, List.mem_append, h.keys, mem_keysOfText, uses_append,
        uses_singleton hread, or_and_right, exists_or]
    · simp [h.filesScanned, isReadable, hread, Except.toOption]
    · simp [h.skipped, unreadable?, hread]
  | error fault =>
    rw [addFile_of_error hread]
    refine ⟨h.sorted, fun k => ?_, ?_, ?_⟩
    · simp only [h.keys, uses_append, not_uses_singleton hread, or_false]
    · simp [h.filesScanned, isReadable, hread, Except.toOption]
    · simp [h.skipped, unreadable?, hread]

theorem accounts_foldl (paths : List String) :
    Accounts e files defaultNamespace paths
      (paths.foldl (addFile e files defaultNamespace) empty) := by
  induction paths using List.reverseRecOn with
  | nil => exact accounts_empty
  | append_singleton paths path ih =>
    rw [List.foldl_append]
    exact ih.addFile path

theorem ofFiles_append (paths : List String) (path : String) :
    ofFiles e files defaultNamespace (paths ++ [path]) =
      addFile e files defaultNamespace (ofFiles e files defaultNamespace paths) path := by
  cases hread : files.readText path with
  | ok text =>
    -- Both sides are sorted sets, so only their members count.
    rw [addFile_of_ok hread]
    simp [ofFiles, readFile, hread, Except.toOption, ResolvedKey.ranked.sortedSet_eq_iff,
      mem_sortedSet]
  | error fault =>
    rw [addFile_of_error hread]
    simp [ofFiles, readFile, hread, Except.toOption]

/-- Reading the files one by one comes to the same scan. -/
theorem ofFiles_eq_foldl (paths : List String) :
    ofFiles e files defaultNamespace paths =
      paths.foldl (addFile e files defaultNamespace) empty := by
  induction paths using List.reverseRecOn with
  | nil => simp [ofFiles, sortedSet, dropRepeats, empty]
  | append_singleton paths path ih =>
    rw [ofFiles_append, ih, List.foldl_append, List.foldl_cons, List.foldl_nil]

theorem accounts_ofFiles (e : Extractor) (files : Directory) (defaultNamespace : String)
    (paths : List String) :
    Accounts e files defaultNamespace paths (ofFiles e files defaultNamespace paths) := by
  rw [ofFiles_eq_foldl]
  exact accounts_foldl paths

/-! ## What follows for any scan -/

theorem length_filter_isReadable (files : Directory) (paths : List String) :
    (paths.filter (isReadable files)).length + (paths.filterMap (unreadable? files)).length =
      paths.length := by
  induction paths with
  | nil => rfl
  | cons path paths ih =>
    cases hread : files.readText path <;>
      simp [isReadable, unreadable?, hread, Except.toOption] at ih ⊢ <;> omega

theorem filterMap_unreadable?_of_isReadable (files : Directory) (paths : List String) :
    (paths.filter (isReadable files)).filterMap (unreadable? files) = [] := by
  rw [List.filterMap_eq_nil_iff]
  intro path hpath
  have hreadable : isReadable files path = true := (List.mem_filter.mp hpath).2
  cases hread : files.readText path with
  | ok text => simp [unreadable?, hread]
  | error fault => simp [isReadable, hread, Except.toOption] at hreadable

theorem uses_filter_isReadable {r : KeyRef} :
    Uses e files (paths.filter (isReadable files)) r ↔ Uses e files paths r := by
  constructor
  · rintro ⟨path, hpath, huses⟩
    exact ⟨path, (List.mem_filter.mp hpath).1, huses⟩
  · rintro ⟨path, hpath, text, hread, huses⟩
    have hreadable : isReadable files path = true := by simp [isReadable, hread, Except.toOption]
    exact ⟨path, List.mem_filter.mpr ⟨hpath, hreadable⟩, text, hread, huses⟩

namespace Accounts

variable {e' : Extractor} {paths' : List String} {s' : SourceScan}

theorem accounted (h : Accounts e files defaultNamespace paths s) :
    s.filesScanned + s.skipped.length = paths.length := by
  rw [h.filesScanned, h.skipped, length_filter_isReadable]

/-- A bare path and the same path behind the default namespace are one key. -/
theorem count_default_eq_one_iff (h : Accounts e files defaultNamespace paths s) (path : String) :
    s.keys.count ⟨defaultNamespace, path⟩ = 1 ↔
      Uses e files paths (.unqualified path) ∨
        Uses e files paths (.qualified defaultNamespace path) := by
  have hcount : s.keys.count ⟨defaultNamespace, path⟩ = 1 ↔ ⟨defaultNamespace, path⟩ ∈ s.keys := by
    refine ⟨fun hone => ?_, List.count_eq_one_of_mem (nodup_of_ascending h.sorted)⟩
    apply List.count_pos_iff.mp
    omega
  rw [hcount, h.keys]
  constructor
  · rintro ⟨r, huses, hr⟩
    cases r with
    | unqualified p =>
      obtain ⟨-, rfl⟩ := ResolvedKey.mk.inj hr
      exact Or.inl huses
    | qualified n p =>
      obtain ⟨rfl, rfl⟩ := ResolvedKey.mk.inj hr
      exact Or.inr huses
  · rintro (huses | huses)
    · exact ⟨_, huses, rfl⟩
    · exact ⟨_, huses, rfl⟩

theorem keys_eq (h : Accounts e files defaultNamespace paths s)
    (h' : Accounts e' files defaultNamespace paths' s')
    (huses : ∀ r, Uses e files paths r ↔ Uses e' files paths' r) : s.keys = s'.keys := by
  apply eq_of_ascending h.sorted h'.sorted
  intro k
  simp only [h.keys, h'.keys, huses]

/-- Files that cannot be read leave no trace but in the list of what was skipped. -/
theorem eq_without_skipped (h : Accounts e files defaultNamespace paths s)
    (h' : Accounts e files defaultNamespace (paths.filter (isReadable files)) s') :
    s' = { s with skipped := [] } := by
  have hkeys : s'.keys = s.keys := h'.keys_eq h fun _ => uses_filter_isReadable
  have hscanned : s'.filesScanned = s.filesScanned := by
    rw [h'.filesScanned, h.filesScanned, List.filter_filter]
    simp
  have hskipped : s'.skipped = [] := by
    rw [h'.skipped, filterMap_unreadable?_of_isReadable]
  cases s'
  simp_all

end Accounts

theorem uses_iff_uses {e' : Extractor} {paths' : List String}
    (hmatchers : ∀ m, m ∈ e.matchers ↔ m ∈ e'.matchers) (hpaths : paths.Perm paths') (r : KeyRef) :
    Uses e files paths r ↔ Uses e' files paths' r := by
  simp only [Uses, hmatchers, hpaths.mem_iff]

/-- A scan has the references of all readable files, every resolved key once, and names every
other file. Neither the order of the files nor the order of the matchers nor how often one is
applied changes the keys. -/
theorem ofFiles_order_free (files : Directory) (defaultNamespace : String) :
    (∀ (e : Extractor) (paths : List String) (s : SourceScan),
      ofFiles e files defaultNamespace paths = s →
        Accounts e files defaultNamespace paths s ∧
        (∀ path, s.keys.count ⟨defaultNamespace, path⟩ = 1 ↔
          Uses e files paths (.unqualified path) ∨
            Uses e files paths (.qualified defaultNamespace path)) ∧
        ofFiles e files defaultNamespace (paths.filter (isReadable files)) =
          { s with skipped := [] } ∧
        s.filesScanned + s.skipped.length = paths.length) ∧
    ∀ e e' : Extractor, (∀ m, m ∈ e.matchers ↔ m ∈ e'.matchers) →
      (∀ text, e.extract text = e'.extract text) ∧
      ∀ paths paths' : List String, paths.Perm paths' →
        (ofFiles e files defaultNamespace paths).keys =
            (ofFiles e' files defaultNamespace paths').keys ∧
          (ofFiles e files defaultNamespace paths).filesScanned =
            (ofFiles e' files defaultNamespace paths').filesScanned ∧
          (ofFiles e files defaultNamespace paths).skipped.Perm
            (ofFiles e' files defaultNamespace paths').skipped := by
  have haccounts (e : Extractor) (paths : List String) :=
    accounts_ofFiles e files defaultNamespace paths
  refine ⟨?_, fun e e' hmatchers => ⟨Extractor.extract_eq_extract hmatchers, ?_⟩⟩
  · rintro e paths s rfl
    have h := haccounts e paths
    exact ⟨h, h.count_default_eq_one_iff, h.eq_without_skipped (haccounts e _), h.accounted⟩
  · intro paths paths' hpaths
    have h := haccounts e paths
    have h' := haccounts e' paths'
    refine ⟨h.keys_eq h' (uses_iff_uses hmatchers hpaths), ?_, ?_⟩
    · rw [h.filesScanned, h'.filesScanned]
      exact (hpaths.filter _).length_eq
    · rw [h.skipped, h'.skipped]
      exact hpaths.filterMap _

/-- Three files, one of them not text. The references of the first are two spellings of one key. -/
def profileFiles : Directory :=
  [("a.ts", .file "t('bio') t(\"app:bio\")".toUTF8), ("b.ts", .file "t('more:bio')".toUTF8),
    ("c.ts", .file ⟨#[0xFF]⟩)]

/-- The matchers in another order and one of them twice, the files in another order. -/
theorem ofFiles_order_free_profile :
    (∀ m, m ∈ Extractor.standard.matchers ↔
        m ∈ (⟨[.keyAttribute, .call, .keyAttribute]⟩ : Extractor).matchers) ∧
      ["/a.ts", "/c.ts", "/b.ts"].Perm ["/c.ts", "/b.ts", "/a.ts"] ∧
      isReadable profileFiles "/c.ts" = false ∧
      Uses .standard profileFiles ["/a.ts", "/c.ts", "/b.ts"] (.unqualified "bio") ∧
      Uses .standard profileFiles ["/a.ts", "/c.ts", "/b.ts"] (.qualified "app" "bio") ∧
      (ofFiles ⟨[.keyAttribute, .call, .keyAttribute]⟩ profileFiles "app"
        ["/c.ts", "/b.ts", "/a.ts"]).keys.count ⟨"app", "bio"⟩ = 1 := by
  have hmatchers : ∀ m, m ∈ Extractor.standard.matchers ↔
      m ∈ (⟨[.keyAttribute, .call, .keyAttribute]⟩ : Extractor).matchers := by
    intro m
    simp only [Extractor.standard, List.mem_cons, List.not_mem_nil, or_false]
    tauto
  have hpaths : ["/a.ts", "/c.ts", "/b.ts"].Perm ["/c.ts", "/b.ts", "/a.ts"] := by decide
  have hread : profileFiles.readText "/a.ts" = .ok "t('bio') t(\"app:bio\")" := by rfl
  have hkeys : Matcher.call.findKeys "t('bio') t(\"app:bio\")" = ["bio", "app:bio"] := by
    decide +kernel
  have hbare : KeyRef.parse? "bio" = some (.unqualified "bio") := by decide +kernel
  have hqualified : KeyRef.parse? "app:bio" = some (.qualified "app" "bio") := by decide +kernel
  have huses : Uses .standard profileFiles ["/a.ts", "/c.ts", "/b.ts"] (.unqualified "bio") :=
    ⟨"/a.ts", by simp, _, hread, .call, by simp [Extractor.standard], "bio", by simp [hkeys], hbare⟩
  have husesQualified :
      Uses .standard profileFiles ["/a.ts", "/c.ts", "/b.ts"] (.qualified "app" "bio") :=
    ⟨"/a.ts", by simp, _, hread, .call, by simp [Extractor.standard], "app:bio", by simp [hkeys],
      hqualified⟩
  refine ⟨hmatchers, hpaths, by rfl, huses, husesQualified, ?_⟩
  have hcount := ((ofFiles_order_free profileFiles "app").1 .standard
    ["/a.ts", "/c.ts", "/b.ts"] _ rfl).2.1 "bio"
  have horder := (((ofFiles_order_free profileFiles "app").2 _ _ hmatchers).2 _ _ hpaths).1
  rw [← horder]
  exact hcount.mpr (Or.inl huses)

end SourceScan

end LocaleAudit
