import LocaleAudit.Proofs.Files.Agreement
import LocaleAudit.Proofs.Source.Walk
import LocaleAudit.Source.Scanning

namespace LocaleAudit

/-!
# What a walk depends on

No directory with an excluded name is entered, so what lies inside one decides neither which files
are found nor what is read from them. The exclude file of a repository is the one exception: it is
an ignore file of the directory that holds the repository, and counts even when the name `info` of
its own directory is excluded.
-/

namespace Walk

open Directory (lookup lookup_append lookup_concat SameKind SameExcept)

variable {excluded root place above names : List String} {name : String}

/-- Names that lead into a directory below the root whose name is excluded. Those of repositories
do not count. -/
def Inside (excluded root names : List String) : Prop :=
  ∃ above name below, names = root ++ above ++ name :: below ∧ below ≠ [] ∧ name ∈ excluded ∧
    name ≠ ".git"

/-- No directory below the root on the way to a place has an excluded name, nor does the place. -/
def Open (excluded root place : List String) : Prop :=
  ∀ below, place = root ++ below → ∀ name ∈ below, name ∉ excluded

/-- Names that lead into an excluded directory, but not to an exclude file that is read. -/
def Unread (excluded root names : List String) : Prop :=
  Inside excluded root names ∧
    ∀ place, Open excluded root place → names ≠ place ++ [".git", "info", "exclude"]

theorem rulesOf_eq {d d' : Directory} (h : SameKind (lookup names d) (lookup names d')) :
    rulesOf names d = rulesOf names d' := by
  rw [rulesOf, rulesOf]
  generalize lookup names d = node at h ⊢
  generalize lookup names d' = node' at h ⊢
  cases h <;> rfl

/-! ## Open places -/

theorem open_of_prefix (h : place <+: root) : Open excluded root place := by
  rintro below rfl name hname
  have hlength := h.length_le
  rw [List.length_append] at hlength
  have hbelow : below = [] := List.eq_nil_of_length_eq_zero (by omega)
  rw [hbelow] at hname
  cases hname

theorem open_append (h : ∀ name ∈ names, name ∉ excluded) : Open excluded root (root ++ names) := by
  intro below hbelow
  rwa [← List.append_cancel_left hbelow]

namespace Open

variable (h : Open excluded root place)

include h

theorem concat (hname : name ∉ excluded) : Open excluded root (place ++ [name]) := by
  intro below hbelow
  rcases List.eq_nil_or_concat below with rfl | ⟨front, last, rfl⟩
  · simp
  · rw [List.concat_eq_append, ← List.append_assoc] at hbelow
    obtain ⟨hfront, hlast⟩ := List.append_inj' hbelow rfl
    rw [List.concat_eq_append, List.forall_mem_append]
    refine ⟨h front hfront, ?_⟩
    rw [← hlast, List.forall_mem_singleton]
    exact hname

/-- Neither an open place nor an entry of it lies inside an excluded directory. -/
theorem not_inside (more : List String) (hmore : more.length ≤ 1) :
    ¬Inside excluded root (place ++ more) := by
  rintro ⟨above, name, below, heq, hbelow, hname, _⟩
  have hpositive : 0 < below.length := List.length_pos_iff.mpr hbelow
  rw [List.append_cons, List.append_assoc root, List.append_assoc root] at heq
  -- The excluded directory is the place itself or one on the way to it.
  obtain ⟨rest, hplace⟩ : root ++ (above ++ [name]) <+: place := by
    rw [← List.append_assoc] at heq
    have hinitial : root ++ (above ++ [name]) <+: place ++ more := ⟨below, heq.symm⟩
    have hlength := congrArg List.length heq
    simp only [List.length_append] at hlength
    exact List.prefix_of_prefix_length_le hinitial (List.prefix_append place more)
      (by simp only [List.length_append]; omega)
  rw [List.append_assoc] at hplace
  exact h _ hplace.symm name (by simp) hname

section Agreement

variable {files files' : Directory} (hagree : SameExcept (Unread excluded root) files files')

include hagree

theorem sameKind : SameKind (lookup place files) (lookup place files') := by
  refine hagree place fun hunread => h.not_inside [] (Nat.zero_le 1) ?_
  rw [List.append_nil]
  exact hunread.1

theorem sameKind_entry (name : String) :
    SameKind (lookup (place ++ [name]) files) (lookup (place ++ [name]) files') :=
  hagree _ fun hunread => h.not_inside [name] (Nat.le_refl 1) hunread.1

/-- The ignore files of an open directory are the same in both trees. -/
theorem ofDirectory_eq {d d' : Directory} (hd : lookup place files = some (.directory d))
    (hd' : lookup place files' = some (.directory d')) (below : List String) :
    Level.ofDirectory below d = Level.ofDirectory below d' := by
  have hrules {more : List String}
      (hmore : SameKind (lookup (place ++ more) files) (lookup (place ++ more) files')) :
      rulesOf more d = rulesOf more d' := by
    rw [lookup_append hd, lookup_append hd'] at hmore
    exact rulesOf_eq hmore
  have hexclude : SameKind (lookup (place ++ [".git", "info", "exclude"]) files)
      (lookup (place ++ [".git", "info", "exclude"]) files') :=
    hagree _ fun hunread => hunread.2 place h rfl
  rw [Level.ofDirectory, Level.ofDirectory, hrules (h.sameKind_entry hagree ".ignore"),
    hrules (h.sameKind_entry hagree ".gitignore"), hrules hexclude]

end Agreement

end Open

/-! ## Replaced directories -/

theorem inside_append (root above : List String) {below : List String} (hname : name ∈ excluded)
    (hgit : name ≠ ".git") (hbelow : below ≠ []) :
    Inside excluded root (root ++ above ++ [name] ++ below) :=
  ⟨above, name, below, (List.append_cons _ _ _).symm, hbelow, hname, hgit⟩

/-- Only a directory `info` can hold an exclude file that is read. -/
theorem unread_append (root above : List String) {below : List String} (hname : name ∈ excluded)
    (hgit : name ≠ ".git") (hinfo : name ≠ "info") (hbelow : below ≠ []) :
    Unread excluded root (root ++ above ++ [name] ++ below) := by
  refine ⟨inside_append root above hname hgit hbelow, fun place hopen heq => ?_⟩
  rcases List.append_eq_append_iff.mp heq with ⟨rest, hplace, -⟩ | ⟨rest, hrest, hexclude⟩
  · -- The exclude file lies behind the excluded directory, where nothing is open.
    rw [List.append_assoc root, List.append_assoc root] at hplace
    exact hopen _ hplace name (by simp) hname
  · obtain rfl | ⟨front, last, rfl⟩ := List.eq_nil_or_concat rest
    · rw [List.append_nil, List.append_assoc root] at hrest
      exact hopen _ hrest.symm name (by simp) hname
    · -- The excluded directory is one on the way from an open place to its exclude file.
      rw [List.concat_eq_append] at hrest hexclude
      rw [← List.append_assoc] at hrest
      obtain rfl : name = last := by simpa using (List.append_inj' hrest rfl).2
      have hfile : name :: below <:+ [".git", "info", "exclude"] :=
        ⟨front, by rw [hexclude, List.append_assoc]; rfl⟩
      simp only [List.suffix_cons_iff, List.cons.injEq, List.suffix_nil, reduceCtorEq,
        or_false] at hfile
      rcases hfile with ⟨hfirst, -⟩ | ⟨hsecond, -⟩ | ⟨-, hlast⟩
      · exact hgit hfirst
      · exact hinfo hsecond
      · exact hbelow hlast

/-- An excluded directory can be replaced as a whole. -/
theorem sameExcept_insert (root above : List String) {files d d' : Directory}
    (h : lookup (root ++ above ++ [name]) files = some (.directory d)) (hname : name ∈ excluded)
    (hgit : name ≠ ".git") (hinfo : name ≠ "info") :
    SameExcept (Unread excluded root) files
      (Directory.insert (.directory d') (root ++ above ++ [name]) files) :=
  .insert (root ++ above) h fun _ hbelow => unread_append root above hname hgit hinfo hbelow

/-! ## Two walks -/

section TwoWalks

variable {files files' d d' : Directory} {levels : List Level} {node node' : Node}
  (hagree : SameExcept (Unread excluded root) files files')

include hagree

theorem levelsAbove_eq : levelsAbove files root = levelsAbove files' root := by
  apply List.filterMap_congr
  intro n _
  have hopen : Open excluded root (root.take n) := open_of_prefix (List.take_prefix n root)
  have hkind := hopen.sameKind hagree
  generalize hd : lookup (root.take n) files = found at hkind ⊢
  generalize hd' : lookup (root.take n) files' = found' at hkind ⊢
  cases hkind with
  | none => rfl
  | file content => rfl
  | directory d d' => simp only [hopen.ofDirectory_eq hagree hd hd']

/-- A walk through one tree can be made through the other. -/
theorem Finds.transfer (h : Finds excluded levels name node names)
    (hplace : Open excluded root place) (hnode : lookup (place ++ [name]) files = some node)
    (hnode' : lookup (place ++ [name]) files' = some node') :
    Finds excluded levels name node' names := by
  induction h generalizing place node' with
  | @file levels name content hkeeps =>
    have hkind := hplace.sameKind_entry hagree name
    rw [hnode, hnode'] at hkind
    cases hkind
    exact .file hkeeps
  | @inside levels name next entries node rest hkeeps hname hnext hrest ih =>
    have hkind := hplace.sameKind_entry hagree name
    rw [hnode, hnode'] at hkind
    cases hkind with
    | directory _ entries' =>
      have hopen := hplace.concat hname
      have hlevel := hopen.ofDirectory_eq hagree hnode hnode' []
      have hkindNext := hopen.sameKind_entry hagree next
      rw [lookup_concat hnode, hnext, lookup_concat hnode'] at hkindNext
      obtain ⟨node', hnext'⟩ := hkindNext.exists_node
      have hfinds := ih hopen (by rw [lookup_concat hnode, hnext])
        (by rw [lookup_concat hnode', hnext'])
      rw [hlevel] at hfinds
      exact .inside hkeeps hname hnext' hfinds

theorem mem_filesBelow_of_agree (hwell : d.WellFormed) (hwell' : d'.WellFormed)
    (hd : lookup root files = some (.directory d)) (hd' : lookup root files' = some (.directory d'))
    (hmem : names ∈ filesBelow excluded levels [] d) :
    names ∈ filesBelow excluded levels [] d' := by
  obtain ⟨name, node, hnode, hfinds⟩ := (mem_filesBelow_iff hwell).mp hmem
  have hopen : Open excluded root root := open_of_prefix (List.prefix_refl root)
  have hkind := hopen.sameKind_entry hagree name
  rw [lookup_concat hd, hnode, lookup_concat hd'] at hkind
  obtain ⟨node', hnode'⟩ := hkind.exists_node
  refine (mem_filesBelow_iff hwell').mpr ⟨name, node', hnode', ?_⟩
  exact hfinds.transfer hagree hopen (by rw [lookup_concat hd, hnode])
    (by rw [lookup_concat hd', hnode'])

end TwoWalks

end Walk

namespace SourceWalker

open Directory (lookup lookup_append HasDirectory Place SameKind SameExcept)
open Walk (Open Inside Unread)

variable {w : SourceWalker} {files files' d d' : Directory} {root names paths : List String}
  {path : String}

/-- Two trees agree apart from places that are free, given where the root of a walk is. -/
def AgreeBelow (w : SourceWalker) (free : List String → List String → Prop)
    (files files' : Directory) : Prop :=
  ∀ root, files.locate w.root = .ok root → SameExcept (free root) files files'

/-- Two trees in which the root of a walk is the same place, or none in both, and which agree apart
from what lies inside excluded directories below it. -/
structure SameSources (w : SourceWalker) (files files' : Directory) : Prop where
  root_eq : (files.locate w.root).toOption = (files'.locate w.root).toOption
  agree : w.AgreeBelow (Unread w.excludeDirs) files files'

theorem select_eq (hagree : SameExcept (Unread w.excludeDirs root) files files')
    (hd : lookup root files = some (.directory d)) (hd' : lookup root files' = some (.directory d'))
    (hwell : d.WellFormed) (hwell' : d'.WellFormed) :
    w.select files root d = w.select files' root d' := by
  rw [select, select, Walk.levelsAbove_eq hagree]
  apply Walk.ranked_namesLe.mergeSort_eq_of_perm
  apply List.Perm.filter
  rw [List.perm_ext_iff_of_nodup (Walk.nodup_filesBelow_of_wellFormed hwell)
    (Walk.nodup_filesBelow_of_wellFormed hwell')]
  intro names
  constructor
  · exact Walk.mem_filesBelow_of_agree hagree hwell hwell' hd hd'
  · exact Walk.mem_filesBelow_of_agree hagree.symm hwell' hwell hd' hd

/-- A path is one of the source files: names behind the root lead to a file, and through no excluded
directory. -/
structure IsSource (w : SourceWalker) (files : Directory) (path : String)
    (root names : List String) : Prop where
  locate_root : files.locate w.root = .ok root
  path_eq : path = Path.join w.root ("/".intercalate names)
  nonempty : names ≠ []
  isName : ∀ name ∈ names, IsName name
  isFile : ∃ content, lookup (root ++ names) files = some (.file content)
  not_excluded : ∀ between ∈ names.dropLast, between ∉ w.excludeDirs

theorem exists_isSource (hfiles : files.WellFormed) (h : w.files files = .ok paths)
    (hpath : path ∈ paths) : ∃ root names, IsSource w files path root names := by
  rw [SourceWalker.files] at h
  split at h
  · cases h
  rename_i root hroot
  split at h
  · rename_i d hd
    cases h
    obtain ⟨names, hnames, rfl⟩ := List.mem_map.mp hpath
    rw [select, List.mem_mergeSort, List.mem_filter] at hnames
    obtain ⟨name, node, hnode, hfinds⟩ :=
      (Walk.mem_filesBelow_iff (hfiles.lookup hd)).mp hnames.1
    obtain ⟨content, hcontent⟩ := hfinds.exists_file hnode
    rw [← lookup_append hd] at hcontent
    refine ⟨root, names, hroot, rfl, ?_, ?_, ⟨content, hcontent⟩, hfinds.not_excluded⟩
    · rintro rfl
      cases hfinds.head?
    · intro name hname
      exact hfiles.isName_of_lookup hcontent name (List.mem_append_right root hname)
  · cases h

theorem IsSource.hasDirectory (h : IsSource w files path root names) :
    HasDirectory root files := by
  obtain ⟨content, hcontent⟩ := h.isFile
  exact Directory.hasDirectory_of_lookup_append hcontent h.nonempty

theorem IsSource.locate (h : IsSource w files path root names) :
    files.locate path = .ok (root ++ names) := by
  obtain ⟨content, hcontent⟩ := h.isFile
  rw [h.path_eq]
  exact (Place.of_locate h.locate_root h.hasDirectory).locate_names h.nonempty h.isName hcontent

/-! ## Trees with the same sources -/

namespace SameSources

theorem locate_root (h : SameSources w files files') (hroot : files.locate w.root = .ok root) :
    files'.locate w.root = .ok root := by
  have hsame := h.root_eq
  rw [hroot] at hsame
  cases hroot' : files'.locate w.root with
  | error fault =>
    rw [hroot'] at hsame
    cases hsame
  | ok root' =>
    rw [hroot'] at hsame
    rw [Option.some.inj hsame]

theorem symm (h : SameSources w files files') : SameSources w files' files := by
  refine ⟨h.root_eq.symm, fun root hroot' => ?_⟩
  cases hroot : files.locate w.root with
  | error fault =>
    have hsame := h.root_eq
    rw [hroot, hroot'] at hsame
    cases hsame
  | ok root₀ =>
    obtain rfl : root₀ = root := Except.ok.inj ((h.locate_root hroot).symm.trans hroot')
    exact (h.agree _ hroot).symm

/-- The same files are found. -/
theorem files_eq (h : SameSources w files files') (hfiles : files.WellFormed)
    (hfiles' : files'.WellFormed) : w.files files' = w.files files := by
  rw [SourceWalker.files, SourceWalker.files]
  cases hroot : files.locate w.root with
  | error fault =>
    cases hroot' : files'.locate w.root with
    | error fault' => rfl
    | ok root =>
      rw [h.symm.locate_root hroot'] at hroot
      cases hroot
  | ok root =>
    have hagree := h.agree root hroot
    have hkind := (Walk.open_of_prefix (List.prefix_refl root)).sameKind hagree
    simp only [h.locate_root hroot]
    generalize hd : lookup root files = found at hkind ⊢
    generalize hd' : lookup root files' = found' at hkind ⊢
    cases hkind with
    | none => rfl
    | file content => rfl
    | directory d d' =>
      simp only [select_eq hagree hd hd' (hfiles.lookup hd) (hfiles'.lookup hd')]

/-- What a source file holds is the same in both trees. -/
theorem readText_eq (h : SameSources w files files') (hsource : IsSource w files path root names) :
    files'.readText path = files.readText path := by
  obtain ⟨front, last, rfl⟩ : ∃ front last, names = front ++ [last] := by
    rcases List.eq_nil_or_concat names with hnil | hconcat
    · exact absurd hnil hsource.nonempty
    · simpa using hconcat
  have hopen : Open w.excludeDirs root (root ++ front) := by
    apply Walk.open_append
    simpa using hsource.not_excluded
  obtain ⟨content, hcontent⟩ := hsource.isFile
  have hkind := hopen.sameKind_entry (h.agree root hsource.locate_root) last
  rw [List.append_assoc, hcontent] at hkind
  obtain ⟨node, hnode⟩ := hkind.exists_node
  rw [hnode] at hkind
  cases hkind
  have hroot' : HasDirectory root files' :=
    Directory.hasDirectory_of_lookup_append hnode hsource.nonempty
  have hread : files.readBytes path = .ok content := by
    rw [hsource.path_eq]
    exact (Place.of_locate hsource.locate_root hsource.hasDirectory).readBytes_names
      hsource.nonempty hsource.isName hcontent
  have hread' : files'.readBytes path = .ok content := by
    rw [hsource.path_eq]
    exact (Place.of_locate (h.locate_root hsource.locate_root) hroot').readBytes_names
      hsource.nonempty hsource.isName hnode
  rw [Directory.readText, Directory.readText, hread, hread']

theorem ofFiles_eq (h : SameSources w files files') (hfiles : files.WellFormed)
    (hpaths : w.files files = .ok paths) (e : Extractor) (nameSpace : String) :
    SourceScan.ofFiles e files' nameSpace paths = SourceScan.ofFiles e files nameSpace paths := by
  have hresults : (paths.map fun path => (path, SourceScan.readFile e files' nameSpace path)) =
      paths.map fun path => (path, SourceScan.readFile e files nameSpace path) := by
    apply List.map_congr_left
    intro path hpath
    obtain ⟨root, names, hsource⟩ := exists_isSource hfiles hpaths hpath
    rw [SourceScan.readFile, SourceScan.readFile, h.readText_eq hsource]
  rw [SourceScan.ofFiles, hresults]
  rfl

end SameSources

/-- Trees with the same sources give the same files and the same keys, and in no tree does a source
file lie inside an excluded directory. -/
theorem files_of_sameSources (w : SourceWalker) {files : Directory} (hfiles : files.WellFormed) :
    (∀ files', files'.WellFormed → w.SameSources files files' →
      w.files files' = w.files files ∧
        ∀ paths, w.files files = .ok paths → ∀ (e : Extractor) (nameSpace : String),
          SourceScan.ofFiles e files' nameSpace paths =
            SourceScan.ofFiles e files nameSpace paths) ∧
      ∀ paths, w.files files = .ok paths → ∀ path ∈ paths, ∃ root names,
        files.locate w.root = .ok root ∧ path = Path.join w.root ("/".intercalate names) ∧
          files.locate path = .ok (root ++ names) ∧
            ∀ between ∈ names.dropLast, between ∉ w.excludeDirs := by
  constructor
  · intro files' hfiles' h
    exact ⟨h.files_eq hfiles hfiles', fun paths hpaths => h.ofFiles_eq hfiles hpaths⟩
  · intro paths hpaths path hpath
    obtain ⟨root, names, hsource⟩ := exists_isSource hfiles hpaths hpath
    exact ⟨root, names, hsource.locate_root, hsource.path_eq, hsource.locate,
      hsource.not_excluded⟩

/-! ## Trees that differ inside excluded directories -/

theorem AgreeBelow.of_locate {free : List String → List String → Prop}
    (hroot : files.locate w.root = .ok root) (hagree : SameExcept (free root) files files') :
    w.AgreeBelow free files files' := by
  intro root' hroot'
  obtain rfl : root = root' := Except.ok.inj (hroot.symm.trans hroot')
  exact hagree

theorem eq_ok_iff_toOption {ε α : Type} {x : Except ε α} {a : α} :
    x = .ok a ↔ x.toOption = some a := by
  cases x <;> simp [Except.toOption]

instance : Decidable (files.locate path = .ok names) :=
  decidable_of_iff _ eq_ok_iff_toOption.symm

instance : Decidable (w.files files = .ok paths) :=
  decidable_of_iff _ eq_ok_iff_toOption.symm

/-- A walk through scripts. -/
def scripts (root : String) (excludeDirs : List String) : SourceWalker :=
  ⟨root, (Glob.parse? .strict "**/*.js").toList, excludeDirs⟩

/-- One script, and a directory beside it. -/
def scriptBeside (name : String) (entries : Directory) : Directory :=
  [("src", .directory [("a.js", .file "t('a')".toUTF8), (name, .directory entries)])]

/-- An ignore file and a script come into an excluded directory. -/
theorem files_of_sameSources_node_modules :
    let w := scripts "/src" ["node_modules"]
    let files := scriptBeside "node_modules" []
    let files' := files.insert (.directory [(".ignore", .file "*.js".toUTF8),
      ("b.js", .file "t('b')".toUTF8)]) ["src", "node_modules"]
    files.WellFormed ∧ files'.WellFormed ∧ w.SameSources files files' ∧
      w.files files = .ok ["/src/a.js"] ∧ w.files files' = .ok ["/src/a.js"] ∧
        ∀ (e : Extractor) (nameSpace : String),
          SourceScan.ofFiles e files' nameSpace ["/src/a.js"] =
            SourceScan.ofFiles e files nameSpace ["/src/a.js"] := by
  intro w files files'
  have hfiles : files.WellFormed := by decide +kernel
  have hfiles' : files'.WellFormed := by decide +kernel
  have hplace : lookup ["src", "node_modules"] files = some (.directory []) := by rfl
  have hagree : SameExcept (Unread w.excludeDirs ["src"]) files files' :=
    Walk.sameExcept_insert ["src"] [] hplace (by decide) (by decide) (by decide)
  have hsame : w.SameSources files files' :=
    ⟨by decide +kernel, .of_locate (by decide +kernel) hagree⟩
  have hpaths : w.files files = .ok ["/src/a.js"] := by decide +kernel
  obtain ⟨heq, hscan⟩ := (files_of_sameSources w hfiles).1 files' hfiles' hsame
  exact ⟨hfiles, hfiles', hsame, hpaths, heq.trans hpaths, hscan _ hpaths⟩

/-- Two reasons for which trees do not have the same sources although they agree outside excluded
directories: an exclude file in a directory `info` that is excluded, and a root that can only be
reached through an excluded directory. -/
theorem influence_of_excluded :
    (¬∀ (w : SourceWalker) (files files' : Directory), files.WellFormed → files'.WellFormed →
      (files.locate w.root).toOption = (files'.locate w.root).toOption →
        w.AgreeBelow (Inside w.excludeDirs) files files' → w.files files' = w.files files) ∧
      ¬∀ (w : SourceWalker) (files files' : Directory), files.WellFormed → files'.WellFormed →
        w.AgreeBelow (Unread w.excludeDirs) files files' → w.files files' = w.files files := by
  constructor
  · intro hall
    let w := scripts "/src" ["info"]
    let files := scriptBeside ".git" [("info", .directory [])]
    let files' := files.insert (.directory [("exclude", .file "a.js".toUTF8)])
      ["src", ".git", "info"]
    have hplace : lookup ["src", ".git", "info"] files = some (.directory []) := by rfl
    have hagree : SameExcept (Inside w.excludeDirs ["src"]) files files' := by
      apply SameExcept.insert ["src", ".git"] hplace
      intro below hbelow
      exact Walk.inside_append ["src"] [".git"] (by decide) (by decide) hbelow
    have heq := hall w files files' (by decide +kernel) (by decide +kernel) (by decide +kernel)
      (.of_locate (by decide +kernel) hagree)
    have hnone : w.files files' = .ok [] := by decide +kernel
    rw [hnone] at heq
    exact absurd heq.symm (by decide +kernel)
  · intro hall
    let w := scripts "/src/node_modules/x/../.." ["node_modules"]
    let files := scriptBeside "node_modules" [("x", .directory [])]
    let files' := files.insert (.directory []) ["src", "node_modules"]
    have hplace : lookup ["src", "node_modules"] files =
        some (.directory [("x", .directory [])]) := by rfl
    have hagree : SameExcept (Unread w.excludeDirs ["src"]) files files' :=
      Walk.sameExcept_insert ["src"] [] hplace (by decide) (by decide) (by decide)
    have heq := hall w files files' (by decide +kernel) (by decide +kernel)
      (.of_locate (by decide +kernel) hagree)
    have hpaths : w.files files = .ok ["/src/node_modules/x/../../a.js"] := by decide +kernel
    rw [hpaths] at heq
    exact absurd heq (by decide +kernel)

end SourceWalker

end LocaleAudit
