import LocaleAudit.Proofs.Config
import LocaleAudit.Proofs.Store.Listing

namespace LocaleAudit

/-!
# Which documents are listed

The name of a document is put together from its namespace and the extension of the store, and listing
takes it apart at its last dot. The two undo each other when the extension has neither a dot nor a
slash: then exactly the documents that are there are listed. With any other extension documents are
written and read, and none is listed.
-/

namespace Store

open Directory

variable {s : Store} {files files' : Directory} {language nameSpace : String} {c : Catalog}

/-- The namespaces of a language can be listed and this is one of them. -/
def Lists (s : Store) (files : Directory) (language nameSpace : String) : Prop :=
  ∃ namespaces, s.listNamespaces files language = .ok namespaces ∧ nameSpace ∈ namespaces

/-- An extension that stands whole behind the last dot of a name. -/
structure PlainExtension (extension : String) : Prop where
  no_dot : '.' ∉ extension.toList
  no_slash : '/' ∉ extension.toList

instance (extension : String) : Decidable (PlainExtension extension) :=
  decidable_of_iff ('.' ∉ extension.toList ∧ '/' ∉ extension.toList)
    ⟨fun ⟨hdot, hslash⟩ => ⟨hdot, hslash⟩, fun ⟨hdot, hslash⟩ => ⟨hdot, hslash⟩⟩

theorem toList_fileName (s : Store) (nameSpace : String) :
    (s.fileName nameSpace).toList = nameSpace.toList ++ '.' :: s.extension.toList := by
  simp [fileName, String.toList_append]

/-- The document of a namespace has a proper name when its extension is plain. -/
theorem isName_fileName (hplain : PlainExtension s.extension) (hextension : s.extension ≠ "")
    (hslash : '/' ∉ nameSpace.toList) (hnul : '\x00' ∉ (s.fileName nameSpace).toList) :
    IsName (s.fileName nameSpace) := by
  obtain ⟨last, rest, hlast⟩ := List.exists_cons_of_ne_nil
    (fun hnil => hextension (String.toList_eq_nil_iff.mp hnil))
  have hdot : last ≠ '.' := by
    rintro rfl
    exact hplain.no_dot (by simp [hlast])
  have hmem : last ∈ (s.fileName nameSpace).toList := by simp [toList_fileName, hlast]
  -- A name of nothing but dots has no room for the extension.
  have hdots (dots : List Char) (hall : ∀ d ∈ dots, d = '.') :
      (s.fileName nameSpace).toList ≠ dots := by
    rintro rfl
    exact hdot (hall last hmem)
  refine ⟨fun h => ?_, fun h => ?_, fun h => ?_, ?_, hnul⟩
  · exact hdots [] (by simp) (by rw [h]; rfl)
  · exact hdots ['.'] (by simp) (by rw [h]; rfl)
  · exact hdots ['.', '.'] (by simp) (by rw [h]; rfl)
  · rw [toList_fileName]
    simp [hslash, hplain.no_slash]

/-- A document is listed exactly when it is a file and its extension is plain. -/
theorem lists_iff (hfiles : files.WellFormed) (hextension : s.extension ≠ "")
    (hne : nameSpace ≠ "") (hslash : '/' ∉ nameSpace.toList) :
    s.Lists files language nameSpace ↔
      files.isFile (s.pathFor language nameSpace) = true ∧ PlainExtension s.extension := by
  constructor
  · rintro ⟨namespaces, hlist, hmem⟩
    obtain ⟨place, d, hplace, hd, rfl⟩ := exists_directory_of_listNamespaces hlist
    have hwell := hfiles.lookup hd
    have hname := isName_of_mem_namespaces hwell hmem
    obtain ⟨hsplit, hfile⟩ := (mem_namespaces_iff hd hwell).mp hmem
    obtain ⟨_, _, hdot⟩ := Path.splitExtension_eq_some_iff.mp hsplit
    refine ⟨isFile_iff.mpr ⟨_, locate_join hplace hname, hfile⟩, hdot, fun hinner => ?_⟩
    exact hname.no_slash (by simp [toList_fileName, hinner])
  · rintro ⟨hthere, hplain⟩
    obtain ⟨names, hlocate, hfile⟩ := isFile_iff.mp hthere
    have hnul : '\x00' ∉ (s.fileName nameSpace).toList := by
      obtain ⟨before, hbefore⟩ :=
        Path.exists_toList_join (Path.join s.root language) (s.fileName nameSpace)
      intro hmem
      apply (locate_eq_ok_iff.mp hlocate).1
      rw [pathFor, hbefore]
      exact List.mem_append_right before hmem
    have hname := isName_fileName hplain hextension hslash hnul
    obtain ⟨place, hplace, rfl⟩ := exists_place_of_locate hname hlocate
    obtain ⟨d, hd⟩ := hplace.leads.hasDirectory
    refine ⟨sorted (d.filterMap s.namespaceOf?), ?_, ?_⟩
    · rw [listNamespaces, hplace.readDirectory, entriesAt_eq hd]
      rfl
    · refine (mem_namespaces_iff hd (hfiles.lookup hd)).mpr ⟨?_, hfile⟩
      exact Path.splitExtension_eq_some_iff.mpr ⟨rfl, hne, hplain.no_dot⟩

/-- After a document was saved it is a file. -/
theorem isFile_of_save (h : s.save files c = (files', .ok ())) (hfiles : files.WellFormed) :
    files'.isFile (s.pathFor c.language c.nameSpace) = true ∧ files'.WellFormed := by
  obtain ⟨_, e, hsave, _⟩ | ⟨_, names, hsave, hwritten, hlocate, hfile⟩ := s.save_cases files c
  · rw [hsave] at h
    cases h
  · rw [hsave] at h
    cases h
    exact ⟨isFile_iff.mpr ⟨names, hlocate, by simp [hfile]⟩, hwritten.wellFormed hfiles⟩

/-- Listed namespaces are in order, and none comes twice. -/
theorem pairwise_lt_of_listNamespaces {namespaces : List String} (hfiles : files.WellFormed)
    (hlist : s.listNamespaces files language = .ok namespaces) :
    namespaces.Pairwise (· < ·) := by
  have hnodup := nodup_of_listNamespaces hfiles hlist
  obtain ⟨_, d, _, _, rfl⟩ := exists_directory_of_listNamespaces hlist
  apply ((pairwise_sorted _).and hnodup).imp
  rintro a b ⟨hle, hne⟩
  exact String.not_le.mp fun hge => hne (String.le_antisymm hle hge)

theorem extension_new_ne_empty {config : Config} (h : config.check = .ok ()) (root : String) :
    (new root config.extension).extension ≠ "" := by
  rw [new, ne_eq, String.ofList_eq_empty_iff]
  exact (Config.check_eq_ok_iff.mp h).extension

/-- A store with a usable configuration lists the documents that are there when its extension is
plain, and among them every document that was just saved. With another extension it lists none. What
it lists is in order and without duplicates. -/
theorem listNamespaces_layout {config : Config} (hconfig : config.check = .ok ())
    (hfiles : files.WellFormed) (root language : String) :
    let s := new root config.extension
    (∀ nameSpace, nameSpace ≠ "" → '/' ∉ nameSpace.toList →
      (s.Lists files language nameSpace ↔
        files.isFile (s.pathFor language nameSpace) = true ∧ PlainExtension s.extension)) ∧
    (∀ c files', c.nameSpace ≠ "" → '/' ∉ c.nameSpace.toList →
      s.save files c = (files', .ok ()) →
        (s.Lists files' c.language c.nameSpace ↔ PlainExtension s.extension)) ∧
    ∀ namespaces, s.listNamespaces files language = .ok namespaces →
      namespaces.Pairwise (· < ·) := by
  intro s
  have hextension : s.extension ≠ "" := extension_new_ne_empty hconfig root
  refine ⟨fun nameSpace hne hslash => lists_iff hfiles hextension hne hslash,
    fun c files' hne hslash hsave => ?_,
    fun namespaces hlist => pairwise_lt_of_listNamespaces hfiles hlist⟩
  obtain ⟨hthere, hfiles'⟩ := isFile_of_save hsave hfiles
  rw [lists_iff hfiles' hextension hne hslash, hthere]
  simp

/-- A namespace with a dot of its own, and a document in a directory that saving made. -/
theorem listNamespaces_layout_json :
    let s := new "/locales" ".json"
    let files : Directory :=
      [("locales", .directory [("en", .directory [("app.v2.json", .file .empty)])])]
    ({ extension := ".json" } : Config).check = .ok () ∧ files.WellFormed ∧
      s.Lists files "en" "app.v2" ∧ ¬s.Lists files "en" "app" ∧
      ∃ files', s.save files ⟨"uk", "app", []⟩ = (files', .ok ()) ∧ s.Lists files' "uk" "app" := by
  intro s files
  have hconfig : ({ extension := ".json" } : Config).check = .ok () := by rfl
  have hfiles : files.WellFormed := by decide +kernel
  have hplain : PlainExtension s.extension := by decide
  obtain ⟨hlists, hsaved, _⟩ := listNamespaces_layout hconfig hfiles "/locales" "en"
  have hok : (s.save files ⟨"uk", "app", []⟩).2.isOk = true := by decide +kernel
  refine ⟨hconfig, hfiles, ?_, fun hnot => ?_, ?_⟩
  · exact (hlists "app.v2" (by decide) (by decide)).mpr ⟨by decide +kernel, hplain⟩
  · exact absurd ((hlists "app" (by decide) (by decide)).mp hnot).1 (by decide +kernel)
  · obtain ⟨_, e, herror, _⟩ | ⟨files', _, hsave, _⟩ := s.save_cases files ⟨"uk", "app", []⟩
    · rw [herror] at hok
      cases hok
    · exact ⟨files', hsave, (hsaved _ files' (by decide) (by decide) hsave).mpr hplain⟩

/-- A document with a dot in its extension is there and is not listed. -/
theorem unlisted_of_inner_dot :
    ¬∀ (config : Config) (files : Directory) (root language nameSpace : String),
      config.check = .ok () → files.WellFormed → nameSpace ≠ "" → '/' ∉ nameSpace.toList →
        ((new root config.extension).Lists files language nameSpace ↔
          files.isFile ((new root config.extension).pathFor language nameSpace) = true) := by
  intro hall
  let files : Directory :=
    [("locales", .directory [("en", .directory [("app.i18n.json", .file .empty)])])]
  have hfiles : files.WellFormed := by decide +kernel
  have hthere : files.isFile ((new "/locales" "i18n.json").pathFor "en" "app") = true := by
    decide +kernel
  have hlists := (hall { extension := "i18n.json" } files "/locales" "en" "app" (by rfl) hfiles
    (by decide) (by decide)).mpr hthere
  have hplain := ((lists_iff hfiles (by decide) (by decide) (by decide)).mp hlists).2
  exact hplain.no_dot (by decide)

end Store

end LocaleAudit
