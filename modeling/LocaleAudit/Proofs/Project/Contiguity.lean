import LocaleAudit.Proofs.Project.Gate
import LocaleAudit.Proofs.Report.Grouping
import LocaleAudit.Proofs.SortedSet
import LocaleAudit.Proofs.Sync.DryRun
import Mathlib.Data.List.Flatten
import Mathlib.Data.List.Nodup

namespace LocaleAudit

/-!
# Findings that stand together

The findings of a check on one namespace and language stand together, with nothing else between
them, as long as they are about namespaces with catalogs. The references into other namespaces come
behind all of these, key by key, and each key is missing in every language. So the findings of a
language are torn apart when two such keys have their namespace in common.
-/

section Contiguous

variable {α κ : Type} {key : α → κ} {l l' : List α}

/-- Between two members of a key there is none of another key. -/
def Contiguous (key : α → κ) (l : List α) : Prop :=
  ∀ a between b, [a, between, b].Sublist l → key a = key b → key between = key a

theorem Contiguous.sublist (h : Contiguous key l) (hsublist : l'.Sublist l) : Contiguous key l' :=
  fun a between b hbetween => h a between b (hbetween.trans hsublist)

theorem contiguous_map_iff : Contiguous id (l.map key) ↔ Contiguous key l := by
  constructor
  · intro h a between b hbetween
    exact h _ _ _ (hbetween.map key)
  · intro h x y z hbetween
    obtain ⟨origins, horigins, heq⟩ := List.sublist_map_iff.mp hbetween
    rcases origins with _ | ⟨a, _ | ⟨between, _ | ⟨b, _ | ⟨other, origins⟩⟩⟩⟩ <;> cases heq
    exact h a between b horigins

theorem contiguous_of_nodup (h : (l.map key).Nodup) : Contiguous key l := by
  intro a between b hbetween heq
  have hends : [a, b].Sublist l :=
    (((List.Sublist.refl [b]).cons between).cons_cons a).trans hbetween
  have htwice := hends.map key
  rw [List.map_cons, List.map_singleton, ← heq] at htwice
  exact absurd htwice (List.nodup_iff_sublist.mp h (key a))

theorem contiguous_of_ordered [PartialOrder κ] (h : (l.map key).Pairwise (· ≤ ·)) :
    Contiguous key l := by
  intro a between b hbetween heq
  have hordered := (List.pairwise_map.mp h).sublist hbetween
  simp only [List.pairwise_cons, List.mem_cons, forall_eq_or_imp] at hordered
  have hfirst : key a ≤ key between := hordered.1.1
  have hsecond : key between ≤ key b := hordered.2.1.1
  exact le_antisymm (heq ▸ hsecond) hfirst

/-- Lists without a common key can be joined. -/
theorem Contiguous.append (h : Contiguous key l) (h' : Contiguous key l')
    (hdisjoint : ∀ a ∈ l, ∀ b ∈ l', key a ≠ key b) : Contiguous key (l ++ l') := by
  intro a between b hbetween heq
  have hends (ha : a ∈ l) (hb : b ∈ l') : False := hdisjoint a ha b hb heq
  obtain ⟨front, back, hsplit, hfront, hback⟩ := List.sublist_append_iff.mp hbetween
  -- Of the three members none, one, two or all come from the front list.
  rcases front with _ | ⟨_, _ | ⟨_, _ | ⟨_, _ | ⟨_, _⟩⟩⟩⟩ <;> cases hsplit
  · exact h' a between b hback heq
  · exact (hends (hfront.subset (by simp)) (hback.subset (by simp))).elim
  · exact (hends (hfront.subset (by simp)) (hback.subset (by simp))).elim
  · exact h a between b hfront heq

/-- One part for each key. -/
theorem contiguous_flatMap {keys : List κ} {part : κ → List α} (hkeys : keys.Nodup)
    (hpart : ∀ k ∈ keys, ∀ a ∈ part k, key a = k) : Contiguous key (keys.flatMap part) := by
  induction keys with
  | nil => exact contiguous_of_nodup List.nodup_nil
  | cons k keys ih =>
    rw [List.nodup_cons] at hkeys
    rw [List.forall_mem_cons] at hpart
    rw [List.flatMap_cons]
    have hconstant : Contiguous key (part k) := by
      intro a between b hbetween _
      rw [hpart.1 a (hbetween.subset (by simp)), hpart.1 between (hbetween.subset (by simp))]
    refine hconstant.append (ih hkeys.2 hpart.2) ?_
    intro a ha b hb heq
    obtain ⟨k', hk', hb⟩ := List.mem_flatMap.mp hb
    rw [hpart.1 a ha, hpart.2 k' hk' b hb] at heq
    exact hkeys.1 (heq ▸ hk')

end Contiguous

namespace Project

/-- Pairs of a name and a language in order: a name that comes up twice comes up with all languages
each time. -/
theorem contiguous_documents_iff {names languages : List String}
    (hnames : names.Pairwise (· ≤ ·)) (hlanguages : languages.Nodup) :
    Contiguous id (documents names languages) ↔ languages.length ≤ 1 ∨ names.Nodup := by
  constructor
  · intro h
    rcases languages with _ | ⟨first, _ | ⟨second, others⟩⟩
    · exact Or.inl (Nat.zero_le 1)
    · exact Or.inl le_rfl
    · right
      rw [List.nodup_iff_sublist]
      intro name htwice
      have hdocuments : [(name, first), (name, second), (name, first)].Sublist
          (documents [name, name] (first :: second :: others)) := by
        simp [documents]
      have hsame := h _ _ _ (hdocuments.trans (htwice.flatMap _)) rfl
      rw [id, id, Prod.mk.injEq] at hsame
      exact (List.nodup_cons.mp hlanguages).1 (hsame.2 ▸ List.mem_cons_self)
  · rintro (hone | hnodup)
    · rcases languages with _ | ⟨language, _ | ⟨second, others⟩⟩
      · have hnil : documents names [] = [] := by simp [documents]
        rw [hnil]
        exact contiguous_of_nodup List.nodup_nil
      -- With one language the pairs are the names, and these are in order.
      · have hmap : documents names [language] = names.map fun name => (name, language) :=
          List.map_eq_flatMap.symm
        rw [hmap, contiguous_map_iff]
        intro a between b hbetween heq
        rw [Prod.mk.injEq] at heq ⊢
        have hordered : Contiguous id names := contiguous_of_ordered (by rwa [List.map_id])
        exact ⟨hordered a between b hbetween heq.1, rfl⟩
      · simp at hone
    · apply contiguous_of_nodup
      rw [List.map_id]
      exact hnodup.product hlanguages

/-! ## Keys of unknown namespaces -/

variable {loader p : Project} {files : Directory} {set : CatalogSet} {scan : Option SourceScan}

/-- The keys of namespaces without a catalog, when references are checked. -/
def strayKeys (p : Project) (set : CatalogSet) (scan : Option SourceScan) : List ResolvedKey :=
  match scan with
  | some scan =>
    if p.config.checkReferences then
      scan.keys.filter fun key => !set.namespaces.contains key.nameSpace
    else []
  | none => []

/-- What a check says of such a key in one language. -/
def strayFinding (key : ResolvedKey) (language : String) : Finding :=
  { kind := .missingKey
    nameSpace := key.nameSpace
    language
    path := key.path
    message := s!"referenced in source but namespace \x60{key.nameSpace}\x60 does not exist" }

/-- Key by key, in every language. -/
def strayFindings (p : Project) (set : CatalogSet) (scan : Option SourceScan) : List Finding :=
  (p.strayKeys set scan).flatMap fun key => set.languages.map (strayFinding key)

/-- Scanned keys come in order, each once. -/
def InOrder (scan : Option SourceScan) : Prop :=
  ∀ s, scan = some s → s.keys.Pairwise fun a b => a.rank < b.rank

theorem inOrder_scanSources {s : SourceScan} (h : p.scanSources files = .ok s) :
    InOrder (some s) := by
  rintro s' ⟨⟩
  unfold scanSources at h
  cases hpaths : p.sourceFiles files with
  | error e =>
    rw [hpaths] at h
    cases h
  | ok paths =>
    rw [hpaths] at h
    cases h
    exact ResolvedKey.ranked.pairwise_sortedSet _

theorem not_mem_of_mem_strayKeys {key : ResolvedKey} (h : key ∈ p.strayKeys set scan) :
    key.nameSpace ∉ set.namespaces := by
  unfold strayKeys at h
  split at h
  · split at h
    · simpa using (List.mem_filter.mp h).2
    · cases h
  · cases h

theorem InOrder.strayKeys (h : InOrder scan) (p : Project) (set : CatalogSet) :
    (p.strayKeys set scan).Pairwise fun a b => a.rank < b.rank := by
  unfold Project.strayKeys
  split
  · split
    · exact (h _ rfl).filter _
    · exact List.Pairwise.nil
  · exact List.Pairwise.nil

theorem InOrder.strayNames (h : InOrder scan) (p : Project) (set : CatalogSet) :
    ((p.strayKeys set scan).map ResolvedKey.nameSpace).Pairwise (· ≤ ·) := by
  rw [List.pairwise_map]
  refine (h.strayKeys p set).imp fun hlt => ?_
  exact (Prod.Lex.toLex_le_toLex'.mp hlt.le).1

theorem place_strayFindings :
    (p.strayFindings set scan).map Finding.place =
      documents ((p.strayKeys set scan).map ResolvedKey.nameSpace) set.languages := by
  rw [strayFindings, List.map_flatMap, documents, List.flatMap_map]
  simp only [List.map_map]
  rfl

theorem nameSpace_not_mem_of_mem_strayFindings {f : Finding}
    (h : f ∈ p.strayFindings set scan) : f.nameSpace ∉ set.namespaces := by
  obtain ⟨key, hkey, hf⟩ := List.mem_flatMap.mp h
  obtain ⟨language, _, rfl⟩ := List.mem_map.mp hf
  exact not_mem_of_mem_strayKeys hkey

theorem strayFindings_eq_map_product :
    p.strayFindings set scan = (p.strayKeys set scan ×ˢ set.languages).map
      fun pair => strayFinding pair.1 pair.2 := by
  simp only [strayFindings, SProd.sprod, List.product, List.map_flatMap, List.map_map]
  rfl

theorem nodup_strayFindings (hscan : InOrder scan) (hlanguages : set.languages.Nodup) :
    ((p.strayFindings set scan).map Finding.identity).Nodup := by
  have hpairs : (p.strayKeys set scan ×ˢ set.languages).Nodup :=
    (nodup_of_ascending (hscan.strayKeys p set)).product hlanguages
  rw [strayFindings_eq_map_product, List.map_map]
  refine hpairs.map ?_
  rintro ⟨⟨nameSpace, path⟩, language⟩ ⟨⟨nameSpace', path'⟩, language'⟩ heq
  simp only [Function.comp_apply, strayFinding, Finding.identity,
    Finding.Identity.mk.injEq] at heq
  simp [heq]

theorem findings_unknownReports (hscan : InOrder scan) (hlanguages : set.languages.Nodup) :
    (p.unknownReports set scan).flatMap Report.findings = p.strayFindings set scan := by
  have hnodup := nodup_strayFindings (p := p) hscan hlanguages
  unfold unknownReports
  unfold strayFindings strayKeys at hnodup ⊢
  cases scan with
  | none => rfl
  | some s =>
    by_cases hcheck : p.config.checkReferences = true
    · simp only [hcheck, if_true] at hnodup ⊢
      rw [List.flatMap_singleton]
      exact Report.findings_ofList hnodup
    · simp only [hcheck]
      rfl

/-! ## Known namespaces -/

/-- The findings on documents, and before them the documents that could not be loaded. -/
def knownFindings (p : Project) (set : CatalogSet) (scan : Option SourceScan) : List Finding :=
  set.failures.findings ++
    (documents set.namespaces set.languages).flatMap (p.documentFindings set scan)

theorem exists_of_mem_documentFindings {document : String × String} {f : Finding}
    (hf : f ∈ p.documentFindings set scan document) :
    f.place = document ∧ ∃ c, set.get? document.2 document.1 = some c := by
  obtain ⟨r, hr, _⟩ := List.mem_flatMap.mp hf
  obtain ⟨c, hget, _⟩ := mem_documentReports.mp hr
  obtain ⟨hnameSpace, hlanguage⟩ := Finding.isAbout_iff.mp (about_of_mem_documentFindings hf)
  exact ⟨Prod.ext hnameSpace hlanguage, c, hget⟩

theorem exists_of_mem_failures (hset : loader.loadCatalogs files = .ok set) {f : Finding}
    (hf : f ∈ set.failures.findings) :
    f.place ∈ documents set.namespaces set.languages ∧
      set.get? f.language f.nameSpace = none := by
  rw [failures_eq hset] at hf
  obtain ⟨⟨nameSpace, language⟩, hmem, hfailure⟩ :=
    List.mem_filterMap.mp (Report.mem_of_mem_ofList hf)
  obtain ⟨_, rfl, rfl⟩ := of_failure? hfailure
  obtain ⟨hnameSpace, hlanguage⟩ := mem_documents.mp hmem
  obtain ⟨e, hload, _⟩ := failure?_eq_some_iff.mp hfailure
  exact ⟨hmem, (get?_eq_none_iff hset hlanguage hnameSpace).mpr ⟨e, hload⟩⟩

theorem nodup_namespaces (hset : loader.loadCatalogs files = .ok set) (hfiles : files.WellFormed) :
    set.namespaces.Nodup :=
  Store.nodup_of_listNamespaces hfiles
    (listNamespaces_of_namespaces (namespaces_of_loadCatalogs hset))

theorem nameSpace_mem_of_mem_knownFindings (hset : loader.loadCatalogs files = .ok set)
    {f : Finding} (hf : f ∈ p.knownFindings set scan) : f.nameSpace ∈ set.namespaces := by
  rcases List.mem_append.mp hf with hfailed | hfound
  · exact (mem_documents.mp (exists_of_mem_failures hset hfailed).1).1
  · obtain ⟨document, hmem, hf⟩ := List.mem_flatMap.mp hfound
    obtain ⟨rfl, _⟩ := exists_of_mem_documentFindings hf
    exact (mem_documents.mp hmem).1

/-- Nothing is said of the contents of a document that could not be loaded. -/
theorem contiguous_knownFindings (hset : loader.loadCatalogs files = .ok set)
    (hfiles : files.WellFormed) (hlanguages : set.languages.Nodup) :
    Contiguous Finding.place (p.knownFindings set scan) := by
  have hdocuments := nodup_documents (nodup_namespaces hset hfiles) hlanguages
  apply Contiguous.append
  · rw [failures_eq hset]
    refine Contiguous.sublist ?_ (Report.findings_ofList_sublist _)
    rw [List.filterMap_eq_flatMap_toList]
    refine contiguous_flatMap hdocuments fun document _ f hf => ?_
    obtain ⟨_, hnameSpace, hlanguage⟩ := of_failure? (Option.mem_toList.mp hf)
    exact Prod.ext hnameSpace hlanguage
  · exact contiguous_flatMap hdocuments fun document _ f hf =>
      (exists_of_mem_documentFindings hf).1
  · intro failed hfailed found hfound heq
    obtain ⟨document, _, hfound⟩ := List.mem_flatMap.mp hfound
    obtain ⟨rfl, c, hget⟩ := exists_of_mem_documentFindings hfound
    have hnone := (exists_of_mem_failures hset hfailed).2
    obtain ⟨hnameSpace, hlanguage⟩ := Prod.mk.inj heq
    rw [hnameSpace, hlanguage] at hnone
    exact Option.some_ne_none c (hget.symm.trans hnone)

/-! ## A whole check -/

theorem checkCatalogs_findings (hset : loader.loadCatalogs files = .ok set)
    (hlanguages : set.languages.Nodup) (hscan : InOrder scan) :
    (p.checkCatalogs set scan).findings =
      (Report.ofList (p.knownFindings set scan)).findings ++ p.strayFindings set scan := by
  rw [checkCatalogs_eq_ofList, findings_unknownReports hscan hlanguages, ← knownFindings,
    Report.ofList, Report.pushAll_append]
  apply Report.findings_pushAll
  rw [List.nodup_append]
  refine ⟨Report.nodup_seen_ofList _, nodup_strayFindings hscan hlanguages, ?_⟩
  intro i hknown j hstray heq
  obtain ⟨f, hf, rfl⟩ := Report.mem_seen_ofList.mp hknown
  obtain ⟨g, hg, rfl⟩ := List.mem_map.mp hstray
  have hname : f.nameSpace = g.nameSpace := congrArg Finding.Identity.nameSpace heq
  apply nameSpace_not_mem_of_mem_strayFindings hg
  exact hname ▸ nameSpace_mem_of_mem_knownFindings hset hf

/-- The findings on known namespaces come first, and those on one namespace and language stand
together. Behind them come the keys of unknown namespaces. All findings on one namespace and
language stand together exactly when there is a single language or no two of these keys have their
namespace in common. -/
theorem checkCatalogs_contiguous (hset : loader.loadCatalogs files = .ok set)
    (hfiles : files.WellFormed) (hlanguages : set.languages.Nodup) (hscan : InOrder scan) :
    (∃ known, (p.checkCatalogs set scan).findings = known ++ p.strayFindings set scan ∧
      (∀ f ∈ known, f.nameSpace ∈ set.namespaces) ∧ Contiguous Finding.place known) ∧
    (Contiguous Finding.place (p.checkCatalogs set scan).findings ↔
      set.languages.length ≤ 1 ∨ ((p.strayKeys set scan).map ResolvedKey.nameSpace).Nodup) := by
  have hknown : ∀ f ∈ (Report.ofList (p.knownFindings set scan)).findings,
      f.nameSpace ∈ set.namespaces := fun f hf =>
    nameSpace_mem_of_mem_knownFindings hset (Report.mem_of_mem_ofList hf)
  have hcontiguous : Contiguous Finding.place (Report.ofList (p.knownFindings set scan)).findings :=
    (contiguous_knownFindings hset hfiles hlanguages).sublist (Report.findings_ofList_sublist _)
  have hsplit := checkCatalogs_findings (p := p) hset hlanguages hscan
  refine ⟨⟨_, hsplit, hknown, hcontiguous⟩, ?_⟩
  rw [← contiguous_documents_iff (hscan.strayNames p set) hlanguages, ← place_strayFindings,
    contiguous_map_iff, hsplit]
  constructor
  · intro h
    exact h.sublist (List.sublist_append_right _ _)
  · intro hstray
    apply hcontiguous.append hstray
    intro f hf g hg heq
    have hname : f.nameSpace = g.nameSpace := congrArg Prod.fst heq
    exact nameSpace_not_mem_of_mem_strayFindings hg (hname ▸ hknown f hf)

/-- A key that no document has, and one key in each of two unknown namespaces. -/
def straysApart : SourceScan :=
  ⟨[⟨"app", "b"⟩, ⟨"ghost", "a"⟩, ⟨"spectre", "a"⟩], 1, []⟩

theorem checkCatalogs_contiguous_straysApart :
    greetingProject.loadCatalogs greetingFiles = .ok greetingSet ∧ greetingFiles.WellFormed ∧
      greetingSet.languages.Nodup ∧ InOrder (some straysApart) ∧
      (greetingProject.checkCatalogs greetingSet (some straysApart)).findings.length = 6 ∧
      Contiguous Finding.place
        (greetingProject.checkCatalogs greetingSet (some straysApart)).findings := by
  have hfiles : greetingFiles.WellFormed := by decide
  have hlanguages : greetingSet.languages.Nodup := by decide
  have hscan : InOrder (some straysApart) := by
    rintro s ⟨⟩
    decide
  have hgrouped := checkCatalogs_contiguous (p := greetingProject) greeting_loadCatalogs hfiles
    hlanguages hscan
  exact ⟨greeting_loadCatalogs, hfiles, hlanguages, hscan, by decide,
    hgrouped.2.mpr (Or.inr (by decide))⟩

/-- Two keys of one unknown namespace. -/
def straysTogether : SourceScan :=
  ⟨[⟨"ghost", "a"⟩, ⟨"ghost", "b"⟩], 1, []⟩

/-- Between the findings on `ghost` in the first language there is one in the second. -/
theorem torn_of_straysTogether :
    greetingProject.loadCatalogs greetingFiles = .ok greetingSet ∧ greetingFiles.WellFormed ∧
      greetingSet.languages.Nodup ∧ InOrder (some straysTogether) ∧
      ¬Contiguous Finding.place
        (greetingProject.checkCatalogs greetingSet (some straysTogether)).findings := by
  refine ⟨greeting_loadCatalogs, by decide, by decide, ?_, fun hcontiguous => ?_⟩
  · rintro s ⟨⟩
    decide
  · have hbetween : [strayFinding ⟨"ghost", "a"⟩ "en", strayFinding ⟨"ghost", "a"⟩ "de",
        strayFinding ⟨"ghost", "b"⟩ "en"].Sublist
          (greetingProject.checkCatalogs greetingSet (some straysTogether)).findings := by
      decide
    have hsame := hcontiguous _ _ _ hbetween rfl
    revert hsame
    decide

end Project

end LocaleAudit
