import LocaleAudit.Proofs.Catalog.Documents
import LocaleAudit.Proofs.Interpolation.Templates
import LocaleAudit.Proofs.Report.Projection
import LocaleAudit.Proofs.Validation

namespace LocaleAudit

/-!
# Validation leaf by leaf

The findings of a catalog are those of its leaves, one after the other. Leaves have different paths
and the checks on one leaf find problems of different kinds, so the report drops nothing, and what
it says of a path depends on the values there.
-/

namespace Validation

open Json (Value)

variable {c : Catalog} {default : Option Catalog} {path : String} {reference : Option Value}
  {value : Value} {found : List Finding} {f : Finding}

/-! ## The checks on one leaf -/

def emptyFinding (c : Catalog) (path : String) : Finding :=
  { kind := .emptyValue
    nameSpace := c.nameSpace
    language := c.language
    path
    message := "value is empty" }

def markupFinding (c : Catalog) (path text : String) (fault : Markup.Fault) : Finding :=
  { kind := .unbalancedMarkup
    nameSpace := c.nameSpace
    language := c.language
    path
    message := fault.message
    value := some text }

/-- A default catalog of another language has the text at the path. -/
def DefaultText (c : Catalog) (default : Option Catalog) (path text : String) : Prop :=
  ∃ d ∈ default, d.language ≠ c.language ∧ (path, .string text) ∈ d.leaves

inductive EmptyCheck (c : Catalog) (path : String) : Value → List Finding → Prop
  | null : EmptyCheck c path .null [emptyFinding c path]
  | noText : EmptyCheck c path (.string "") [emptyFinding c path]
  | other {value : Value} (hnull : value ≠ .null) (htext : value ≠ .string "") :
      EmptyCheck c path value []

inductive MarkupCheck (c : Catalog) (path : String) : Value → List Finding → Prop
  | nests {text : String} (h : Markup.check text = .ok ()) : MarkupCheck c path (.string text) []
  | fault {text : String} {fault : Markup.Fault} (h : Markup.check text = .error fault) :
      MarkupCheck c path (.string text) [markupFinding c path text fault]
  | other {value : Value} (h : ∀ text, value ≠ .string text) : MarkupCheck c path value []

inductive VariableCheck (c : Catalog) (default : Option Catalog) (path : String) :
    Value → List Finding → Prop
  | compared {text defaultText : String} (h : DefaultText c default path defaultText) :
      VariableCheck c default path (.string text)
        (checkVariables c.nameSpace c.language path defaultText text).findings
  | alone {text : String} (h : ∀ defaultText, ¬DefaultText c default path defaultText) :
      VariableCheck c default path (.string text) []
  | other {value : Value} (h : ∀ text, value ≠ .string text) :
      VariableCheck c default path value []

/-- The leaves one after the other, and at each of them the checks one after the other. -/
inductive LeafByLeaf (c : Catalog) (default : Option Catalog) :
    List (String × Value) → List Finding → Prop
  | nil : LeafByLeaf c default [] []
  | cons {path : String} {value : Value} {rest : List (String × Value)}
      {empty markup compared found : List Finding}
      (hempty : EmptyCheck c path value empty) (hmarkup : MarkupCheck c path value markup)
      (hcompared : VariableCheck c default path value compared)
      (hrest : LeafByLeaf c default rest found) :
      LeafByLeaf c default ((path, value) :: rest) (empty ++ markup ++ compared ++ found)

/-! ## The checks as functions -/

def emptyFindings (c : Catalog) (path : String) (value : Value) : List Finding :=
  if isEmptyValue value then [emptyFinding c path] else []

def markupFindings (c : Catalog) (path : String) : Value → List Finding
  | .string text =>
    match Markup.check text with
    | .ok () => []
    | .error fault => [markupFinding c path text fault]
  | _ => []

def textFindings (c : Catalog) (path : String) (reference : Option Value) : Value → List Finding
  | .string text =>
    match reference with
    | some (.string defaultText) =>
      variableFindings c.nameSpace c.language path defaultText text
    | _ => []
  | _ => []

theorem leafFindings_eq :
    leafFindings c.nameSpace c.language path reference value =
      emptyFindings c path value ++ markupFindings c path value ++
        textFindings c path reference value := by
  cases value with
  | string text => rfl
  | _ => simp [leafFindings, emptyFindings, markupFindings, textFindings, emptyFinding]

theorem emptyCheck_iff : EmptyCheck c path value found ↔ emptyFindings c path value = found := by
  constructor
  · intro h
    cases h with
    | null => rfl
    | noText => rfl
    | other hnull htext => cases value <;> simp_all [emptyFindings, isEmptyValue]
  · rintro rfl
    cases value with
    | null => exact .null
    | string text =>
      by_cases htext : text = ""
      · subst htext
        exact .noText
      · have hempty : emptyFindings c path (.string text) = [] := by
          simp [emptyFindings, isEmptyValue, htext]
        rw [hempty]
        exact .other (by simp) (by simpa using htext)
    | _ => exact .other (by simp) (by simp)

theorem markupCheck_iff : MarkupCheck c path value found ↔ markupFindings c path value = found := by
  constructor
  · intro h
    cases h with
    | nests h => simp only [markupFindings, h]
    | fault h => simp only [markupFindings, h]
    | other h => cases value <;> simp_all [markupFindings]
  · rintro rfl
    cases value with
    | string text =>
      cases hcheck : Markup.check text with
      | ok => simpa only [markupFindings, hcheck] using MarkupCheck.nests hcheck
      | error fault => simpa only [markupFindings, hcheck] using MarkupCheck.fault hcheck
    | _ => exact .other (by simp)

theorem defaultText_iff (hdefault : ∀ d ∈ default, d.Parsed) {text : String} :
    DefaultText c default path text ↔ reference? c default path = some (.string text) := by
  cases default with
  | none => simp [DefaultText, reference?]
  | some d =>
    rw [reference?_eq_string_iff (hdefault d rfl).wellFormed]
    simp [DefaultText, eq_comm]

theorem textFindings_alone {text : String}
    (h : ∀ defaultText, reference ≠ some (.string defaultText)) :
    textFindings c path reference (.string text) = [] := by
  rw [textFindings]
  exact h

theorem variableCheck_iff (hdefault : ∀ d ∈ default, d.Parsed) :
    VariableCheck c default path value found ↔
      textFindings c path (reference? c default path) value = found := by
  constructor
  · intro h
    cases h with
    | compared h =>
      simp only [textFindings, (defaultText_iff hdefault).mp h, findings_checkVariables]
    | alone h => exact textFindings_alone fun text => mt (defaultText_iff hdefault).mpr (h text)
    | other h => cases value <;> simp_all [textFindings]
  · rintro rfl
    cases value with
    | string text =>
      by_cases hdefaultText : ∃ defaultText, DefaultText c default path defaultText
      · obtain ⟨defaultText, h⟩ := hdefaultText
        simpa only [textFindings, (defaultText_iff hdefault).mp h, findings_checkVariables] using
          VariableCheck.compared h
      · have halone : ∀ defaultText, ¬DefaultText c default path defaultText :=
          not_exists.mp hdefaultText
        rw [textFindings_alone fun text => mt (defaultText_iff hdefault).mpr (halone text)]
        exact .alone halone
    | _ => exact .other (by simp)

/-- The findings for one leaf of a catalog. -/
def findingsFor (c : Catalog) (default : Option Catalog) (l : String × Value) : List Finding :=
  leafFindings c.nameSpace c.language l.1 (reference? c default l.1) l.2

theorem findingsFor_eq_append (l : String × Value) :
    findingsFor c default l = emptyFindings c l.1 l.2 ++ markupFindings c l.1 l.2 ++
      textFindings c l.1 (reference? c default l.1) l.2 :=
  leafFindings_eq

theorem catalogFindings_eq (c : Catalog) (default : Option Catalog) :
    catalogFindings c default = c.leaves.flatMap (findingsFor c default) :=
  rfl

theorem leafByLeaf_iff (hdefault : ∀ d ∈ default, d.Parsed) {leaves : List (String × Value)} :
    LeafByLeaf c default leaves found ↔ leaves.flatMap (findingsFor c default) = found := by
  constructor
  · intro h
    induction h with
    | nil => rfl
    | cons hempty hmarkup hcompared _ ih =>
      rw [List.flatMap_cons, ih, findingsFor_eq_append, emptyCheck_iff.mp hempty,
        markupCheck_iff.mp hmarkup, (variableCheck_iff hdefault).mp hcompared]
  · rintro rfl
    induction leaves with
    | nil => exact .nil
    | cons l rest ih =>
      rw [List.flatMap_cons, findingsFor_eq_append]
      exact .cons (emptyCheck_iff.mpr rfl) (markupCheck_iff.mpr rfl)
        ((variableCheck_iff hdefault).mpr rfl) ih

/-! ## Nothing is lost -/

theorem kind_of_mem_emptyFindings (h : f ∈ emptyFindings c path value) : f.kind = .emptyValue := by
  rw [emptyFindings] at h
  split at h
  · rw [List.mem_singleton.mp h]
    rfl
  · cases h

theorem kind_of_mem_markupFindings (h : f ∈ markupFindings c path value) :
    f.kind = .unbalancedMarkup := by
  unfold markupFindings at h
  split at h
  · split at h
    · cases h
    · rw [List.mem_singleton.mp h]
      rfl
  · cases h

theorem kind_of_mem_textFindings (h : f ∈ textFindings c path reference value) :
    f.kind = .missingVariable ∨ f.kind = .extraVariable := by
  unfold textFindings at h
  split at h
  · split at h
    · rcases mem_variableFindings.mp h with ⟨_, _, _, rfl⟩ | ⟨_, _, _, rfl⟩
      · exact Or.inl rfl
      · exact Or.inr rfl
    · cases h
  · cases h

theorem nodup_identities_textFindings :
    ((textFindings c path reference value).map Finding.identity).Nodup := by
  unfold textFindings
  split
  · split
    · rw [← findings_checkVariables]
      exact Report.nodup_seen_pushAll List.nodup_nil
    · exact List.nodup_nil
  · exact List.nodup_nil

/-- Findings of different kinds are different problems. -/
theorem nodup_identities_append {l l' : List Finding} (h : (l.map Finding.identity).Nodup)
    (h' : (l'.map Finding.identity).Nodup) (hkind : ∀ f ∈ l, ∀ g ∈ l', f.kind ≠ g.kind) :
    ((l ++ l').map Finding.identity).Nodup := by
  rw [List.map_append, List.nodup_append]
  refine ⟨h, h', ?_⟩
  intro i hi j hj
  obtain ⟨f, hf, rfl⟩ := List.mem_map.mp hi
  obtain ⟨g, hg, rfl⟩ := List.mem_map.mp hj
  exact fun heq => hkind f hf g hg (congrArg Finding.Identity.kind heq)

theorem nodup_identities_findingsFor (l : String × Value) :
    ((findingsFor c default l).map Finding.identity).Nodup := by
  have hempty : ((emptyFindings c l.1 l.2).map Finding.identity).Nodup := by
    rw [emptyFindings]
    split <;> simp
  have hmarkup : ((markupFindings c l.1 l.2).map Finding.identity).Nodup := by
    unfold markupFindings
    split
    · split <;> simp
    · exact List.nodup_nil
  rw [findingsFor_eq_append]
  refine nodup_identities_append (nodup_identities_append hempty hmarkup ?_)
    nodup_identities_textFindings ?_
  · intro f hf g hg
    rw [kind_of_mem_emptyFindings hf, kind_of_mem_markupFindings hg]
    decide
  · intro f hf g hg
    rcases List.mem_append.mp hf with hf | hf
    · rw [kind_of_mem_emptyFindings hf]
      rcases kind_of_mem_textFindings hg with hkind | hkind <;> rw [hkind] <;> decide
    · rw [kind_of_mem_markupFindings hf]
      rcases kind_of_mem_textFindings hg with hkind | hkind <;> rw [hkind] <;> decide

theorem path_of_mem_findingsFor {l : String × Value} (h : f ∈ findingsFor c default l) :
    f.path = l.1 :=
  (of_mem_leafFindings h).2.2.1

/-- No two findings of a catalog are the same problem. -/
theorem nodup_identities_catalogFindings (hc : c.Parsed) :
    ((catalogFindings c default).map Finding.identity).Nodup := by
  have hpaths : c.leaves.Pairwise fun a b => a.1 ≠ b.1 :=
    List.pairwise_map.mp (KeyPath.nodup_leafPaths hc.wellFormed)
  rw [catalogFindings_eq, List.map_flatMap, List.nodup_flatMap]
  refine ⟨fun l _ => nodup_identities_findingsFor l, hpaths.imp fun hne i hi hj => ?_⟩
  -- A problem names the path of its leaf, and no two leaves share one.
  obtain ⟨f, hf, rfl⟩ := List.mem_map.mp hi
  obtain ⟨g, hg, heq⟩ := List.mem_map.mp hj
  apply hne
  rw [← path_of_mem_findingsFor hf, ← path_of_mem_findingsFor hg]
  exact (congrArg Finding.Identity.path heq).symm

theorem findings_validateCatalog (hc : c.Parsed) :
    (validateCatalog c default).findings = catalogFindings c default :=
  Report.findings_ofList (nodup_identities_catalogFindings hc)

/-! ## The report as it grows -/

/-- One leaf in a growing report. Values that are no texts are done with after the first check. -/
def checkLeaf (c : Catalog) (default : Option Catalog) (r : Report) (l : String × Value) : Report :=
  let r := if isEmptyValue l.2 then r.push (emptyFinding c l.1) else r
  match l.2 with
  | .string text =>
    let r :=
      match Markup.check text with
      | .ok () => r
      | .error fault => r.push (markupFinding c l.1 text fault)
    match reference? c default l.1 with
    | some (.string defaultText) =>
      r.merge (checkVariables c.nameSpace c.language l.1 defaultText text)
    | _ => r
  | _ => r

theorem pushAll_emptyFindings (r : Report) :
    r.pushAll (emptyFindings c path value) =
      if isEmptyValue value then r.push (emptyFinding c path) else r := by
  rw [emptyFindings]
  split <;> rfl

theorem pushAll_markupFindings (r : Report) (text : String) :
    r.pushAll (markupFindings c path (.string text)) =
      match Markup.check text with
      | .ok () => r
      | .error fault => r.push (markupFinding c path text fault) := by
  rw [markupFindings]
  split <;> rfl

theorem pushAll_textFindings (r : Report) (reference : Option Value) (text : String) :
    r.pushAll (textFindings c path reference (.string text)) =
      match reference with
      | some (.string defaultText) =>
        r.merge (checkVariables c.nameSpace c.language path defaultText text)
      | _ => r := by
  split
  · rw [Report.merge, findings_checkVariables]
    rfl
  · rename_i halone
    rw [textFindings_alone halone]
    rfl

theorem checkLeaf_eq_pushAll (r : Report) (l : String × Value) :
    checkLeaf c default r l = r.pushAll (findingsFor c default l) := by
  obtain ⟨path, value⟩ := l
  rw [findingsFor_eq_append, Report.pushAll_append, Report.pushAll_append, pushAll_emptyFindings]
  cases value with
  | string text =>
    rw [pushAll_markupFindings, pushAll_textFindings]
    rfl
  | _ => rfl

theorem foldl_checkLeaf (leaves : List (String × Value)) (r : Report) :
    leaves.foldl (checkLeaf c default) r =
      r.pushAll (leaves.flatMap (findingsFor c default)) := by
  induction leaves generalizing r with
  | nil => rfl
  | cons l rest ih =>
    rw [List.foldl_cons, ih, checkLeaf_eq_pushAll, List.flatMap_cons, Report.pushAll_append]

theorem validateCatalog_eq_foldl (c : Catalog) (default : Option Catalog) :
    validateCatalog c default = c.leaves.foldl (checkLeaf c default) Report.empty :=
  (foldl_checkLeaf c.leaves Report.empty).symm

/-! ## One path -/

theorem filter_findingsFor_same :
    (findingsFor c default (path, value)).filter (·.path == path) =
      findingsFor c default (path, value) := by
  rw [List.filter_eq_self]
  intro f hf
  rw [path_of_mem_findingsFor hf, beq_self_eq_true]

theorem filter_findingsFor_other {l : String × Value} (h : l.1 ≠ path) :
    (findingsFor c default l).filter (·.path == path) = [] := by
  rw [List.filter_eq_nil_iff]
  intro f hf
  rw [path_of_mem_findingsFor hf, beq_iff_eq]
  exact h

theorem filter_flatMap_findingsFor {leaves : List (String × Value)}
    (h : path ∉ leaves.map Prod.fst) :
    (leaves.flatMap (findingsFor c default)).filter (·.path == path) = [] := by
  rw [List.filter_flatMap, List.flatMap_eq_nil_iff]
  intro l hl
  apply filter_findingsFor_other
  rintro rfl
  exact h (List.mem_map_of_mem hl)

theorem filter_catalogFindings_of_mem (hc : c.Parsed) (h : (path, value) ∈ c.leaves) :
    (catalogFindings c default).filter (·.path == path) = findingsFor c default (path, value) := by
  obtain ⟨before, after, hsplit⟩ := List.append_of_mem h
  have hnodup : (c.leaves.map Prod.fst).Nodup := KeyPath.nodup_leafPaths hc.wellFormed
  rw [hsplit, List.map_append, List.map_cons, List.nodup_middle, List.nodup_cons,
    List.mem_append, not_or] at hnodup
  rw [catalogFindings_eq, hsplit, List.flatMap_append, List.flatMap_cons, List.filter_append,
    List.filter_append, filter_flatMap_findingsFor hnodup.1.1,
    filter_flatMap_findingsFor hnodup.1.2, filter_findingsFor_same, List.nil_append,
    List.append_nil]

theorem filter_catalogFindings_of_not_mem (h : ∀ value, (path, value) ∉ c.leaves) :
    (catalogFindings c default).filter (·.path == path) = [] := by
  apply filter_flatMap_findingsFor
  intro hpath
  obtain ⟨l, hl, rfl⟩ := List.mem_map.mp hpath
  exact h l.2 hl

/-- Two catalogs of one language and namespace that hold the same leaf at a path, if any, next to
defaults that hold the same text there, if any. -/
structure AlikeAt (c c' : Catalog) (default default' : Option Catalog) (path : String) : Prop where
  language : c.language = c'.language
  nameSpace : c.nameSpace = c'.nameSpace
  leaf : ∀ value, (path, value) ∈ c.leaves ↔ (path, value) ∈ c'.leaves
  defaultText : ∀ text, DefaultText c default path text ↔ DefaultText c' default' path text

variable {c' : Catalog} {default' : Option Catalog}

theorem textFindings_congr {reference' : Option Value}
    (h : ∀ text, reference = some (.string text) ↔ reference' = some (.string text)) :
    textFindings c path reference value = textFindings c path reference' value := by
  cases value with
  | string text =>
    by_cases hreference : ∃ defaultText, reference = some (.string defaultText)
    · obtain ⟨defaultText, htext⟩ := hreference
      rw [htext, (h defaultText).mp htext]
    · have halone : ∀ defaultText, reference ≠ some (.string defaultText) :=
        not_exists.mp hreference
      rw [textFindings_alone halone, textFindings_alone fun text => mt (h text).mpr (halone text)]
  | _ => rfl

theorem AlikeAt.findingsFor_eq (h : AlikeAt c c' default default' path)
    (hdefault : ∀ d ∈ default, d.Parsed) (hdefault' : ∀ d ∈ default', d.Parsed) (value : Value) :
    findingsFor c default (path, value) = findingsFor c' default' (path, value) := by
  have hreference : ∀ text, reference? c default path = some (.string text) ↔
      reference? c' default' path = some (.string text) := by
    intro text
    rw [← defaultText_iff hdefault, ← defaultText_iff hdefault', h.defaultText]
  calc
    findingsFor c default (path, value) =
        emptyFindings c path value ++ markupFindings c path value ++
          textFindings c path (reference? c default path) value := findingsFor_eq_append _
    _ = emptyFindings c path value ++ markupFindings c path value ++
          textFindings c path (reference? c' default' path) value := by
      rw [textFindings_congr hreference]
    _ = leafFindings c.nameSpace c.language path (reference? c' default' path) value :=
      leafFindings_eq.symm
    _ = findingsFor c' default' (path, value) := by rw [findingsFor, h.nameSpace, h.language]

/-- What validation finds for two documents is what the checks find leaf by leaf, in order, and
nothing of it is lost in the report, which grows leaf by leaf. What it finds at a path depends on
the two values there. -/
theorem validateCatalog_leafByLeaf (c : Catalog) (default : Option Catalog) (hc : c.Parsed)
    (hdefault : ∀ d ∈ default, d.Parsed) :
    (∀ found, (validateCatalog c default).findings = found ↔ LeafByLeaf c default c.leaves found) ∧
    validateCatalog c default = c.leaves.foldl (checkLeaf c default) Report.empty ∧
    ∀ (c' : Catalog) (default' : Option Catalog) (path : String), c'.Parsed →
      (∀ d ∈ default', d.Parsed) → AlikeAt c c' default default' path →
        (validateCatalog c default).findings.filter (·.path == path) =
          (validateCatalog c' default').findings.filter (·.path == path) := by
  refine ⟨fun found => ?_, validateCatalog_eq_foldl c default, ?_⟩
  · rw [findings_validateCatalog hc, leafByLeaf_iff hdefault, catalogFindings_eq]
  · intro c' default' path hc' hdefault' halike
    rw [findings_validateCatalog hc, findings_validateCatalog hc']
    by_cases hleaf : ∃ value, (path, value) ∈ c.leaves
    · obtain ⟨value, hvalue⟩ := hleaf
      rw [filter_catalogFindings_of_mem hc hvalue,
        filter_catalogFindings_of_mem hc' ((halike.leaf value).mp hvalue),
        halike.findingsFor_eq hdefault hdefault']
    · have hnone : ∀ value, (path, value) ∉ c.leaves := not_exists.mp hleaf
      rw [filter_catalogFindings_of_not_mem hnone,
        filter_catalogFindings_of_not_mem fun value => mt (halike.leaf value).mpr (hnone value)]

/-- An empty text, and a text with an open tag and another variable than the default's. -/
def tornCatalog : Catalog :=
  ⟨"de", "app", [("a", .string ""), ("b", .string "<i>\x7b\x7bn\x7d\x7d")]⟩

def tornDefault : Catalog :=
  ⟨"en", "app", [("b", .string "\x7b\x7bm\x7d\x7d")]⟩

/-- The second text among other leaves. -/
def movedCatalog : Catalog :=
  ⟨"de", "app", [("b", .string "<i>\x7b\x7bn\x7d\x7d"), ("c", .null)]⟩

def movedDefault : Catalog :=
  ⟨"en", "app", [("a", .bool true), ("b", .string "\x7b\x7bm\x7d\x7d")]⟩

theorem alikeAt_torn :
    AlikeAt tornCatalog movedCatalog (some tornDefault) (some movedDefault) "b" where
  language := rfl
  nameSpace := rfl
  leaf value := by
    have htorn : tornCatalog.leaves =
        [("a", .string ""), ("b", .string "<i>\x7b\x7bn\x7d\x7d")] := by rfl
    have hmoved : movedCatalog.leaves =
        [("b", .string "<i>\x7b\x7bn\x7d\x7d"), ("c", .null)] := by rfl
    simp [htorn, hmoved]
  defaultText text := by
    have htorn : tornDefault.leaves = [("b", .string "\x7b\x7bm\x7d\x7d")] := by rfl
    have hmoved : movedDefault.leaves =
        [("a", .bool true), ("b", .string "\x7b\x7bm\x7d\x7d")] := by rfl
    have hlanguages : tornDefault.language ≠ tornCatalog.language ∧
        movedDefault.language ≠ movedCatalog.language := by decide
    simp [DefaultText, htorn, hmoved, hlanguages]

/-- Every check finds something, and what stands next to the torn text does not matter to it. -/
theorem validateCatalog_leafByLeaf_torn :
    tornCatalog.Parsed ∧ tornDefault.Parsed ∧ movedCatalog.Parsed ∧ movedDefault.Parsed ∧
      (validateCatalog tornCatalog (some tornDefault)).findings.map Finding.identity =
        [⟨.emptyValue, "app", "de", "a", none⟩, ⟨.unbalancedMarkup, "app", "de", "b", none⟩,
          ⟨.missingVariable, "app", "de", "b", some "m"⟩,
          ⟨.extraVariable, "app", "de", "b", some "n"⟩] ∧
      (validateCatalog tornCatalog (some tornDefault)).findings.filter (·.path == "b") =
        (validateCatalog movedCatalog (some movedDefault)).findings.filter (·.path == "b") := by
  have htorn : tornCatalog.Parsed := by
    have hparse : Catalog.parse "de" "app"
        "\x7b\"a\": \"\", \"b\": \"<i>\x7b\x7bn\x7d\x7d\"\x7d" = .ok tornCatalog := by
      decide +kernel
    exact Catalog.parsed_of_parse hparse
  have htornDefault : tornDefault.Parsed := by
    have hparse : Catalog.parse "en" "app" "\x7b\"b\": \"\x7b\x7bm\x7d\x7d\"\x7d" =
        .ok tornDefault := by
      decide +kernel
    exact Catalog.parsed_of_parse hparse
  have hmoved : movedCatalog.Parsed := by
    have hparse : Catalog.parse "de" "app"
        "\x7b\"b\": \"<i>\x7b\x7bn\x7d\x7d\", \"c\": null\x7d" = .ok movedCatalog := by
      decide +kernel
    exact Catalog.parsed_of_parse hparse
  have hmovedDefault : movedDefault.Parsed := by
    have hparse : Catalog.parse "en" "app"
        "\x7b\"a\": true, \"b\": \"\x7b\x7bm\x7d\x7d\"\x7d" = .ok movedDefault := by
      decide +kernel
    exact Catalog.parsed_of_parse hparse
  have hdefault : ∀ d ∈ some tornDefault, d.Parsed := by
    rintro d ⟨⟩
    exact htornDefault
  have hdefault' : ∀ d ∈ some movedDefault, d.Parsed := by
    rintro d ⟨⟩
    exact hmovedDefault
  obtain ⟨_, hrun, hlocal⟩ := validateCatalog_leafByLeaf tornCatalog _ htorn hdefault
  refine ⟨htorn, htornDefault, hmoved, hmovedDefault, ?_, ?_⟩
  · rw [hrun]
    decide +kernel
  · exact hlocal movedCatalog _ "b" hmoved hdefault' alikeAt_torn

end Validation

end LocaleAudit
