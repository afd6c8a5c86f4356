import LocaleAudit.Proofs.Report.Deduplication
import Mathlib.Data.List.Nodup

namespace LocaleAudit

/-!
# Parts of a report

A finding is dropped only for another one of its namespace, its language and its path. So what a
report has for a namespace and a language is what a report on their findings alone would have, and
problems of a kind without variables stand in it once for each path.
-/

namespace Finding

def isAbout (nameSpace language : String) (f : Finding) : Bool :=
  f.nameSpace == nameSpace && f.language == language

def isAt (kind : Kind) (nameSpace language path : String) (f : Finding) : Bool :=
  f.kind == kind && f.isAbout nameSpace language && f.path == path

variable {f g : Finding} {kind : Kind} {nameSpace language path : String}

theorem isAbout_iff :
    f.isAbout nameSpace language = true ↔ f.nameSpace = nameSpace ∧ f.language = language := by
  simp [isAbout]

theorem isAbout_eq_false_of_ne {nameSpace' language' : String}
    (h : f.isAbout nameSpace language = true)
    (hne : (nameSpace, language) ≠ (nameSpace', language')) :
    f.isAbout nameSpace' language' = false := by
  rw [Bool.eq_false_iff]
  intro h'
  obtain ⟨rfl, rfl⟩ := isAbout_iff.mp h
  obtain ⟨rfl, rfl⟩ := isAbout_iff.mp h'
  exact hne rfl

theorem isAbout_of_identity_eq (h : f.identity = g.identity) :
    f.isAbout nameSpace language = g.isAbout nameSpace language := by
  have hnameSpace : f.nameSpace = g.nameSpace := congrArg Identity.nameSpace h
  have hlanguage : f.language = g.language := congrArg Identity.language h
  rw [isAbout, isAbout, hnameSpace, hlanguage]

theorem isAt_iff_identity (h : f.variableName = none) :
    f.isAt kind nameSpace language path = true ↔
      f.identity = ⟨kind, nameSpace, language, path, none⟩ := by
  simp [isAt, isAbout, identity, h, and_assoc]

end Finding

namespace Report

variable {r : Report} {f : Finding} {nameSpace language : String}

/-! ## One namespace and language -/

/-- The findings for one namespace and language. -/
def about (r : Report) (nameSpace language : String) : Report :=
  ⟨r.findings.filter (Finding.isAbout nameSpace language)⟩

theorem about_push_other (h : f.isAbout nameSpace language = false) :
    (r.push f).about nameSpace language = r.about nameSpace language := by
  by_cases hf : f.identity ∈ r.seen
  · rw [push_of_known hf]
  · simp [about, findings_push_of_new hf, h]

theorem mem_seen_about (h : f.isAbout nameSpace language = true) :
    f.identity ∈ (r.about nameSpace language).seen ↔ f.identity ∈ r.seen := by
  simp only [seen, about, List.mem_map, List.mem_filter]
  constructor
  · rintro ⟨g, ⟨hg, _⟩, heq⟩
    exact ⟨g, hg, heq⟩
  · rintro ⟨g, hg, heq⟩
    exact ⟨g, ⟨hg, by rw [Finding.isAbout_of_identity_eq heq, h]⟩, heq⟩

theorem about_push_same (h : f.isAbout nameSpace language = true) :
    (r.push f).about nameSpace language = (r.about nameSpace language).push f := by
  by_cases hf : f.identity ∈ r.seen
  · rw [push_of_known hf, push_of_known ((mem_seen_about h).mpr hf)]
  · have hnew : f.identity ∉ (r.about nameSpace language).seen := mt (mem_seen_about h).mp hf
    have hfindings : ((r.push f).about nameSpace language).findings =
        ((r.about nameSpace language).push f).findings := by
      rw [findings_push_of_new hnew, about, findings_push_of_new hf, List.filter_append,
        List.filter_cons_of_pos h]
      rfl
    exact congrArg Report.mk hfindings

theorem about_pushAll (findings : List Finding) :
    (r.pushAll findings).about nameSpace language =
      (r.about nameSpace language).pushAll
        (findings.filter (Finding.isAbout nameSpace language)) := by
  induction findings generalizing r with
  | nil => rfl
  | cons f rest ih =>
    have hrest : (r.pushAll (f :: rest)).about nameSpace language =
        ((r.push f).about nameSpace language).pushAll
          (rest.filter (Finding.isAbout nameSpace language)) := ih
    rw [hrest]
    cases hf : f.isAbout nameSpace language with
    | true =>
      rw [about_push_same hf, List.filter_cons_of_pos hf]
      rfl
    | false => rw [about_push_other hf, List.filter_cons_of_neg (by simp [hf])]

theorem about_ofList (findings : List Finding) :
    (ofList findings).about nameSpace language =
      ofList (findings.filter (Finding.isAbout nameSpace language)) :=
  about_pushAll findings

theorem pushAll_append (first rest : List Finding) :
    r.pushAll (first ++ rest) = (r.pushAll first).pushAll rest :=
  List.foldl_append

/-- Merging reports one after the other takes in all their findings in order. -/
theorem foldl_merge_eq_pushAll (reports : List Report) :
    reports.foldl merge r = r.pushAll (reports.flatMap Report.findings) := by
  induction reports generalizing r with
  | nil => rfl
  | cons other rest ih => rw [List.foldl_cons, ih, List.flatMap_cons, pushAll_append, merge]

theorem nodup_seen_ofList (findings : List Finding) : (ofList findings).seen.Nodup :=
  nodup_seen_pushAll List.nodup_nil

/-! ## One path -/

section

variable {kind : Finding.Kind} {path : String}
  (hplain : ∀ f ∈ r.findings, f.kind = kind → f.variableName = none)

include hplain

theorem isAt_iff_of_mem (hf : f ∈ r.findings) :
    f.isAt kind nameSpace language path = true ↔
      f.identity = ⟨kind, nameSpace, language, path, none⟩ := by
  by_cases hkind : f.kind = kind
  · exact Finding.isAt_iff_identity (hplain f hf hkind)
  · refine iff_of_false ?_ ?_
    · simp [Finding.isAt, hkind]
    · intro hidentity
      exact hkind (congrArg Finding.Identity.kind hidentity)

theorem exists_isAt_iff :
    (∃ f ∈ r.findings, f.isAt kind nameSpace language path = true) ↔
      ⟨kind, nameSpace, language, path, none⟩ ∈ r.seen := by
  rw [seen, List.mem_map]
  constructor
  · rintro ⟨f, hf, hat⟩
    exact ⟨f, hf, (isAt_iff_of_mem hplain hf).mp hat⟩
  · rintro ⟨f, hf, hidentity⟩
    exact ⟨f, hf, (isAt_iff_of_mem hplain hf).mpr hidentity⟩

theorem countP_isAt_le_one (hseen : r.seen.Nodup) :
    r.findings.countP (Finding.isAt kind nameSpace language path) ≤ 1 := by
  have hcount : r.findings.countP (Finding.isAt kind nameSpace language path) =
      r.seen.count ⟨kind, nameSpace, language, path, none⟩ := by
    rw [seen, List.count, List.countP_map]
    refine List.countP_congr fun f hf => ?_
    rw [isAt_iff_of_mem hplain hf, Function.comp_apply, beq_iff_eq]
  rw [hcount]
  exact List.nodup_iff_count_le_one.mp hseen _

end

end Report

end LocaleAudit
