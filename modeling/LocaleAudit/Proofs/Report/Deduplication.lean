import LocaleAudit.Finding

namespace LocaleAudit

/-!
# Reports without repeated problems

A report drops findings, but never a problem: after any run of pushes it has exactly the identities
that were there and those that came in, each once.
-/

namespace Report

variable {r : Report} {f g : Finding} {i : Finding.Identity}

theorem knows_iff : r.knows f = true ↔ f.identity ∈ r.seen := by
  simp [knows, seen]

theorem push_of_known (h : f.identity ∈ r.seen) : r.push f = r := by
  rw [push, if_pos (knows_iff.mpr h)]

theorem findings_push_of_new (h : f.identity ∉ r.seen) :
    (r.push f).findings = r.findings ++ [f] := by
  have hnew : ¬r.knows f = true := fun hknows => h (knows_iff.mp hknows)
  rw [push, if_neg hnew]

theorem mem_seen_push : i ∈ (r.push f).seen ↔ i ∈ r.seen ∨ i = f.identity := by
  by_cases hf : f.identity ∈ r.seen
  · rw [push_of_known hf]
    constructor
    · exact Or.inl
    · rintro (hi | rfl)
      · exact hi
      · exact hf
  · simp [seen, findings_push_of_new hf]

theorem findings_push_sublist (r : Report) (f : Finding) :
    (r.push f).findings.Sublist (r.findings ++ [f]) := by
  by_cases hf : f.identity ∈ r.seen
  · rw [push_of_known hf]
    exact List.sublist_append_left _ _
  · exact findings_push_of_new hf ▸ List.Sublist.refl _

theorem nodup_seen_push (h : r.seen.Nodup) : (r.push f).seen.Nodup := by
  by_cases hf : f.identity ∈ r.seen
  · rwa [push_of_known hf]
  · rw [seen, findings_push_of_new hf, List.map_append, List.nodup_append]
    refine ⟨h, by simp, ?_⟩
    intro i hi j hj
    rw [List.map_singleton, List.mem_singleton] at hj
    rintro rfl
    exact hf (hj ▸ hi)

/-! ## Runs of pushes -/

theorem mem_seen_pushAll (findings : List Finding) :
    i ∈ (r.pushAll findings).seen ↔ i ∈ r.seen ∨ ∃ f ∈ findings, f.identity = i := by
  induction findings generalizing r with
  | nil => simp [pushAll]
  | cons f rest ih =>
    have hrest : i ∈ (r.pushAll (f :: rest)).seen ↔
        i ∈ (r.push f).seen ∨ ∃ g ∈ rest, g.identity = i := ih
    rw [hrest, mem_seen_push, or_assoc, eq_comm]
    simp only [List.mem_cons, exists_eq_or_imp]

theorem findings_pushAll_sublist (findings : List Finding) :
    (r.pushAll findings).findings.Sublist (r.findings ++ findings) := by
  induction findings generalizing r with
  | nil => exact List.sublist_append_left r.findings []
  | cons f rest ih =>
    rw [List.append_cons]
    exact ih.trans ((r.findings_push_sublist f).append_right rest)

theorem nodup_seen_pushAll {findings : List Finding} (h : r.seen.Nodup) :
    (r.pushAll findings).seen.Nodup := by
  induction findings generalizing r with
  | nil => exact h
  | cons f rest ih => exact ih (nodup_seen_push h)

/-- Findings of different problems, none of them known, are all kept. -/
theorem findings_pushAll {findings : List Finding}
    (h : (r.seen ++ findings.map Finding.identity).Nodup) :
    (r.pushAll findings).findings = r.findings ++ findings := by
  induction findings generalizing r with
  | nil => simp [pushAll]
  | cons f rest ih =>
    rw [List.map_cons, List.append_cons] at h
    have hnew : f.identity ∉ r.seen := by
      intro hknown
      have hfront := (List.nodup_append.mp h).1
      exact (List.nodup_append.mp hfront).2.2 _ hknown _ (List.mem_singleton_self _) rfl
    have hseen : (r.push f).seen = r.seen ++ [f.identity] := by
      rw [seen, findings_push_of_new hnew, List.map_append]
      rfl
    rw [← hseen] at h
    calc
      (r.pushAll (f :: rest)).findings = (r.push f).findings ++ rest := ih h
      _ = r.findings ++ (f :: rest) := by rw [findings_push_of_new hnew, ← List.append_cons]

theorem mem_seen_ofList {findings : List Finding} :
    i ∈ (ofList findings).seen ↔ ∃ f ∈ findings, f.identity = i := by
  rw [ofList, mem_seen_pushAll]
  simp [empty, seen]

theorem findings_ofList_sublist (findings : List Finding) :
    (ofList findings).findings.Sublist findings :=
  findings_pushAll_sublist findings

theorem mem_of_mem_ofList {findings : List Finding} (h : f ∈ (ofList findings).findings) :
    f ∈ findings :=
  (findings_ofList_sublist findings).subset h

theorem findings_ofList {findings : List Finding}
    (h : (findings.map Finding.identity).Nodup) : (ofList findings).findings = findings :=
  findings_pushAll h

/-- What can be said of a problem without its wording holds of the report when it holds of what came
in. -/
theorem exists_ofList_iff (p : Finding.Identity → Prop) {findings : List Finding} :
    (∃ f ∈ (ofList findings).findings, p f.identity) ↔ ∃ f ∈ findings, p f.identity := by
  constructor
  · rintro ⟨f, hf, hp⟩
    exact ⟨f, mem_of_mem_ofList hf, hp⟩
  · rintro ⟨f, hf, hp⟩
    obtain ⟨g, hg, heq⟩ := List.mem_map.mp (mem_seen_ofList.mpr ⟨f, hf, rfl⟩)
    exact ⟨g, hg, heq ▸ hp⟩

/-! ## Merging -/

theorem mem_seen_merge {other : Report} :
    i ∈ (r.merge other).seen ↔ i ∈ r.seen ∨ i ∈ other.seen := by
  rw [merge, mem_seen_pushAll, seen, seen, List.mem_map, List.mem_map]

theorem mem_seen_foldl_merge (reports : List Report) :
    i ∈ (reports.foldl merge r).seen ↔ i ∈ r.seen ∨ ∃ other ∈ reports, i ∈ other.seen := by
  induction reports generalizing r with
  | nil => simp
  | cons other rest ih =>
    rw [List.foldl_cons, ih, mem_seen_merge, or_assoc]
    simp only [List.mem_cons, exists_eq_or_imp]

/-! ## Errors -/

theorem isError_iff : f.isError = true ↔ f.identity.kind.severity = .error := by
  simp [Finding.isError, Finding.severity, Finding.identity]

theorem hasErrors_iff : r.hasErrors = true ↔ ∃ i ∈ r.seen, i.kind.severity = .error := by
  rw [hasErrors, List.any_eq_true]
  constructor
  · rintro ⟨f, hf, herror⟩
    exact ⟨f.identity, List.mem_map_of_mem hf, isError_iff.mp herror⟩
  · rintro ⟨i, hi, herror⟩
    obtain ⟨f, hf, rfl⟩ := List.mem_map.mp hi
    exact ⟨f, hf, isError_iff.mpr herror⟩

/-- Whether there are errors does not depend on which findings were dropped. -/
theorem hasErrors_ofList {findings : List Finding} :
    (ofList findings).hasErrors = true ↔ ∃ f ∈ findings, f.isError = true := by
  rw [hasErrors, List.any_eq_true]
  simp only [isError_iff]
  exact exists_ofList_iff fun i => i.kind.severity = .error

theorem hasErrors_foldl_merge (reports : List Report) :
    (reports.foldl merge r).hasErrors = true ↔
      r.hasErrors = true ∨ ∃ other ∈ reports, other.hasErrors = true := by
  simp only [hasErrors_iff, mem_seen_foldl_merge]
  constructor
  · rintro ⟨i, hi | ⟨other, hother, hi⟩, herror⟩
    · exact Or.inl ⟨i, hi, herror⟩
    · exact Or.inr ⟨other, hother, i, hi, herror⟩
  · rintro (⟨i, hi, herror⟩ | ⟨other, hother, i, hi, herror⟩)
    · exact ⟨i, Or.inl hi, herror⟩
    · exact ⟨i, Or.inr ⟨other, hother, hi⟩, herror⟩

theorem exitCode_eq_zero_iff : r.exitCode = 0 ↔ ¬r.hasErrors = true := by
  rw [exitCode]
  split <;> simp_all

end Report

end LocaleAudit
