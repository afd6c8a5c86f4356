import LocaleAudit.Proofs.Report.Deduplication
import LocaleAudit.Report.Register

namespace LocaleAudit

/-!
# What a register has come to

Whatever a register has been through, it is the one that all findings ever pushed would give when
they were pushed one after the other: the first of each problem, and the set of these problems. So
the set can be read off the findings, merging is appending, and equal registers stay equal.
-/

namespace Finding

/-- The first finding of each problem. -/
def firsts : List Finding → List Finding
  | [] => []
  | f :: rest => f :: (firsts rest).filter (·.identity != f.identity)

variable {i : Identity} {findings : List Finding}

theorem mem_identity_firsts :
    i ∈ (firsts findings).map identity ↔ i ∈ findings.map identity := by
  induction findings with
  | nil => rfl
  | cons f rest ih =>
    by_cases hi : i = f.identity
    · simp [firsts, hi]
    · simp only [List.mem_map] at ih
      simp only [firsts, List.map_cons, List.mem_cons, hi, false_or, List.mem_map, List.mem_filter,
        ← ih]
      constructor
      · rintro ⟨g, ⟨hg, _⟩, hidentity⟩
        exact ⟨g, hg, hidentity⟩
      · rintro ⟨g, hg, rfl⟩
        exact ⟨g, ⟨hg, by simpa using hi⟩, rfl⟩

theorem nodup_identity_firsts (findings : List Finding) :
    ((firsts findings).map identity).Nodup := by
  induction findings with
  | nil => exact List.nodup_nil
  | cons f rest ih =>
    rw [firsts, List.map_cons, List.nodup_cons]
    refine ⟨?_, ih.sublist (List.filter_sublist.map identity)⟩
    intro hmem
    obtain ⟨g, hg, hidentity⟩ := List.mem_map.mp hmem
    simpa [hidentity] using (List.mem_filter.mp hg).2

theorem firsts_eq_self (h : (findings.map identity).Nodup) : firsts findings = findings := by
  induction findings with
  | nil => rfl
  | cons f rest ih =>
    rw [List.map_cons, List.nodup_cons] at h
    rw [firsts, ih h.2]
    refine congrArg (f :: ·) (List.filter_eq_self.mpr fun g hg => ?_)
    have hne : g.identity ≠ f.identity := fun heq => h.1 (heq ▸ List.mem_map_of_mem hg)
    simpa using hne

theorem firsts_firsts (findings : List Finding) : firsts (firsts findings) = firsts findings :=
  firsts_eq_self (nodup_identity_firsts findings)

end Finding

open Finding (firsts)

namespace Register

variable {r : Register} {f : Finding}

/-! ## Pushing one after the other -/

/-- The findings that a register takes in. -/
def fresh (r : Register) (findings : List Finding) : List Finding :=
  (firsts findings).filter fun f => !r.seen.contains f.identity

theorem push_of_seen (h : f.identity ∈ r.seen) : r.push f = (r, false) := by
  simp [push, h]

theorem push_of_not_seen (h : f.identity ∉ r.seen) :
    r.push f = (⟨r.findings ++ [f], f.identity :: r.seen⟩, true) := by
  simp [push, h]

theorem push_snd_iff : (r.push f).2 = true ↔ f.identity ∉ r.seen := by
  by_cases h : f.identity ∈ r.seen
  · simp [push_of_seen h, h]
  · simp [push_of_not_seen h, h]

theorem fresh_cons_of_seen (h : f.identity ∈ r.seen) (rest : List Finding) :
    r.fresh (f :: rest) = r.fresh rest := by
  rw [fresh, firsts, List.filter_cons_of_neg (by simp [h]), List.filter_filter, fresh]
  refine List.filter_congr fun g _ => ?_
  by_cases hg : g.identity = f.identity
  · simp [hg, h]
  · simp [hg]

theorem fresh_cons_of_not_seen (h : f.identity ∉ r.seen) (rest : List Finding) :
    r.fresh (f :: rest) = f :: (r.push f).1.fresh rest := by
  rw [fresh, firsts, List.filter_cons_of_pos (by simp [h]), List.filter_filter, fresh,
    push_of_not_seen h]
  refine congrArg (f :: ·) (List.filter_congr fun g _ => ?_)
  by_cases hg : g.identity = f.identity
  · simp [hg]
  · simp [hg]

theorem pushAll_eq (r : Register) (findings : List Finding) :
    r.pushAll findings = ⟨r.findings ++ r.fresh findings,
      ((r.fresh findings).map Finding.identity).reverse ++ r.seen⟩ := by
  induction findings generalizing r with
  | nil => simp [pushAll, fresh, firsts]
  | cons f rest ih =>
    have hrest : r.pushAll (f :: rest) = (r.push f).1.pushAll rest := rfl
    rw [hrest, ih]
    by_cases h : f.identity ∈ r.seen
    · rw [fresh_cons_of_seen h, push_of_seen h]
    · rw [fresh_cons_of_not_seen h, push_of_not_seen h]
      simp

theorem ofList_eq (findings : List Finding) :
    ofList findings = ⟨firsts findings, ((firsts findings).map Finding.identity).reverse⟩ := by
  have hall : empty.fresh findings = firsts findings :=
    List.filter_eq_self.mpr fun f _ => rfl
  rw [ofList, pushAll_eq, hall]
  simp [empty]

theorem pushAll_of_seen {findings : List Finding} (h : ∀ f ∈ findings, f.identity ∈ r.seen) :
    r.pushAll findings = r := by
  have hnone : r.fresh findings = [] := by
    refine List.filter_eq_nil_iff.mpr fun f hf => ?_
    obtain ⟨g, hg, hidentity⟩ :=
      List.mem_map.mp (Finding.mem_identity_firsts.mp (List.mem_map_of_mem hf))
    have hseen := hidentity ▸ h g hg
    simp [hseen]
  rw [pushAll_eq, hnone]
  simp

theorem pushAll_firsts (r : Register) (findings : List Finding) :
    r.pushAll (firsts findings) = r.pushAll findings := by
  rw [pushAll_eq, pushAll_eq, fresh, Finding.firsts_firsts, fresh]

theorem pushAll_ofList (first rest : List Finding) :
    (ofList first).pushAll rest = ofList (first ++ rest) :=
  List.foldl_append.symm

theorem merge_ofList (first rest : List Finding) :
    (ofList first).merge (ofList rest) = ofList (first ++ rest) := by
  rw [merge, ← pushAll_ofList, ← pushAll_firsts _ rest, ofList_eq rest]

/-! ## The report that a register makes -/

/-- A register whose set is that of the problems of its findings. -/
def Indexed (r : Register) : Prop :=
  ∀ i, i ∈ r.seen ↔ i ∈ r.toReport.seen

theorem Indexed.push (h : r.Indexed) (f : Finding) :
    (r.push f).1.Indexed ∧ (r.push f).1.toReport = r.toReport.push f := by
  by_cases hf : f.identity ∈ r.seen
  · rw [push_of_seen hf, Report.push_of_known ((h _).mp hf)]
    exact ⟨h, rfl⟩
  · have hfindings := Report.findings_push_of_new (mt (h _).mpr hf)
    rw [push_of_not_seen hf]
    refine ⟨fun i => ?_, congrArg Report.mk hfindings.symm⟩
    have hi := h i
    simp only [toReport, Report.seen] at hi
    simp [toReport, Report.seen, hi, or_comm]

theorem Indexed.pushAll (h : r.Indexed) (findings : List Finding) :
    (r.pushAll findings).Indexed ∧ (r.pushAll findings).toReport = r.toReport.pushAll findings := by
  induction findings generalizing r with
  | nil => exact ⟨h, rfl⟩
  | cons f rest ih =>
    obtain ⟨hindexed, hreport⟩ := h.push f
    have hrest := ih hindexed
    rw [hreport] at hrest
    exact hrest

theorem indexed_empty : empty.Indexed :=
  fun _ => Iff.rfl

/-! ## Histories -/

/-- How a register can have been built. -/
inductive History where
  | empty
  | push (before : History) (f : Finding)
  | merge (before other : History)
  | collect (findings : List Finding)

namespace History

def register : History → Register
  | empty => Register.empty
  | push before f => (before.register.push f).1
  | merge before other => before.register.merge other.register
  | collect findings => ofList findings

/-- Everything that was pushed, into a register or into one that was merged into it. -/
def pushed : History → List Finding
  | empty => []
  | push before f => before.pushed ++ [f]
  | merge before other => before.pushed ++ other.pushed
  | collect findings => findings

theorem register_eq (h : History) : h.register = ofList h.pushed := by
  induction h with
  | empty => rfl
  | push before f ih =>
    rw [register, ih, pushed, ← pushAll_ofList]
    rfl
  | merge before other ih ihother => rw [register, ih, ihother, pushed, merge_ofList]
  | collect findings => rfl

/-- What ties a register to the findings pushed into it. -/
structure Consistent (h : History) : Prop where
  distinct : (h.register.findings.map Finding.identity).Nodup
  seen_iff : ∀ i, i ∈ h.register.seen ↔ i ∈ h.register.findings.map Finding.identity
  findings_eq : h.register.findings = firsts h.pushed
  push_iff : ∀ f, (h.register.push f).2 = true ↔ f.identity ∉ h.pushed.map Finding.identity
  report_eq : h.register.toReport = Report.ofList h.pushed

theorem consistent (h : History) : h.Consistent := by
  have hregister := h.register_eq.trans (ofList_eq h.pushed)
  constructor
  · rw [hregister]
    exact Finding.nodup_identity_firsts h.pushed
  · intro i
    simp [hregister]
  · rw [hregister]
  · intro f
    rw [push_snd_iff, hregister, List.mem_reverse, Finding.mem_identity_firsts]
  · rw [register_eq]
    exact (indexed_empty.pushAll h.pushed).2

/-- The findings say all that there is to a register. -/
theorem register_eq_of_beq {a b : History} (h : (a.register == b.register) = true) :
    a.register = b.register := by
  have hfindings : a.register.findings = b.register.findings := eq_of_beq h
  have hfirsts : firsts a.pushed = firsts b.pushed := by
    rwa [a.consistent.findings_eq, b.consistent.findings_eq] at hfindings
  rw [register_eq, register_eq, ofList_eq, ofList_eq, hfirsts]

end History

/-- What can be done to a register. -/
inductive Step where
  | push (f : Finding)
  | merge (other : History)

def after (r : Register) : List Step → Register
  | [] => r
  | .push f :: steps => (r.push f).1.after steps
  | .merge other :: steps => (r.merge other.register).after steps

/-- Registers are consistent whatever they have been through. Merging is associative, with the empty
register as its unit; merging a register into itself changes nothing; and registers with equal
findings keep having equal findings. -/
theorem history_laws (a b c : History) :
    a.Consistent ∧
    (a.register.merge b.register).merge c.register =
      a.register.merge (b.register.merge c.register) ∧
    empty.merge a.register = a.register ∧ a.register.merge empty = a.register ∧
    a.register.merge a.register = a.register ∧
    ((a.register == b.register) = true →
      ∀ steps, (a.register.after steps == b.register.after steps) = true) := by
  have hunit : empty = ofList [] := rfl
  refine ⟨a.consistent, ?_, ?_, ?_, ?_, ?_⟩
  · simp only [History.register_eq, merge_ofList, List.append_assoc]
  · rw [History.register_eq, hunit, merge_ofList, List.nil_append]
  · rw [History.register_eq, hunit, merge_ofList, List.append_nil]
  · exact pushAll_of_seen fun f hf => (a.consistent.seen_iff _).mpr (List.mem_map_of_mem hf)
  · intro h steps
    rw [History.register_eq_of_beq h]
    exact beq_self_eq_true (b.register.after steps).findings

def missingKey (language path : String) : Finding :=
  ⟨.missingKey, "app", language, path, "missing", none, none⟩

/-- A finding that came twice, and the same finding pushed once: what follows is the same. -/
theorem history_laws_repeated :
    let twice := History.collect [missingKey "uk" "a", missingKey "uk" "a"]
    let once := History.push .empty (missingKey "uk" "a")
    let other := History.collect [missingKey "de" "a", missingKey "uk" "a"]
    let steps := [Step.merge other, .push (missingKey "uk" "a")]
    (twice.register == once.register) = true ∧
      (twice.register.after steps == once.register.after steps) = true ∧
      (twice.register.after steps).findings = [missingKey "uk" "a", missingKey "de" "a"] := by
  obtain ⟨_, _, _, _, _, hafter⟩ := history_laws
    (.collect [missingKey "uk" "a", missingKey "uk" "a"]) (.push .empty (missingKey "uk" "a"))
    .empty
  have hequal : (History.collect [missingKey "uk" "a", missingKey "uk" "a"]).register ==
      (History.push .empty (missingKey "uk" "a")).register := by decide
  exact ⟨hequal, hafter hequal _, by decide⟩

end Register

end LocaleAudit
