import LocaleAudit.Proofs.FirstOccurrences
import LocaleAudit.Proofs.Report.Projection
import Mathlib.Data.List.Perm.Basic

namespace LocaleAudit

/-!
# Groups of findings

Groups lose no finding and have none twice: each namespace and language that comes up has one group,
in the order in which they first come up, with its findings in the order of the report.
-/

/-- A list falls apart into the members of each key. -/
theorem perm_flatMap_filter {α κ : Type} [BEq κ] [LawfulBEq κ] (key : α → κ) {keys : List κ}
    (hkeys : keys.Nodup) {l : List α} (hall : ∀ a ∈ l, key a ∈ keys) :
    (keys.flatMap fun k => l.filter (key · == k)).Perm l := by
  induction keys generalizing l with
  | nil =>
    have hnil : l = [] := List.eq_nil_iff_forall_not_mem.mpr fun a ha => by simpa using hall a ha
    simp [hnil]
  | cons k keys ih =>
    rw [List.nodup_cons] at hkeys
    -- The members of the later keys are those of what is left without the first key.
    have hothers : (keys.flatMap fun k' => l.filter (key · == k')) =
        keys.flatMap fun k' => (l.filter fun a => !(key a == k)).filter (key · == k') := by
      refine List.flatMap_congr fun k' hk' => ?_
      have hne : k' ≠ k := fun heq => hkeys.1 (heq ▸ hk')
      rw [List.filter_filter]
      refine List.filter_congr fun a _ => ?_
      by_cases ha : key a = k'
      · simp [ha, hne]
      · simp [ha]
    have hleft : ∀ a ∈ l.filter fun a => !(key a == k), key a ∈ keys := by
      intro a ha
      obtain ⟨hmem, hne⟩ := List.mem_filter.mp ha
      have hcases := List.mem_cons.mp (hall a hmem)
      simpa using hcases.resolve_left (by simpa using hne)
    rw [List.flatMap_cons, hothers]
    exact ((ih hkeys.2 hleft).append_left _).trans (List.filter_append_perm (key · == k) l)

/-- The namespace and the language that a finding is about. -/
def Finding.place (f : Finding) : String × String :=
  (f.nameSpace, f.language)

namespace Report

def Group.place (g : Group) : String × String :=
  (g.nameSpace, g.language)

/-- Groups of findings: one for each namespace and language that comes up, in the order in which
they first come up, with the findings on them. -/
structure Grouping (findings : List Finding) (groups : List Group) : Prop where
  places : FirstOccurrences (findings.map Finding.place) (groups.map Group.place)
  findings_eq : ∀ g ∈ groups, g.findings = findings.filter (·.place == g.place)

variable {findings rest : List Finding} {groups : List Group} {f : Finding}

theorem addToGroups_new (h : f.place ∉ groups.map Group.place) :
    addToGroups f groups = groups ++ [⟨f.nameSpace, f.language, [f]⟩] := by
  induction groups with
  | nil => rfl
  | cons g groups ih =>
    rw [List.map_cons, List.mem_cons, not_or] at h
    have hne : ¬(g.nameSpace = f.nameSpace ∧ g.language = f.language) := by
      rintro ⟨hnameSpace, hlanguage⟩
      exact h.1 (by rw [Finding.place, Group.place, hnameSpace, hlanguage])
    rw [addToGroups, if_neg hne, ih h.2, List.cons_append]

theorem addToGroups_append {before after : List Group} {g : Group}
    (hbefore : f.place ∉ before.map Group.place) (hg : g.place = f.place) :
    addToGroups f (before ++ g :: after) =
      before ++ { g with findings := g.findings ++ [f] } :: after := by
  induction before with
  | nil =>
    obtain ⟨hnameSpace, hlanguage⟩ := Prod.mk.inj hg
    rw [List.nil_append, addToGroups, if_pos ⟨hnameSpace, hlanguage⟩]
    rfl
  | cons g' before ih =>
    rw [List.map_cons, List.mem_cons, not_or] at hbefore
    have hne : ¬(g'.nameSpace = f.nameSpace ∧ g'.language = f.language) := by
      rintro ⟨hnameSpace, hlanguage⟩
      exact hbefore.1 (by rw [Finding.place, Group.place, hnameSpace, hlanguage])
    rw [List.cons_append, addToGroups, if_neg hne, ih hbefore.2, List.cons_append]

namespace Grouping

theorem nil : Grouping [] [] :=
  ⟨FirstOccurrences.nil, by simp⟩

theorem findings_eq_snoc (h : Grouping findings groups) {g : Group} (hg : g ∈ groups)
    (hne : g.place ≠ f.place) : g.findings = (findings ++ [f]).filter (·.place == g.place) := by
  have hother : [f].filter (·.place == g.place) = [] := by simp [Ne.symm hne]
  rw [List.filter_append, hother, List.append_nil]
  exact h.findings_eq g hg

theorem findings_eq_snoc_self (h : findings.filter (·.place == f.place) = rest) :
    (findings ++ [f]).filter (·.place == f.place) = rest ++ [f] := by
  rw [List.filter_append, h]
  simp

theorem snoc_of_mem (h : Grouping findings groups) (hplace : f.place ∈ groups.map Group.place) :
    Grouping (findings ++ [f]) (addToGroups f groups) := by
  obtain ⟨g, hg, heq⟩ := List.mem_map.mp hplace
  obtain ⟨before, after, rfl⟩ := List.append_of_mem hg
  have hnodup := h.places.nodup
  rw [List.map_append, List.map_cons, heq, List.nodup_middle, List.nodup_cons,
    List.mem_append, not_or] at hnodup
  obtain ⟨⟨hbefore, hafter⟩, _⟩ := hnodup
  rw [addToGroups_append hbefore heq]
  constructor
  · have hplaces := h.places.snoc_of_mem ((h.places.mem_iff _).mp hplace)
    simpa [Group.place] using hplaces
  · intro g' hg'
    rcases List.mem_append.mp hg' with hmem | hmem
    · refine h.findings_eq_snoc (List.mem_append_left _ hmem) fun hsame => hbefore ?_
      exact hsame ▸ List.mem_map_of_mem hmem
    · rcases List.mem_cons.mp hmem with rfl | hmem
      · have hgroup := h.findings_eq g hg
        rw [heq] at hgroup
        have hsame : ({ g with findings := g.findings ++ [f] } : Group).place = f.place := heq
        rw [hsame]
        exact (findings_eq_snoc_self hgroup.symm).symm
      · have hg' := List.mem_append_right before (List.mem_cons_of_mem g hmem)
        refine h.findings_eq_snoc hg' fun hsame => hafter ?_
        exact hsame ▸ List.mem_map_of_mem hmem

theorem snoc_of_not_mem (h : Grouping findings groups) (hplace : f.place ∉ groups.map Group.place) :
    Grouping (findings ++ [f]) (addToGroups f groups) := by
  have hnew : f.place ∉ findings.map Finding.place := mt (h.places.mem_iff _).mpr hplace
  rw [addToGroups_new hplace]
  constructor
  · have hplaces := h.places.snoc_of_not_mem hnew
    rw [List.map_append, List.map_append]
    exact hplaces
  · intro g hg
    rcases List.mem_append.mp hg with hmem | hmem
    · refine h.findings_eq_snoc hmem fun hsame => hplace ?_
      exact hsame ▸ List.mem_map_of_mem hmem
    · obtain rfl := List.mem_singleton.mp hmem
      have hnone : findings.filter (·.place == f.place) = [] := by
        refine List.filter_eq_nil_iff.mpr fun f' hf' hsame => hnew ?_
        exact eq_of_beq hsame ▸ List.mem_map_of_mem hf'
      exact (findings_eq_snoc_self hnone).symm

/-- Another finding goes to the group of its namespace and language, or makes one behind all
others. -/
theorem snoc (h : Grouping findings groups) (f : Finding) :
    Grouping (findings ++ [f]) (addToGroups f groups) := by
  by_cases hplace : f.place ∈ groups.map Group.place
  · exact h.snoc_of_mem hplace
  · exact h.snoc_of_not_mem hplace

theorem foldl (h : Grouping findings groups) (rest : List Finding) :
    Grouping (findings ++ rest) (rest.foldl (fun groups f => addToGroups f groups) groups) := by
  induction rest generalizing findings groups with
  | nil => rwa [List.append_nil]
  | cons f rest ih =>
    rw [List.append_cons]
    exact ih (h.snoc f)

/-- Together the groups have every finding, each as often as the report. -/
theorem perm (h : Grouping findings groups) : (groups.flatMap Group.findings).Perm findings := by
  have hfindings : groups.flatMap Group.findings =
      (groups.map Group.place).flatMap fun place => findings.filter (·.place == place) := by
    rw [List.flatMap_map]
    exact List.flatMap_congr h.findings_eq
  rw [hfindings]
  refine perm_flatMap_filter Finding.place h.places.nodup fun f hf => ?_
  exact (h.places.mem_iff _).mpr (List.mem_map_of_mem hf)

theorem findings_ne_nil (h : Grouping findings groups) {g : Group} (hg : g ∈ groups) :
    g.findings ≠ [] := by
  obtain ⟨f, hf, hplace⟩ := List.mem_map.mp ((h.places.mem_iff _).mp (List.mem_map_of_mem hg))
  refine List.ne_nil_of_mem (a := f) ?_
  rw [h.findings_eq g hg]
  exact List.mem_filter.mpr ⟨hf, beq_iff_eq.mpr hplace⟩

end Grouping

theorem grouping_grouped (r : Report) (severity : Severity) :
    Grouping (r.ofSeverity severity) (r.grouped severity) :=
  Grouping.nil.foldl (r.ofSeverity severity)

/-! ## Totals -/

variable (r : Report)

/-- The number of findings of some kinds. -/
def tally : List Finding.Kind → Nat
  | [] => 0
  | kind :: kinds => r.count kind + tally kinds

theorem tally_eq_length (kinds : List Finding.Kind) :
    r.tally kinds = (kinds.flatMap fun kind => r.findings.filter (·.kind == kind)).length := by
  induction kinds with
  | nil => rfl
  | cons kind kinds ih =>
    rw [tally, ih, List.flatMap_cons, List.length_append, count, List.countP_eq_length_filter]

/-- Kinds without findings add nothing. -/
theorem tally_filter (kinds : List Finding.Kind) :
    r.tally (kinds.filter fun kind => 0 < r.count kind) = r.tally kinds := by
  induction kinds with
  | nil => rfl
  | cons kind kinds ih =>
    by_cases hkind : 0 < r.count kind
    · rw [List.filter_cons_of_pos (by simpa using hkind), tally, tally, ih]
    · rw [List.filter_cons_of_neg (by simpa using hkind), tally, ih]
      omega

theorem tally_all : r.tally Finding.Kind.all = r.findings.length := by
  rw [tally_eq_length]
  exact (perm_flatMap_filter Finding.kind (by decide) fun f _ => f.kind.mem_all).length_eq

theorem errors_length_add_warnings_length :
    r.errors.length + r.warnings.length = r.findings.length := by
  have hsplit : (r.errors ++ r.warnings).Perm r.findings := by
    have hseverities : [Severity.error, Severity.warning].Nodup := by decide
    have hperm := perm_flatMap_filter Finding.severity hseverities
      (l := r.findings) fun f _ => by cases f.severity <;> decide
    simpa [errors, warnings, ofSeverity] using hperm
  rw [← List.length_append, hsplit.length_eq]

end Report

end LocaleAudit
