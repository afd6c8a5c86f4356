import LocaleAudit.Proofs.Entries
import LocaleAudit.Proofs.Files.Lookup
import LocaleAudit.Proofs.SortedSet
import LocaleAudit.Source.Walk
import Mathlib.Data.List.Lex

namespace LocaleAudit

/-!
# What a walk finds

A file is found at the end of names that the ignore files keep one after the other, none of them but
the last one excluded. No file is found twice.
-/

namespace Walk

open Directory (lookup lookup_singleton lookup_cons_of_get?)

variable {excluded : List String} {levels : List Level} {name : String} {node : Node}
  {above names : List String}

/-! ## Found files -/

/-- The walk comes to a node with a name and finds the file that further names lead to. There is one
constructor for each kind of node that it takes a file from. -/
inductive Finds (excluded : List String) : List Level → String → Node → List String → Prop where
  | file {levels : List Level} {name : String} {content : ByteArray}
      (hkeeps : keeps levels name false = true) :
      Finds excluded levels name (.file content) [name]
  | inside {levels : List Level} {name next : String} {entries : Directory} {node : Node}
      {rest : List String} (hkeeps : keeps levels name true = true) (hname : name ∉ excluded)
      (hnext : Entries.get? next entries = some node)
      (hrest : Finds excluded (Level.ofDirectory [] entries :: levels.map (·.descend name)) next
        node rest) :
      Finds excluded levels name (.directory entries) (name :: rest)

theorem filesBelow_eq_flatMap (excluded : List String) (levels : List Level) (above : List String)
    (entries : List (String × Node)) :
    filesBelow excluded levels above entries =
      entries.flatMap fun entry => filesAt excluded levels above entry.1 entry.2 := by
  induction entries with
  | nil => rfl
  | cons entry rest ih => rw [filesBelow, ih, List.flatMap_cons]

theorem mem_filesAt_iff (h : node.WellFormed) :
    names ∈ filesAt excluded levels above name node ↔
      ∃ rest, names = above ++ rest ∧ Finds excluded levels name node rest := by
  induction h generalizing levels above name names with
  | file content =>
    rw [filesAt]
    constructor
    · intro hmem
      split at hmem
      · rename_i hkeeps
        exact ⟨[name], List.mem_singleton.mp hmem, .file hkeeps⟩
      · cases hmem
    · rintro ⟨rest, rfl, hfinds⟩
      cases hfinds with
      | file hkeeps =>
        rw [if_pos hkeeps]
        exact List.mem_singleton_self _
  | @directory entries _ hdistinct _ ih =>
    rw [filesAt]
    constructor
    · intro hmem
      split at hmem
      · rename_i henters
        rw [Bool.and_eq_true, Bool.not_eq_true', List.contains_eq_mem, decide_eq_false_iff_not]
          at henters
        rw [filesBelow_eq_flatMap, List.mem_flatMap] at hmem
        obtain ⟨entry, hentry, hmem⟩ := hmem
        obtain ⟨rest, rfl, hfinds⟩ := (ih entry hentry).mp hmem
        refine ⟨name :: rest, (List.append_cons above name rest).symm, ?_⟩
        exact .inside henters.1 henters.2 (Entries.get?_of_mem hdistinct hentry) hfinds
      · cases hmem
    · rintro ⟨rest, rfl, hfinds⟩
      cases hfinds with
      | inside hkeeps hname hnext hrest =>
        rw [if_pos (by simp [hkeeps, hname]), filesBelow_eq_flatMap, List.mem_flatMap]
        have hentry := Entries.mem_of_get? hnext
        exact ⟨_, hentry, (ih _ hentry).mpr ⟨_, List.append_cons above name _, hrest⟩⟩

theorem Finds.head? {names : List String} (h : Finds excluded levels name node names) :
    names.head? = some name := by
  cases h with
  | file _ => rfl
  | inside _ _ _ _ => rfl

/-- Entries with distinct names have no file in common, so none is found twice. -/
theorem nodup_filesBelow {entries : Directory} (hdistinct : (entries.map Prod.fst).Nodup)
    (hnodes : ∀ entry ∈ entries, entry.2.WellFormed)
    (heach : ∀ entry ∈ entries, (filesAt excluded levels above entry.1 entry.2).Nodup) :
    (filesBelow excluded levels above entries).Nodup := by
  rw [filesBelow_eq_flatMap, List.nodup_flatMap]
  refine ⟨heach, List.Pairwise.imp_of_mem ?_ (List.pairwise_map.mp hdistinct)⟩
  intro entry entry' hentry hentry' hne names hmem hmem'
  obtain ⟨rest, rfl, hfinds⟩ := (mem_filesAt_iff (hnodes entry hentry)).mp hmem
  obtain ⟨rest', hrest, hfinds'⟩ := (mem_filesAt_iff (hnodes entry' hentry')).mp hmem'
  obtain rfl := List.append_cancel_left hrest
  exact hne (Option.some.inj (hfinds.head?.symm.trans hfinds'.head?))

theorem nodup_filesAt (h : node.WellFormed) :
    (filesAt excluded levels above name node).Nodup := by
  induction h generalizing levels above name with
  | file content =>
    rw [filesAt]
    split
    · exact List.nodup_singleton _
    · exact List.nodup_nil
  | directory _ hdistinct hnodes ih =>
    rw [filesAt]
    split
    · exact nodup_filesBelow hdistinct hnodes fun entry hentry => ih entry hentry
    · exact List.nodup_nil

/-- A file that is found is there. -/
theorem Finds.exists_file {d : Directory} (h : Finds excluded levels name node names)
    (hnode : Entries.get? name d = some node) :
    ∃ content, lookup names d = some (.file content) := by
  induction h generalizing d with
  | @file levels name content _ => exact ⟨content, by rw [lookup_singleton]; exact hnode⟩
  | inside _ _ hnext _ ih =>
    obtain ⟨content, hcontent⟩ := ih hnext
    exact ⟨content, by rw [lookup_cons_of_get? hnode, hcontent]⟩

/-- The directories on the way to a file that is found have no excluded names. -/
theorem Finds.not_excluded (h : Finds excluded levels name node names) :
    ∀ between ∈ names.dropLast, between ∉ excluded := by
  induction h with
  | file _ => simp
  | @inside levels name next entries node rest _ hname _ hrest ih =>
    have hne : rest ≠ [] := by
      rintro rfl
      cases hrest.head?
    rw [List.dropLast_cons_of_ne_nil hne, List.forall_mem_cons]
    exact ⟨hname, ih⟩

section Found

variable {d : Directory} (hd : d.WellFormed)

include hd

theorem mem_filesBelow_iff :
    names ∈ filesBelow excluded levels [] d ↔
      ∃ name node, Entries.get? name d = some node ∧ Finds excluded levels name node names := by
  cases hd with
  | directory _ hdistinct hnodes =>
    rw [filesBelow_eq_flatMap, List.mem_flatMap]
    constructor
    · rintro ⟨⟨name, node⟩, hentry, hmem⟩
      obtain ⟨rest, rfl, hfinds⟩ := (mem_filesAt_iff (hnodes _ hentry)).mp hmem
      exact ⟨name, node, Entries.get?_of_mem hdistinct hentry, hfinds⟩
    · rintro ⟨name, node, hnode, hfinds⟩
      have hentry := Entries.mem_of_get? hnode
      exact ⟨_, hentry, (mem_filesAt_iff (hnodes _ hentry)).mpr ⟨names, rfl, hfinds⟩⟩

theorem nodup_filesBelow_of_wellFormed : (filesBelow excluded levels above d).Nodup := by
  cases hd with
  | directory _ hdistinct hnodes =>
    exact nodup_filesBelow hdistinct hnodes fun entry hentry => nodup_filesAt (hnodes entry hentry)

end Found

theorem ranked_namesLe : Ranked namesLe (id : List String → List String) where
  injective := Function.injective_id
  le_iff a b := by
    induction a generalizing b with
    | nil => simp only [namesLe, id, ← not_lt, List.not_lt_nil, not_false_eq_true]
    | cons first rest ih =>
      cases b with
      | nil => simp only [namesLe, id, Bool.false_eq_true, false_iff, not_le, List.nil_lt_cons]
      | cons first' rest' =>
        simp only [namesLe, id, Bool.or_eq_true, Bool.and_eq_true, decide_eq_true_eq, beq_iff_eq,
          ih, le_iff_lt_or_eq, List.cons_lt_cons_iff, List.cons.injEq, and_or_left, or_assoc]

end Walk

end LocaleAudit
