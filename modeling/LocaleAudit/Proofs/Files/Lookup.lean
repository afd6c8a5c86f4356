import LocaleAudit.Files
import LocaleAudit.Proofs.Path

namespace LocaleAudit

/-!
# Looking up in a file tree

What a sequence of names leads to after a node has been put somewhere: the node at its own place,
and everywhere else what was there before.
-/

/-- Every directory, at any depth, has entries with proper and distinct names. -/
inductive Node.WellFormed : Node → Prop where
  | file (content : ByteArray) : WellFormed (.file content)
  | directory {entries : Directory} (hnames : ∀ entry ∈ entries, IsName entry.1)
      (hdistinct : (entries.map Prod.fst).Nodup)
      (hnodes : ∀ entry ∈ entries, WellFormed entry.2) : WellFormed (.directory entries)

mutual

def Node.isWellFormed : Node → Bool
  | .file _ => true
  | .directory entries =>
    decide (entries.map Prod.fst).Nodup && Directory.entriesWellFormed entries
termination_by structural n => n

def Directory.entriesWellFormed : List (String × Node) → Bool
  | [] => true
  | (name, node) :: rest =>
    decide (IsName name) && node.isWellFormed && Directory.entriesWellFormed rest
termination_by structural entries => entries

end

theorem Directory.entriesWellFormed_iff {entries : List (String × Node)} :
    entriesWellFormed entries = true ↔
      ∀ entry ∈ entries, IsName entry.1 ∧ entry.2.isWellFormed = true := by
  induction entries with
  | nil => simp [entriesWellFormed]
  | cons entry rest ih =>
    obtain ⟨name, node⟩ := entry
    simp [entriesWellFormed, ih]

theorem Node.isWellFormed_iff : (n : Node) → (n.isWellFormed = true ↔ n.WellFormed)
  | .file content => iff_of_true rfl (.file content)
  | .directory entries => by
    have hentries : ∀ entry ∈ entries, (entry.2.isWellFormed = true ↔ entry.2.WellFormed) :=
      fun entry _ => isWellFormed_iff entry.2
    rw [isWellFormed, Bool.and_eq_true, decide_eq_true_eq, Directory.entriesWellFormed_iff]
    constructor
    · rintro ⟨hdistinct, hall⟩
      exact .directory (fun entry hentry => (hall entry hentry).1) hdistinct
        fun entry hentry => (hentries entry hentry).mp (hall entry hentry).2
    · intro h
      cases h with
      | directory hnames hdistinct hnodes =>
        exact ⟨hdistinct, fun entry hentry =>
          ⟨hnames entry hentry, (hentries entry hentry).mpr (hnodes entry hentry)⟩⟩
termination_by n => sizeOf n
decreasing_by
  rename_i hentry
  have hlt := List.sizeOf_lt_of_mem hentry
  cases entry
  simp only [Node.directory.sizeOf_spec, Prod.mk.sizeOf_spec] at *
  omega

namespace Directory

def WellFormed (d : Directory) : Prop :=
  Node.WellFormed (.directory d)

instance (d : Directory) : Decidable d.WellFormed :=
  decidable_of_iff _ (Node.isWellFormed_iff (.directory d))

/-- The content of the file that names lead to. -/
def fileAt (names : List String) (d : Directory) : Option ByteArray :=
  match lookup names d with
  | some (.file content) => some content
  | _ => none

/-- Names lead to a directory. -/
def HasDirectory (names : List String) (d : Directory) : Prop :=
  ∃ child, lookup names d = some (.directory child)

theorem fileAt_congr {names : List String} {d d' : Directory}
    (h : lookup names d = lookup names d') : fileAt names d = fileAt names d' := by
  rw [fileAt, fileAt, h]

theorem HasDirectory.fileAt_eq_none {names : List String} {d : Directory}
    (h : HasDirectory names d) : fileAt names d = none := by
  obtain ⟨child, hchild⟩ := h
  rw [fileAt, hchild]

/-! ## Lookups along a sequence of names -/

section

variable {above below : List String} {name : String} {d child : Directory}

theorem lookup_nil (d : Directory) : lookup [] d = some (.directory d) := rfl

theorem lookup_singleton (name : String) (d : Directory) : lookup [name] d = d.get? name := by
  rw [lookup]
  cases d.get? name with
  | none => rfl
  | some node =>
    cases node with
    | file content => rfl
    | directory entries => rfl

theorem exists_of_lookup_cons {names : List String}
    (h : lookup (name :: names) d = some (.directory child)) :
    ∃ entries, d.get? name = some (.directory entries) ∧
      lookup names entries = some (.directory child) := by
  rw [lookup] at h
  cases hget : d.get? name with
  | none => simp [hget] at h
  | some found =>
    cases found with
    | file content =>
      simp only [hget] at h
      split at h <;> cases h
    | directory entries =>
      simp only [hget] at h
      exact ⟨entries, rfl, h⟩

theorem lookup_cons_of_get? {names : List String} {entries : Directory}
    (h : d.get? name = some (.directory entries)) :
    lookup (name :: names) d = lookup names entries := by
  rw [lookup, h]

theorem lookup_append (h : lookup above d = some (.directory child)) (below : List String) :
    lookup (above ++ below) d = lookup below child := by
  induction above generalizing d with
  | nil =>
    cases h
    rfl
  | cons name above ih =>
    obtain ⟨entries, hget, hlookup⟩ := exists_of_lookup_cons h
    rw [List.cons_append, lookup_cons_of_get? hget]
    exact ih hlookup

theorem lookup_concat (h : lookup above d = some (.directory child)) (name : String) :
    lookup (above ++ [name]) d = child.get? name := by
  rw [lookup_append h, lookup_singleton]

/-- Nothing lies behind what is no directory. -/
theorem lookup_append_eq_none (h : ¬HasDirectory above d) (hbelow : below ≠ []) :
    lookup (above ++ below) d = none := by
  induction above generalizing d with
  | nil => exact absurd ⟨d, rfl⟩ h
  | cons name above ih =>
    rw [List.cons_append, lookup]
    cases hget : d.get? name with
    | none => rfl
    | some node =>
      cases node with
      | file content => simp [hbelow]
      | directory entries =>
        refine ih fun ⟨child, hchild⟩ => h ⟨child, ?_⟩
        rw [lookup, hget]
        exact hchild

/-! ## A node put in its place -/

variable {node : Node}

theorem insert_cons {key : String} {entries : Directory}
    (h : d.get? key = some (.directory entries)) (above : List String) (name : String) :
    insert node (key :: (above ++ [name])) d =
      d.put key (.directory (insert node (above ++ [name]) entries)) := by
  obtain ⟨first, rest, hcons⟩ := List.exists_cons_of_ne_nil (l := above ++ [name]) (by simp)
  rw [hcons, insert]
  simp only [h]

/-- The directory that a node is put in has the node under its name. -/
theorem lookup_insert_above (h : lookup above d = some (.directory child)) :
    lookup above (insert node (above ++ [name]) d) = some (.directory (child.put name node)) := by
  induction above generalizing d with
  | nil =>
    cases h
    rfl
  | cons key above ih =>
    obtain ⟨entries, hget, hlookup⟩ := exists_of_lookup_cons h
    rw [List.cons_append, insert_cons hget, lookup, Entries.get?_put_same]
    exact ih hlookup

theorem lookup_insert_below (h : lookup above d = some (.directory child)) (below : List String) :
    lookup (above ++ below) (insert node (above ++ [name]) d) =
      lookup below (child.put name node) :=
  lookup_append (lookup_insert_above h) below

theorem lookup_insert_place (h : lookup above d = some (.directory child)) (node : Node)
    (name : String) :
    lookup (above ++ [name]) (insert node (above ++ [name]) d) = some node := by
  rw [lookup_insert_below h, lookup_singleton, Entries.get?_put_same]

/-- Places that are neither on the way to a node nor behind it stay as they are. -/
theorem lookup_insert_beside {other : List String} (h : lookup above d = some (.directory child))
    (habove : ¬other <+: above) (hbelow : ¬above ++ [name] <+: other) :
    lookup other (insert node (above ++ [name]) d) = lookup other d := by
  induction above generalizing d other with
  | nil =>
    cases other with
    | nil => exact absurd List.nil_prefix habove
    | cons key other =>
      have hkey : name ≠ key := by
        rintro rfl
        exact hbelow (by simp)
      rw [List.nil_append, insert, lookup, lookup, Entries.get?_put_ne hkey]
  | cons key above ih =>
    cases other with
    | nil => exact absurd List.nil_prefix habove
    | cons key' other =>
      obtain ⟨entries, hget, hlookup⟩ := exists_of_lookup_cons h
      rw [List.cons_append, insert_cons hget]
      by_cases hkey : key = key'
      · subst hkey
        rw [lookup_cons_of_get? (Entries.get?_put_same _ _ _), lookup_cons_of_get? hget]
        refine ih hlookup (fun hinitial => habove ?_) (fun hinitial => hbelow ?_)
        · exact List.cons_prefix_cons.mpr ⟨rfl, hinitial⟩
        · exact List.cons_prefix_cons.mpr ⟨rfl, hinitial⟩
      · rw [lookup, lookup, Entries.get?_put_ne hkey]

/-- A place on the way to a node leads to a directory, and still does when the node is put. -/
theorem hasDirectory_above {other : List String} (h : lookup above d = some (.directory child))
    (hinitial : other <+: above) : HasDirectory other d := by
  obtain ⟨rest, rfl⟩ := hinitial
  by_cases hrest : rest = []
  · exact ⟨child, by simpa [hrest] using h⟩
  · by_cases hother : HasDirectory other d
    · exact hother
    · rw [lookup_append_eq_none hother hrest] at h
      cases h

section

variable (h : lookup above d = some (.directory child))
  (hfree : ∀ entries, child.get? name ≠ some (.directory entries))

include h hfree

/-- No directory is lost when a node is put where there was none. -/
theorem HasDirectory.insert {other : List String} (hother : HasDirectory other d) :
    HasDirectory other (insert node (above ++ [name]) d) := by
  by_cases habove : other <+: above
  · exact hasDirectory_above (lookup_insert_above h) habove
  by_cases hbelow : above ++ [name] <+: other
  · obtain ⟨rest, rfl⟩ := hbelow
    exfalso
    obtain ⟨entries, hentries⟩ := hasDirectory_above hother.choose_spec (List.prefix_append _ rest)
    rw [lookup_concat h] at hentries
    exact hfree entries hentries
  · obtain ⟨entries, hentries⟩ := hother
    exact ⟨entries, by rw [lookup_insert_beside h habove hbelow, hentries]⟩

/-- A file or an empty directory that is put where there was no directory changes no other file. -/
theorem fileAt_insert_of_ne (hempty : ∀ entries, node = .directory entries → entries = [])
    {other : List String} (hne : other ≠ above ++ [name]) :
    fileAt other (Directory.insert node (above ++ [name]) d) = fileAt other d := by
  by_cases habove : other <+: above
  · rw [(hasDirectory_above (lookup_insert_above h) habove).fileAt_eq_none,
      (hasDirectory_above h habove).fileAt_eq_none]
  by_cases hbelow : above ++ [name] <+: other
  · obtain ⟨rest, rfl⟩ := hbelow
    have hrest : rest ≠ [] := by
      rintro rfl
      exact hne (by simp)
    have hold : lookup (above ++ [name] ++ rest) d = none := by
      refine lookup_append_eq_none (fun ⟨entries, hentries⟩ => ?_) hrest
      rw [lookup_concat h] at hentries
      exact hfree entries hentries
    have hnew : lookup (above ++ [name] ++ rest) (Directory.insert node (above ++ [name]) d) =
        none := by
      have hplace := lookup_insert_place h node name
      cases node with
      | file content =>
        refine lookup_append_eq_none (fun ⟨entries, hentries⟩ => ?_) hrest
        rw [hplace] at hentries
        cases hentries
      | directory entries =>
        obtain rfl := hempty entries rfl
        rw [lookup_append hplace]
        obtain ⟨first, rest, rfl⟩ := List.exists_cons_of_ne_nil hrest
        rfl
    rw [fileAt, fileAt, hold, hnew]
  · rw [fileAt_congr (lookup_insert_beside h habove hbelow)]

end

end

end Directory

end LocaleAudit
