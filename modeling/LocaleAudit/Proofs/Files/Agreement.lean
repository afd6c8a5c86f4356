import LocaleAudit.Proofs.Store.Listing

namespace LocaleAudit.Directory

/-!
# Trees that agree at some places

At a place two trees agree when both have the same file there, or both a directory, or both nothing.
A file below a directory that a path leads to is read by the names behind the path, so trees that
agree at its place read it alike.
-/

variable {root root' : Directory} {above below names place : List String} {base name : String}
  {node : Node}

/-! ## Files several names below a directory -/

theorem hasDirectory_of_lookup_append (h : lookup (above ++ below) root = some node)
    (hbelow : below ≠ []) : HasDirectory above root := by
  by_contra hnot
  rw [lookup_append_eq_none hnot hbelow] at h
  cases h

theorem WellFormed.isName_of_lookup (h : root.WellFormed)
    (hlookup : Directory.lookup names root = some node) : ∀ name ∈ names, IsName name := by
  intro name hname
  obtain ⟨above, below, rfl⟩ := List.append_of_mem hname
  obtain ⟨d, hd⟩ := hasDirectory_of_lookup_append hlookup (List.cons_ne_nil name below)
  rw [List.append_cons] at hlookup
  have hsome : Entries.get? name d ≠ none := by
    rw [← lookup_concat hd]
    intro hnone
    by_cases hbelow : below = []
    · simp [hbelow, hnone] at hlookup
    · obtain ⟨child, hchild⟩ := hasDirectory_of_lookup_append hlookup hbelow
      rw [hnone] at hchild
      cases hchild
  obtain ⟨entry, hentry⟩ := Option.ne_none_iff_exists'.mp hsome
  cases h.lookup hd with
  | directory hnames _ _ => exact hnames _ (Entries.mem_of_get? hentry)

/-- Names that lead to something are followed one after the other. -/
theorem locateFrom_names {here : List String} (h : ∀ name ∈ names, IsName name)
    (hlookup : lookup (here ++ names) root = some node) :
    locateFrom root here names = .ok (here ++ names) := by
  induction names generalizing here with
  | nil => rw [List.append_nil, locateFrom]
  | cons name rest ih =>
    rw [List.forall_mem_cons] at h
    have hhere := hasDirectory_of_lookup_append hlookup (List.cons_ne_nil name rest)
    rw [List.append_cons] at hlookup ⊢
    rw [locateFrom_name hhere h.1, if_pos ?_, ih h.2 hlookup]
    rw [Bool.or_eq_true, List.isEmpty_iff]
    by_cases hrest : rest = []
    · exact Or.inl hrest
    · obtain ⟨d, hd⟩ := hasDirectory_of_lookup_append hlookup hrest
      exact Or.inr (by rw [hd]; rfl)

theorem Place.locate_names (h : Place root base place) (hne : names ≠ [])
    (hnames : ∀ name ∈ names, IsName name) (hlookup : lookup (place ++ names) root = some node) :
    Directory.locate root (Path.join base ("/".intercalate names)) = .ok (place ++ names) := by
  rw [locate_eq_ok_iff]
  constructor
  · apply Path.not_mem_join (by decide) h.no_nul
    exact Path.not_mem_intercalate_names (by decide) fun name hname => (hnames name hname).no_nul
  · rw [Path.pieces_join_names base hne hnames, locateFrom_append_of_leads h.leads hne]
    exact locateFrom_names hnames hlookup

theorem Place.readBytes_names {content : ByteArray} (h : Place root base place) (hne : names ≠ [])
    (hnames : ∀ name ∈ names, IsName name)
    (hlookup : lookup (place ++ names) root = some (.file content)) :
    readBytes root (Path.join base ("/".intercalate names)) = .ok content := by
  rw [readBytes_eq_ok_iff_fileAt]
  exact ⟨place ++ names, h.locate_names hne hnames hlookup, by rw [fileAt, hlookup]⟩

/-! ## Agreement -/

/-- What two trees may have at a place where they agree. -/
inductive SameKind : Option Node → Option Node → Prop where
  | none : SameKind none none
  | file (content : ByteArray) : SameKind (some (.file content)) (some (.file content))
  | directory (d d' : Directory) : SameKind (some (.directory d)) (some (.directory d'))

theorem SameKind.refl (node : Option Node) : SameKind node node := by
  rcases node with _ | content | d
  · exact .none
  · exact .file content
  · exact .directory d d

theorem SameKind.symm {node node' : Option Node} (h : SameKind node node') :
    SameKind node' node := by
  cases h with
  | none => exact .none
  | file content => exact .file content
  | directory d d' => exact .directory d' d

theorem SameKind.exists_node {found : Option Node} (h : SameKind (some node) found) :
    ∃ node', found = some node' := by
  cases h with
  | file content => exact ⟨_, rfl⟩
  | directory d d' => exact ⟨_, rfl⟩

/-- Trees that agree everywhere but at places that are free. -/
def SameExcept (free : List String → Prop) (root root' : Directory) : Prop :=
  ∀ names, ¬free names → SameKind (lookup names root) (lookup names root')

namespace SameExcept

variable {free : List String → Prop}

theorem symm (h : SameExcept free root root') : SameExcept free root' root :=
  fun names hnot => (h names hnot).symm

/-- A directory in the place of another one changes nothing but what lies inside. -/
theorem insert (above : List String) {d d' : Directory}
    (h : lookup (above ++ [name]) root = some (.directory d))
    (hfree : ∀ below, below ≠ [] → free (above ++ [name] ++ below)) :
    SameExcept free root (Directory.insert (.directory d') (above ++ [name]) root) := by
  intro names hnot
  obtain ⟨child, hchild⟩ := hasDirectory_of_lookup_append h (List.cons_ne_nil name [])
  by_cases habove : names <+: above
  · obtain ⟨e, he⟩ := hasDirectory_above hchild habove
    have hput : lookup above (Directory.insert (.directory d') (above ++ [name]) root) = _ :=
      lookup_insert_above hchild
    obtain ⟨e', he'⟩ := hasDirectory_above hput habove
    rw [he, he']
    exact .directory e e'
  by_cases hbelow : above ++ [name] <+: names
  · obtain ⟨below, rfl⟩ := hbelow
    obtain rfl : below = [] := by
      by_contra hne
      exact hnot (hfree below hne)
    rw [List.append_nil, h, lookup_insert_place hchild]
    exact .directory d d'
  · rw [lookup_insert_beside hchild habove hbelow]
    exact .refl _

end SameExcept

end LocaleAudit.Directory
