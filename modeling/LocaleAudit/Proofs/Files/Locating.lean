import LocaleAudit.Proofs.Files.Lookup

namespace LocaleAudit.Directory

/-!
# Where the pieces of a path lead

The last piece need not name anything that exists; all others must lead through directories. A way
that leads to a directory keeps leading there when no directory is lost.
-/

variable {root root' : Directory} {here place : List String} {before after : List String}

/-- Pieces lead to a directory. -/
structure Leads (root : Directory) (here pieces place : List String) : Prop where
  locateFrom_eq : locateFrom root here pieces = .ok place
  hasDirectory : HasDirectory place root

/-- A path leads somewhere when its pieces do and no NUL is in it. -/
theorem locate_eq_ok_iff {path : String} : locate root path = .ok place ↔
    '\x00' ∉ path.toList ∧ locateFrom root [] (Path.pieces path) = .ok place := by
  rw [locate]
  split <;> simp_all

theorem locateFrom_cons {d : Directory} (h : lookup here root = some (.directory d))
    (piece : String) (rest : List String) :
    locateFrom root here (piece :: rest) =
      if piece = "" ∨ piece = "." then locateFrom root here rest
      else if piece = ".." then locateFrom root here.dropLast rest
      else if rest.isEmpty || (Entries.get? piece d).isSome then
        locateFrom root (here ++ [piece]) rest
      else .error .notFound := by
  rw [locateFrom, h]

/-- Only from a directory does any piece lead on. -/
theorem hasDirectory_of_locateFrom {pieces : List String} (hpieces : pieces ≠ [])
    (h : locateFrom root here pieces = .ok place) : HasDirectory here root := by
  obtain ⟨piece, rest, rfl⟩ := List.exists_cons_of_ne_nil hpieces
  rw [locateFrom] at h
  cases hhere : lookup here root with
  | none => simp [hhere] at h
  | some node =>
    cases node with
    | file content => simp [hhere] at h
    | directory d => exact ⟨d, hhere⟩

/-- More pieces behind others start from where those lead, which must be a directory. -/
theorem locateFrom_append (hafter : after ≠ []) :
    locateFrom root here (before ++ after) =
      match locateFrom root here before with
      | .error fault => .error fault
      | .ok place =>
        match lookup place root with
        | none => .error .notFound
        | some (.file _) => .error .notDirectory
        | some (.directory _) => locateFrom root place after := by
  obtain ⟨first, others, rfl⟩ := List.exists_cons_of_ne_nil hafter
  induction before generalizing here with
  | nil =>
    rw [List.nil_append]
    cases hhere : lookup here root with
    | none => simp [locateFrom, hhere]
    | some node => cases node <;> simp [locateFrom, hhere]
  | cons piece before ih =>
    cases hhere : lookup here root with
    | none => simp [locateFrom, hhere]
    | some node =>
      cases node with
      | file content => simp [locateFrom, hhere]
      | directory d =>
        have hmore : (before ++ first :: others).isEmpty = false := by simp
        rw [List.cons_append, locateFrom_cons hhere, locateFrom_cons hhere, hmore, Bool.false_or]
        split
        · exact ih
        split
        · exact ih
        cases hget : Entries.get? piece d with
        | some node => simpa using ih
        | none =>
          cases before with
          | nil =>
            -- The piece is the last one before `after`, and names nothing.
            simp [locateFrom, lookup_concat hhere, hget]
          | cons next before => simp

theorem locateFrom_append_of_leads (h : Leads root here before place) (hafter : after ≠ []) :
    locateFrom root here (before ++ after) = locateFrom root place after := by
  obtain ⟨child, hchild⟩ := h.hasDirectory
  rw [locateFrom_append hafter, h.locateFrom_eq]
  simp only [hchild]

/-- When more pieces lead somewhere, those before them lead to a directory. -/
theorem exists_leads_of_append {last : List String} (hafter : after ≠ [])
    (h : locateFrom root here (before ++ after) = .ok last) :
    ∃ place, Leads root here before place ∧ locateFrom root place after = .ok last := by
  rw [locateFrom_append hafter] at h
  split at h
  · cases h
  · rename_i place hplace
    split at h
    · cases h
    · cases h
    · rename_i child hchild
      exact ⟨place, ⟨hplace, child, hchild⟩, h⟩

/-- Without a directory lost, pieces lead where they led. -/
theorem Leads.mono (hmono : ∀ names, HasDirectory names root → HasDirectory names root')
    (h : Leads root here before place) : Leads root' here before place := by
  refine ⟨?_, hmono place h.hasDirectory⟩
  obtain ⟨hlocate, hplace⟩ := h
  induction before generalizing here with
  | nil => exact hlocate
  | cons piece rest ih =>
    obtain ⟨d, hd⟩ := hasDirectory_of_locateFrom (List.cons_ne_nil _ _) hlocate
    obtain ⟨d', hd'⟩ := hmono here ⟨d, hd⟩
    rw [locateFrom_cons hd] at hlocate
    rw [locateFrom_cons hd']
    by_cases hsilent : piece = "" ∨ piece = "."
    · rw [if_pos hsilent] at hlocate ⊢
      exact ih hlocate
    by_cases hup : piece = ".."
    · rw [if_neg hsilent, if_pos hup] at hlocate ⊢
      exact ih hlocate
    rw [if_neg hsilent, if_neg hup] at hlocate ⊢
    split at hlocate
    · have hnext : (rest.isEmpty || (Entries.get? piece d').isSome) = true := by
        by_cases hrest : rest = []
        · simp [hrest]
        · obtain ⟨child, hchild⟩ := hmono _ (hasDirectory_of_locateFrom hrest hlocate)
          rw [lookup_concat hd'] at hchild
          simp [hchild]
      rw [if_pos hnext]
      exact ih hlocate
    · cases hlocate

/-! ## Proper names -/

theorem locateFrom_name (h : HasDirectory here root) {name : String} (hname : IsName name)
    (rest : List String) :
    locateFrom root here (name :: rest) =
      if rest.isEmpty || (lookup (here ++ [name]) root).isSome then
        locateFrom root (here ++ [name]) rest
      else .error .notFound := by
  obtain ⟨d, hd⟩ := h
  have hsilent : ¬(name = "" ∨ name = ".") := by
    rintro (rfl | rfl)
    · exact hname.nonempty rfl
    · exact hname.not_here rfl
  rw [locateFrom_cons hd, if_neg hsilent, if_neg hname.not_up, lookup_concat hd]

theorem locateFrom_last (h : HasDirectory here root) {name : String} (hname : IsName name) :
    locateFrom root here [name] = .ok (here ++ [name]) := by
  rw [locateFrom_name h hname]
  rfl

/-! ## Silent pieces -/

/-- Pieces with some of those dropped that name nothing. -/
inductive Slims : List String → List String → Prop where
  | nil : Slims [] []
  | keep (piece : String) {pieces slim : List String} (h : Slims pieces slim) :
    Slims (piece :: pieces) (piece :: slim)
  | drop {piece : String} {pieces slim : List String} (hsilent : piece = "" ∨ piece = ".")
    (h : Slims pieces slim) : Slims (piece :: pieces) slim

/-- In front of a last piece, pieces that name nothing make no difference. -/
theorem locateFrom_slims {pieces slim : List String} (h : Slims pieces slim) (last : String) :
    locateFrom root here (pieces ++ [last]) = locateFrom root here (slim ++ [last]) := by
  induction h generalizing here with
  | nil => rfl
  | @keep piece pieces slim _ ih =>
    have hpieces : (pieces ++ [last]).isEmpty = false := by simp
    have hslim : (slim ++ [last]).isEmpty = false := by simp
    rw [List.cons_append, List.cons_append, locateFrom, locateFrom, hpieces, hslim]
    simp only [ih]
  | @drop piece pieces slim hsilent _ ih =>
    rw [List.cons_append, locateFrom]
    obtain ⟨first, others, hcons⟩ := List.exists_cons_of_ne_nil (l := slim ++ [last]) (by simp)
    simp only [hsilent, if_true, ih, hcons]
    rw [locateFrom]
    split <;> simp_all

end LocaleAudit.Directory
