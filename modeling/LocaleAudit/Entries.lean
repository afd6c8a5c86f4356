namespace LocaleAudit

/-!
# Entries by name

A list of named entries in a fixed order. Putting an entry keeps one entry per name: a name that is
there keeps its place and takes the new content, a new name goes to the end.
-/

abbrev Entries (α : Type) := List (String × α)

namespace Entries

variable {α : Type}

def get? (name : String) : Entries α → Option α
  | [] => none
  | (k, v) :: rest => if k = name then some v else get? name rest

def put (name : String) (value : α) : Entries α → Entries α
  | [] => [(name, value)]
  | (k, v) :: rest => if k = name then (k, value) :: rest else (k, v) :: put name value rest

def remove (name : String) : Entries α → Entries α
  | [] => []
  | (k, v) :: rest => if k = name then rest else (k, v) :: remove name rest

/-- Entries from a list in which names may repeat; the last of equal names gives the content. -/
def ofList (members : List (String × α)) : Entries α :=
  members.foldl (fun entries member => put member.1 member.2 entries) []

@[simp] theorem get?_nil (name : String) : get? name ([] : Entries α) = none := rfl

theorem get?_cons_same (name : String) (v : α) (rest : Entries α) :
    get? name ((name, v) :: rest) = some v := by
  simp [get?]

theorem get?_cons_ne {name k : String} (h : k ≠ name) (v : α) (rest : Entries α) :
    get? name ((k, v) :: rest) = get? name rest := by
  simp [get?, h]

theorem get?_put_same (name : String) (value : α) (entries : Entries α) :
    get? name (put name value entries) = some value := by
  induction entries with
  | nil => simp [put, get?]
  | cons entry rest ih =>
    obtain ⟨k, v⟩ := entry
    by_cases h : k = name <;> simp [put, get?, h, ih]

theorem get?_put_ne {name other : String} (h : name ≠ other) (value : α) (entries : Entries α) :
    get? other (put name value entries) = get? other entries := by
  induction entries with
  | nil => simp [put, get?, h]
  | cons entry rest ih =>
    obtain ⟨k, v⟩ := entry
    by_cases hk : k = name
    · subst hk
      simp [put, get?, h]
    · by_cases ho : k = other
      · subst ho
        simp [put, get?, hk]
      · simp [put, get?, hk, ho, ih]

theorem put_names_of_mem {name : String} (value : α) {entries : Entries α}
    (h : name ∈ entries.map Prod.fst) :
    (put name value entries).map Prod.fst = entries.map Prod.fst := by
  induction entries with
  | nil => simp at h
  | cons entry rest ih =>
    obtain ⟨k, v⟩ := entry
    by_cases hk : k = name
    · simp [put, hk]
    · have : name ∈ rest.map Prod.fst := by simpa [Ne.symm hk] using h
      simp [put, hk, ih this]

theorem put_names_of_not_mem {name : String} (value : α) {entries : Entries α}
    (h : name ∉ entries.map Prod.fst) :
    (put name value entries).map Prod.fst = entries.map Prod.fst ++ [name] := by
  induction entries with
  | nil => simp [put]
  | cons entry rest ih =>
    obtain ⟨k, v⟩ := entry
    simp only [List.map_cons, List.mem_cons, not_or] at h
    have hk : k ≠ name := fun e => h.1 e.symm
    have ih := ih h.2
    simp [put, hk, ih]

end Entries

end LocaleAudit
