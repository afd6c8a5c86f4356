import LocaleAudit.Entries

namespace LocaleAudit.Entries

/-!
# Entries with distinct names

Putting an entry splits the list at its name: what stands before and behind stays. Entries read from
a list with repeated names have distinct names.
-/

variable {α : Type}

theorem get?_eq_none_iff {name : String} {entries : Entries α} :
    get? name entries = none ↔ name ∉ entries.map Prod.fst := by
  induction entries with
  | nil => simp
  | cons entry rest ih =>
    obtain ⟨k, v⟩ := entry
    by_cases h : k = name
    · simp [get?, h]
    · simp [get?, h, ih, Ne.symm h]

theorem exists_split_of_get? {name : String} {v : α} {entries : Entries α}
    (h : get? name entries = some v) :
    ∃ before after, entries = before ++ (name, v) :: after ∧ name ∉ before.map Prod.fst := by
  induction entries with
  | nil => simp at h
  | cons entry rest ih =>
    obtain ⟨k, w⟩ := entry
    by_cases hk : k = name
    · subst hk
      rw [get?_cons_same] at h
      cases h
      exact ⟨[], rest, rfl, by simp⟩
    · rw [get?_cons_ne hk] at h
      obtain ⟨before, after, hsplit, hbefore⟩ := ih h
      refine ⟨(k, w) :: before, after, by rw [hsplit, List.cons_append], ?_⟩
      simpa [Ne.symm hk] using hbefore

theorem mem_of_get? {name : String} {v : α} {entries : Entries α}
    (h : get? name entries = some v) : (name, v) ∈ entries := by
  obtain ⟨before, after, hsplit, _⟩ := exists_split_of_get? h
  rw [hsplit]
  simp

theorem get?_append_cons {name : String} {before : Entries α}
    (h : name ∉ before.map Prod.fst) (v : α) (after : Entries α) :
    get? name (before ++ (name, v) :: after) = some v := by
  induction before with
  | nil => simp [get?]
  | cons entry rest ih =>
    obtain ⟨k, w⟩ := entry
    simp only [List.map_cons, List.mem_cons, not_or] at h
    rw [List.cons_append, get?_cons_ne (Ne.symm h.1), ih h.2]

theorem get?_of_mem {name : String} {v : α} {entries : Entries α}
    (hnames : (entries.map Prod.fst).Nodup) (h : (name, v) ∈ entries) :
    get? name entries = some v := by
  obtain ⟨before, after, rfl⟩ := List.append_of_mem h
  rw [List.map_append, List.nodup_append] at hnames
  refine get?_append_cons (fun hbefore => ?_) v after
  exact hnames.2.2 name hbefore name (by simp) rfl

theorem put_append_cons {name : String} {before : Entries α}
    (h : name ∉ before.map Prod.fst) (v w : α) (after : Entries α) :
    put name w (before ++ (name, v) :: after) = before ++ (name, w) :: after := by
  induction before with
  | nil => simp [put]
  | cons entry rest ih =>
    obtain ⟨k, u⟩ := entry
    simp only [List.map_cons, List.mem_cons, not_or] at h
    simp [put, Ne.symm h.1, ih h.2]

theorem put_of_not_mem {name : String} {entries : Entries α}
    (h : name ∉ entries.map Prod.fst) (w : α) : put name w entries = entries ++ [(name, w)] := by
  induction entries with
  | nil => rfl
  | cons entry rest ih =>
    obtain ⟨k, v⟩ := entry
    simp only [List.map_cons, List.mem_cons, not_or] at h
    simp [put, Ne.symm h.1, ih h.2]

/-- What is there already can be put again. -/
theorem put_of_get? {name : String} {v : α} {entries : Entries α}
    (h : get? name entries = some v) : put name v entries = entries := by
  obtain ⟨before, after, rfl, hbefore⟩ := exists_split_of_get? h
  exact put_append_cons hbefore v v after

/-- The last of two contents for one name is the one that stays. -/
theorem put_put_same (name : String) (v w : α) (entries : Entries α) :
    put name w (put name v entries) = put name w entries := by
  induction entries with
  | nil => simp [put]
  | cons entry rest ih =>
    obtain ⟨k, u⟩ := entry
    by_cases h : k = name <;> simp [put, h, ih]

theorem mem_put {name : String} {w : α} {entries : Entries α} {entry : String × α}
    (h : entry ∈ put name w entries) : entry = (name, w) ∨ entry ∈ entries := by
  induction entries with
  | nil => simpa [put] using h
  | cons head rest ih =>
    obtain ⟨k, v⟩ := head
    by_cases hk : k = name
    · simp only [put, hk, if_true, List.mem_cons] at h
      rcases h with rfl | h
      · exact Or.inl rfl
      · exact Or.inr (List.mem_cons_of_mem _ h)
    · simp only [put, hk, if_false, List.mem_cons] at h
      rcases h with rfl | h
      · exact Or.inr List.mem_cons_self
      · exact (ih h).imp_right (List.mem_cons_of_mem _)

theorem nodup_put {name : String} {entries : Entries α}
    (h : (entries.map Prod.fst).Nodup) (w : α) : ((put name w entries).map Prod.fst).Nodup := by
  by_cases hmem : name ∈ entries.map Prod.fst
  · rwa [put_names_of_mem w hmem]
  · rw [put_names_of_not_mem w hmem, List.nodup_append]
    refine ⟨h, by simp, ?_⟩
    rintro k hk _ hname rfl
    exact hmem (List.mem_singleton.mp hname ▸ hk)

theorem names_put (name : String) (v : α) (entries : Entries α) :
    entries.map Prod.fst <+: (put name v entries).map Prod.fst := by
  by_cases hmem : name ∈ entries.map Prod.fst
  · exact (put_names_of_mem v hmem) ▸ List.prefix_refl _
  · rw [put_names_of_not_mem v hmem]
    exact List.prefix_append _ _

/-- Two new names may come in either order. -/
theorem names_put_comm {name other : String} (h : name ≠ other) (v w : α)
    (entries : Entries α) :
    ((put other w (put name v entries)).map Prod.fst).Perm
      ((put name v (put other w entries)).map Prod.fst) := by
  have hnew {a b : String} (hne : a ≠ b) (x : α) (hb : b ∉ entries.map Prod.fst) :
      b ∉ (put a x entries).map Prod.fst := by
    rw [← get?_eq_none_iff, get?_put_ne hne, get?_eq_none_iff]
    exact hb
  have hold {a b : String} (x : α) (hb : b ∈ entries.map Prod.fst) :
      b ∈ (put a x entries).map Prod.fst :=
    (names_put a x entries).subset hb
  by_cases hname : name ∈ entries.map Prod.fst <;> by_cases hother : other ∈ entries.map Prod.fst
  · rw [put_names_of_mem w (hold v hother), put_names_of_mem v (hold w hname),
      put_names_of_mem v hname, put_names_of_mem w hother]
  · rw [put_names_of_not_mem w (hnew h v hother), put_names_of_mem v (hold w hname),
      put_names_of_mem v hname, put_names_of_not_mem w hother]
  · rw [put_names_of_mem w (hold v hother), put_names_of_not_mem v (hnew h.symm w hname),
      put_names_of_not_mem v hname, put_names_of_mem w hother]
  · rw [put_names_of_not_mem w (hnew h v hother), put_names_of_not_mem v (hnew h.symm w hname),
      put_names_of_not_mem v hname, put_names_of_not_mem w hother, List.append_assoc,
      List.append_assoc]
    exact (List.Perm.swap _ _ _).append_left _

/-! ## Entries from a list in which names may repeat -/

theorem nodup_ofList (members : List (String × α)) :
    ((ofList members).map Prod.fst).Nodup := by
  suffices h : ∀ (entries : Entries α), (entries.map Prod.fst).Nodup →
      ((members.foldl (fun entries member => put member.1 member.2 entries) entries).map
        Prod.fst).Nodup from h [] List.nodup_nil
  induction members with
  | nil => exact fun entries h => h
  | cons member rest ih => exact fun entries h => ih _ (nodup_put h member.2)

theorem mem_of_mem_ofList {members : List (String × α)} {entry : String × α}
    (h : entry ∈ ofList members) : entry ∈ members := by
  suffices hall : ∀ entries : Entries α,
      entry ∈ members.foldl (fun entries member => put member.1 member.2 entries) entries →
        entry ∈ entries ∨ entry ∈ members by
    simpa using hall [] h
  clear h
  induction members with
  | nil => exact fun entries h => Or.inl h
  | cons member rest ih =>
    intro entries h
    rcases ih _ h with h | h
    · rcases mem_put h with rfl | h
      · exact Or.inr List.mem_cons_self
      · exact Or.inl h
    · exact Or.inr (List.mem_cons_of_mem _ h)

/-- A list without repeated names is taken as it stands. -/
theorem ofList_eq_self {members : List (String × α)} (h : (members.map Prod.fst).Nodup) :
    ofList members = members := by
  suffices hall : ∀ entries : Entries α, ((entries ++ members).map Prod.fst).Nodup →
      members.foldl (fun entries member => put member.1 member.2 entries) entries =
        entries ++ members from hall [] h
  clear h
  induction members with
  | nil => simp
  | cons member rest ih =>
    intro entries h
    have hnew : member.1 ∉ entries.map Prod.fst := by
      intro hmem
      rw [List.map_append, List.nodup_append] at h
      exact h.2.2 _ hmem _ (List.mem_map_of_mem List.mem_cons_self) rfl
    rw [List.append_cons] at h ⊢
    rw [List.foldl_cons, put_of_not_mem hnew]
    exact ih _ h

end LocaleAudit.Entries
