import LocaleAudit.Catalog
import LocaleAudit.Proofs.Text.Search

namespace LocaleAudit

/-!
# Keys and the paths that spell them

Splitting a path at its dots and joining keys with dots undo each other, as long as no key is empty
or holds a dot. Dotted prefixes of paths are then prefixes of key sequences.
-/

namespace KeyPath

def Addressable (keys : List String) : Prop :=
  ∀ key ∈ keys, Catalog.isAddressable key = true

theorem Addressable.nonempty {key : String} (h : Catalog.isAddressable key = true) : key ≠ "" := by
  rintro rfl
  simp [Catalog.isAddressable] at h

theorem Addressable.no_dot {key : String} (h : Catalog.isAddressable key = true) :
    '.' ∉ key.toList := by
  simp only [Catalog.isAddressable, Bool.and_eq_true, Bool.not_eq_true'] at h
  simpa using h.2

theorem Addressable.cons {key : String} {keys : List String} :
    Addressable (key :: keys) ↔ Catalog.isAddressable key = true ∧ Addressable keys := by
  simp [Addressable]

theorem Addressable.nil : Addressable [] := by
  simp [Addressable]

theorem Addressable.append_singleton {key : String} {keys : List String} (h : Addressable keys)
    (hkey : Catalog.isAddressable key = true) : Addressable (keys ++ [key]) := by
  intro k hk
  rcases List.mem_append.mp hk with hk | hk
  · exact h k hk
  · exact List.mem_singleton.mp hk ▸ hkey

/-! ## Splitting and joining -/

theorem toList_joinAll (keys : List String) :
    (joinAll keys).toList = ['.'].intercalate (keys.map String.toList) := by
  rw [joinAll, String.toList_intercalate]
  rfl

theorem splitOnChar_joinAll {keys : List String} (hne : keys ≠ []) (h : Addressable keys) :
    splitOnChar '.' (joinAll keys).toList = keys.map String.toList := by
  rw [splitOnChar_eq_splitOn, toList_joinAll, List.splitOn_intercalate]
  · intro piece hpiece
    obtain ⟨key, hkey, rfl⟩ := List.mem_map.mp hpiece
    exact Addressable.no_dot (h key hkey)
  · simpa using hne

theorem splitOnChar_dotted (above rest : String) :
    splitOnChar '.' (above ++ "." ++ rest).toList =
      splitOnChar '.' above.toList ++ splitOnChar '.' rest.toList := by
  have htext : (above ++ "." ++ rest).toList = above.toList ++ '.' :: rest.toList := by
    simp [String.toList_append]
  rw [htext, splitOnChar_append]

theorem segments?_joinAll {keys : List String} (hne : keys ≠ []) (h : Addressable keys) :
    segments? (joinAll keys) = some keys := by
  have hpieces : (keys.map String.toList).any List.isEmpty = false := by
    rw [List.any_eq_false]
    intro piece hpiece
    obtain ⟨key, hkey, rfl⟩ := List.mem_map.mp hpiece
    simpa using Addressable.nonempty (h key hkey)
  simp only [segments?, splitOnChar_joinAll hne h, hpieces]
  simp [Function.comp_def]

theorem joinAll_of_segments? {path : String} {keys : List String}
    (h : segments? path = some keys) : joinAll keys = path := by
  simp only [segments?] at h
  split at h
  · cases h
  · cases h
    apply String.toList_injective
    rw [toList_joinAll, splitOnChar_eq_splitOn]
    simp [Function.comp_def, List.intercalate_splitOn]

theorem ne_nil_of_segments? {path : String} {keys : List String}
    (h : segments? path = some keys) : keys ≠ [] := by
  simp only [segments?] at h
  split at h
  · cases h
  · cases h
    simpa using splitOnChar_ne_nil '.' path.toList

theorem addressable_of_segments? {path : String} {keys : List String}
    (h : segments? path = some keys) : Addressable keys := by
  simp only [segments?] at h
  split at h
  · cases h
  · rename_i hfull
    cases h
    intro key hkey
    obtain ⟨piece, hpiece, rfl⟩ := List.mem_map.mp hkey
    have hne : piece ≠ [] := by
      rintro rfl
      exact hfull (List.any_eq_true.mpr ⟨[], hpiece, rfl⟩)
    have hdot : '.' ∉ piece := not_mem_of_mem_splitOnChar hpiece
    simp [Catalog.isAddressable, hne, hdot]

theorem joinAll_injective {keys keys' : List String} (hne : keys ≠ []) (hne' : keys' ≠ [])
    (h : Addressable keys) (h' : Addressable keys') (heq : joinAll keys = joinAll keys') :
    keys = keys' := by
  have hs := segments?_joinAll hne h
  rw [heq, segments?_joinAll hne' h'] at hs
  exact (Option.some.inj hs).symm

theorem join_joinAll {keys : List String} (h : Addressable keys) (key : String) :
    join (joinAll keys) key = joinAll (keys ++ [key]) := by
  cases keys with
  | nil => simp [joinAll, join]
  | cons first rest =>
    have hne : joinAll (first :: rest) ≠ "" := by
      intro hempty
      have hs := segments?_joinAll (List.cons_ne_nil first rest) h
      rw [hempty] at hs
      simp [segments?, splitOnChar] at hs
    rw [join, if_neg (by simpa using hne), joinAll, joinAll,
      String.intercalate_append_of_ne_nil (List.cons_ne_nil _ _) (List.cons_ne_nil _ _),
      String.intercalate_singleton]

/-! ## Dotted prefixes -/

def isProperPrefix (upper lower : String) : Bool :=
  startsWith (upper.toList ++ ['.']) lower.toList

/-- Paths of which one is a dotted prefix of the other: no tree has leaves at both, unless they
are equal. -/
def comparable (p q : String) : Bool :=
  p == q || isProperPrefix p q || isProperPrefix q p

def comparableKeys (keys keys' : List String) : Bool :=
  keys.isPrefixOf keys' || keys'.isPrefixOf keys

theorem comparableKeys_iff {keys keys' : List String} :
    comparableKeys keys keys' = true ↔ keys <+: keys' ∨ keys' <+: keys := by
  simp only [comparableKeys, Bool.or_eq_true, List.isPrefixOf_iff_prefix]

@[simp] theorem comparableKeys_nil (keys : List String) : comparableKeys [] keys = true := by
  simp [comparableKeys]

theorem comparableKeys_cons_same (key : String) (keys keys' : List String) :
    comparableKeys (key :: keys) (key :: keys') = comparableKeys keys keys' := by
  simp [comparableKeys]

theorem comparableKeys_cons_ne {key key' : String} (h : key ≠ key') (keys keys' : List String) :
    comparableKeys (key :: keys) (key' :: keys') = false := by
  simp [comparableKeys, List.isPrefixOf, h, Ne.symm h]

theorem isProperPrefix_iff {upper lower : String} :
    isProperPrefix upper lower = true ↔ ∃ rest, lower = upper ++ "." ++ rest := by
  rw [isProperPrefix, startsWith_iff]
  constructor
  · rintro ⟨rest, hrest⟩
    refine ⟨String.ofList rest, String.toList_injective ?_⟩
    simpa using hrest.symm
  · rintro ⟨rest, rfl⟩
    exact ⟨rest.toList, by simp⟩

theorem isProperPrefix_self (p : String) : isProperPrefix p p = false := by
  rw [Bool.eq_false_iff, ne_eq, isProperPrefix, startsWith_iff]
  intro hordered
  have hlength := hordered.length_le
  rw [List.length_append, List.length_singleton] at hlength
  omega

theorem isProperPrefix_joinAll {keys keys' : List String} (hne : keys ≠ []) (hne' : keys' ≠ [])
    (h : Addressable keys) (h' : Addressable keys') :
    isProperPrefix (joinAll keys) (joinAll keys') = true ↔ keys <+: keys' ∧ keys ≠ keys' := by
  rw [isProperPrefix_iff]
  constructor
  · rintro ⟨rest, hrest⟩
    have hsplit : keys'.map String.toList =
        keys.map String.toList ++ splitOnChar '.' rest.toList := by
      rw [← splitOnChar_joinAll hne' h', ← splitOnChar_joinAll hne h, hrest, splitOnChar_dotted]
    have hlist : keys' = keys ++ (splitOnChar '.' rest.toList).map String.ofList := by
      have hmap := congrArg (List.map String.ofList) hsplit
      simpa [Function.comp_def] using hmap
    refine ⟨⟨_, hlist.symm⟩, ?_⟩
    rintro rfl
    exact splitOnChar_ne_nil '.' rest.toList (by simpa using hlist)
  · rintro ⟨⟨rest, rfl⟩, hneq⟩
    have hrest : rest ≠ [] := by
      rintro rfl
      simp at hneq
    exact ⟨joinAll rest, String.intercalate_append_of_ne_nil hne hrest⟩

theorem comparable_joinAll {keys keys' : List String} (hne : keys ≠ []) (hne' : keys' ≠ [])
    (h : Addressable keys) (h' : Addressable keys') :
    comparable (joinAll keys) (joinAll keys') = comparableKeys keys keys' := by
  rw [Bool.eq_iff_iff]
  simp only [comparable, comparableKeys_iff, Bool.or_eq_true, beq_iff_eq,
    isProperPrefix_joinAll hne hne' h h', isProperPrefix_joinAll hne' hne h' h]
  constructor
  · rintro ((heq | hp) | hp)
    · rw [joinAll_injective hne hne' h h' heq]
      exact Or.inl (List.prefix_refl _)
    · exact Or.inl hp.1
    · exact Or.inr hp.1
  · intro hp
    by_cases heq : keys = keys'
    · exact Or.inl (Or.inl (congrArg joinAll heq))
    · rcases hp with hp | hp
      · exact Or.inl (Or.inr ⟨hp, heq⟩)
      · exact Or.inr ⟨hp, Ne.symm heq⟩

theorem comparableKeys_of_comparable {path path' : String} {keys keys' : List String}
    (hpath : segments? path = some keys) (hpath' : segments? path' = some keys')
    (h : comparable path path' = false) : comparableKeys keys keys' = false := by
  rw [← h, ← joinAll_of_segments? hpath, ← joinAll_of_segments? hpath']
  exact (comparable_joinAll (ne_nil_of_segments? hpath) (ne_nil_of_segments? hpath')
    (addressable_of_segments? hpath) (addressable_of_segments? hpath')).symm

theorem comparable_comm (p q : String) : comparable p q = comparable q p := by
  rw [Bool.eq_iff_iff]
  simp only [comparable, Bool.or_eq_true, beq_iff_eq, or_assoc, eq_comm (a := p)]
  rw [or_comm (a := isProperPrefix p q = true)]

theorem exists_segments?_of_isProperPrefix {path above : String} {keys : List String}
    (hkeys : segments? path = some keys) (h : isProperPrefix above path = true) :
    ∃ upper lower, segments? above = some upper ∧ upper ≠ [] ∧ lower ≠ [] ∧
      keys = upper ++ lower := by
  obtain ⟨rest, rfl⟩ := isProperPrefix_iff.mp h
  simp only [segments?, splitOnChar_dotted] at hkeys
  split at hkeys
  · cases hkeys
  · rename_i hfull
    cases hkeys
    rw [List.any_append, Bool.or_eq_true, not_or] at hfull
    refine ⟨_, _, by simp only [segments?, hfull.1, Bool.false_eq_true, if_false], ?_, ?_,
      List.map_append⟩
    · simpa using splitOnChar_ne_nil '.' above.toList
    · simpa using splitOnChar_ne_nil '.' rest.toList

theorem segments?_dotted {path : String} {keys : List String} (hkeys : segments? path = some keys)
    (below : String) :
    segments? (path ++ "." ++ below) = (segments? below).map (keys ++ ·) := by
  simp only [segments?] at hkeys
  split at hkeys
  · cases hkeys
  · rename_i hfull
    cases hkeys
    simp only [segments?, splitOnChar_dotted, List.any_append, hfull, Bool.false_or]
    split <;> simp

theorem isProperPrefix_of_append {path : String} {upper lower : List String}
    (hkeys : segments? path = some (upper ++ lower)) (hupper : upper ≠ []) (hlower : lower ≠ []) :
    isProperPrefix (joinAll upper) path = true ∧ segments? (joinAll upper) = some upper := by
  have haddressable := addressable_of_segments? hkeys
  have habove : Addressable upper := fun key hkey =>
    haddressable key (List.mem_append_left lower hkey)
  refine ⟨?_, segments?_joinAll hupper habove⟩
  rw [← joinAll_of_segments? hkeys, isProperPrefix_joinAll hupper (ne_nil_of_segments? hkeys)
    habove haddressable]
  refine ⟨List.prefix_append upper lower, fun heq => hlower ?_⟩
  simpa using heq

end KeyPath

end LocaleAudit
