import LocaleAudit.Proofs.Config
import LocaleAudit.Proofs.KeyPath.Segments
import LocaleAudit.Proofs.Text.Classes

namespace LocaleAudit

/-!
# How references are written

A reference has one spelling, and every text of that form is one. A resolved key is displayed as a
reference that names its namespace, so different keys look different.
-/

/-! ## Names of namespaces -/

theorem isNamespaceName_iff {s : List Char} :
    isNamespaceName s = true ↔
      s ≠ [] ∧ ∀ c ∈ s, isAlphanumeric c = true ∨ c = '_' ∨ c = '-' := by
  simp [isNamespaceName, or_assoc]

theorem isBlank_of_mem_namespaceName {s : List Char} (h : isNamespaceName s = true) {c : Char}
    (hc : c ∈ s) : isBlank c = false := by
  rw [Bool.eq_false_iff]
  intro hblank
  rcases (isNamespaceName_iff.mp h).2 c hc with halphanumeric | rfl | rfl
  · rw [isAlphanumeric_of_isBlank hblank] at halphanumeric
    cases halphanumeric
  · revert hblank
    decide
  · revert hblank
    decide

theorem colon_not_mem_namespaceName {s : List Char} (h : isNamespaceName s = true) : ':' ∉ s := by
  intro hcolon
  have hchar := (isNamespaceName_iff.mp h).2 ':' hcolon
  revert hchar
  decide

/-- The reference that names the namespace of a key. -/
def ResolvedKey.reference (r : ResolvedKey) : KeyRef :=
  .qualified r.nameSpace r.path

theorem ResolvedKey.reference_injective : Function.Injective reference := by
  rintro ⟨nameSpace, path⟩ ⟨nameSpace', path'⟩ h
  obtain ⟨rfl, rfl⟩ := KeyRef.qualified.inj h
  rfl

namespace KeyRef

variable {raw : String} {k : KeyRef}

/-! ## Spellings -/

/-- A path that a reference can lead to. -/
structure IsTarget (path : String) : Prop where
  visible : ∀ c ∈ path.toList, isBlank c = false
  no_colon : ':' ∉ path.toList
  keys : (KeyPath.segments? path).isSome = true

/-- How a reference is written. -/
inductive Spelled : KeyRef → String → Prop
  | unqualified {path : String} (hpath : IsTarget path) : Spelled (.unqualified path) path
  | qualified {nameSpace path : String} (hname : isNamespaceName nameSpace.toList = true)
      (hpath : IsTarget path) : Spelled (.qualified nameSpace path) (nameSpace ++ ":" ++ path)

theorem toList_qualified (nameSpace path : String) :
    (nameSpace ++ ":" ++ path).toList = nameSpace.toList ++ ':' :: path.toList := by
  simp [String.toList_append]

theorem spelled_of_parse? (h : parse? raw = some k) : Spelled k raw := by
  simp only [parse?] at h
  split at h
  · cases h
  · rename_i hblank
    have hvisible : ∀ c ∈ raw.toList, isBlank c = false := by simpa using hblank
    split at h
    · rename_i piece hsplit
      obtain ⟨rfl, hcolon⟩ := splitOnChar_eq_singleton_iff.mp hsplit
      obtain ⟨keys, hkeys, rfl⟩ := Option.map_eq_some_iff.mp h
      exact .unqualified ⟨hvisible, hcolon, Option.isSome_of_eq_some hkeys⟩
    · rename_i name path hsplit
      obtain ⟨hraw, _, hcolon⟩ := splitOnChar_eq_pair_iff.mp hsplit
      split at h
      · rename_i hname
        obtain ⟨keys, hkeys, rfl⟩ := Option.map_eq_some_iff.mp h
        have htext : raw = String.ofList name ++ ":" ++ String.ofList path := by
          apply String.toList_injective
          rw [hraw, toList_qualified, String.toList_ofList, String.toList_ofList]
        have hpath : ∀ c ∈ path, isBlank c = false := fun c hc =>
          hvisible c (by simp [hraw, hc])
        rw [htext]
        exact .qualified (by simpa using hname)
          ⟨by simpa using hpath, by simpa using hcolon, Option.isSome_of_eq_some hkeys⟩
      · cases h
    · cases h

theorem Spelled.visible (h : Spelled k raw) : ∀ c ∈ raw.toList, isBlank c = false := by
  cases h with
  | unqualified hpath => exact hpath.visible
  | qualified hname hpath =>
    rw [toList_qualified, List.forall_mem_append, List.forall_mem_cons]
    exact ⟨fun c => isBlank_of_mem_namespaceName hname, by decide, hpath.visible⟩

theorem Spelled.parse? (h : Spelled k raw) : parse? raw = some k := by
  have hblank : raw.toList.any isBlank = false := List.any_eq_false.mpr fun c hc => by
    simp [h.visible c hc]
  simp only [KeyRef.parse?, hblank, Bool.false_eq_true, if_false]
  cases h with
  | unqualified hpath =>
    obtain ⟨keys, hkeys⟩ := Option.isSome_iff_exists.mp hpath.keys
    simp only [splitOnChar_eq_singleton_iff.mpr ⟨rfl, hpath.no_colon⟩, hkeys, Option.map_some]
  | qualified hname hpath =>
    obtain ⟨keys, hkeys⟩ := Option.isSome_iff_exists.mp hpath.keys
    simp only [splitOnChar_eq_pair_iff.mpr
      ⟨toList_qualified _ _, colon_not_mem_namespaceName hname, hpath.no_colon⟩, hname, if_true,
      String.ofList_toList, hkeys, Option.map_some]

theorem parse?_eq_some_iff : parse? raw = some k ↔ Spelled k raw :=
  ⟨spelled_of_parse?, Spelled.parse?⟩

/-! ## Display -/

theorem Spelled.display_eq (h : Spelled k raw) : k.display = raw := by
  cases h <;> rfl

theorem Spelled.isTarget (h : Spelled k raw) : IsTarget k.path := by
  cases h with
  | unqualified hpath => exact hpath
  | qualified _ hpath => exact hpath

/-- A resolved key is written like the reference that names its namespace. -/
theorem Spelled.resolve (h : Spelled k raw) {defaultNamespace : String}
    (hdefault : isNamespaceName defaultNamespace.toList = true) :
    Spelled (k.resolve defaultNamespace).reference (k.resolve defaultNamespace).display := by
  cases h with
  | unqualified hpath => exact .qualified hdefault hpath
  | qualified hname hpath => exact .qualified hname hpath

/-! ## One spelling -/

/-- A text without blanks that is a path without a colon, or a namespace and a path with the only
colon between them. -/
structure Readable (raw : String) : Prop where
  visible : ∀ c ∈ raw.toList, isBlank c = false
  form : ((KeyPath.segments? raw).isSome = true ∧ ':' ∉ raw.toList) ∨
    ∃ nameSpace path : String, raw = nameSpace ++ ":" ++ path ∧ raw.toList.count ':' = 1 ∧
      nameSpace ≠ "" ∧ (∀ c ∈ nameSpace.toList, isAlphanumeric c = true ∨ c = '_' ∨ c = '-') ∧
      (KeyPath.segments? path).isSome = true

theorem exists_spelled_iff : (∃ k, Spelled k raw) ↔ Readable raw := by
  constructor
  · rintro ⟨k, h⟩
    refine ⟨h.visible, ?_⟩
    cases h with
    | unqualified hpath => exact Or.inl ⟨hpath.keys, hpath.no_colon⟩
    | @qualified nameSpace path hname hpath =>
      obtain ⟨hne, hchars⟩ := isNamespaceName_iff.mp hname
      have hcount : (nameSpace ++ ":" ++ path).toList.count ':' = 1 := by
        rw [toList_qualified, List.count_append, List.count_cons_self,
          List.count_eq_zero.mpr (colon_not_mem_namespaceName hname),
          List.count_eq_zero.mpr hpath.no_colon]
      exact Or.inr ⟨nameSpace, path, rfl, hcount, by simpa using hne, hchars, hpath.keys⟩
  · rintro ⟨hvisible, ⟨hkeys, hcolon⟩ | ⟨nameSpace, path, rfl, hcount, hne, hchars, hkeys⟩⟩
    · exact ⟨_, .unqualified ⟨hvisible, hcolon, hkeys⟩⟩
    · rw [toList_qualified] at hvisible hcount
      rw [List.count_append, List.count_cons_self] at hcount
      have hcolon : path.toList.count ':' = 0 := by omega
      have hpath : IsTarget path :=
        ⟨fun c hc => hvisible c (by simp [hc]), List.count_eq_zero.mp hcolon, hkeys⟩
      exact ⟨_, .qualified (isNamespaceName_iff.mpr ⟨by simpa using hne, hchars⟩) hpath⟩

/-- Whether a text is a reference can be seen from its form, and a reference displays as the text it
was read from. A resolved key displays as the reference that names its namespace, so no other key
looks like it. -/
theorem one_spelling (raw : String) :
    ((parse? raw).isSome = true ↔ Readable raw) ∧
    ∀ k, parse? raw = some k →
      k.display = raw ∧ parse? k.display = some k ∧
      ∀ config : Config, config.check = .ok () →
        parse? (k.resolve config.defaultNamespace).display =
            some (k.resolve config.defaultNamespace).reference ∧
          ∀ raw' k', parse? raw' = some k' →
            (k'.resolve config.defaultNamespace).display =
                (k.resolve config.defaultNamespace).display →
              k'.resolve config.defaultNamespace = k.resolve config.defaultNamespace := by
  refine ⟨?_, fun k hk => ?_⟩
  · rw [Option.isSome_iff_exists, ← exists_spelled_iff]
    simp only [parse?_eq_some_iff]
  · have hspelled := spelled_of_parse? hk
    have hdisplay := hspelled.display_eq
    refine ⟨hdisplay, hdisplay.symm ▸ hk, fun config hcheck => ?_⟩
    have hdefault := (Config.check_eq_ok_iff.mp hcheck).defaultNamespace
    have hresolved := (hspelled.resolve hdefault).parse?
    refine ⟨hresolved, fun raw' k' hk' heq => ?_⟩
    have hresolved' := ((spelled_of_parse? hk').resolve hdefault).parse?
    rw [heq, hresolved] at hresolved'
    exact ResolvedKey.reference_injective (Option.some.inj hresolved').symm

/-- A bare path and the same path behind the default namespace are two references to one key. -/
theorem one_spelling_profile :
    parse? "pages:profile.bio" = some (.qualified "pages" "profile.bio") ∧
      parse? "profile.bio" = some (.unqualified "profile.bio") ∧
      parse? "a:b:c" = none ∧
      ({ defaultNamespace := "pages" } : Config).check = .ok () ∧
      Readable "pages:profile.bio" ∧
      parse? (resolve "pages" (.unqualified "profile.bio")).display =
        some (.qualified "pages" "profile.bio") := by
  have hqualified : parse? "pages:profile.bio" = some (.qualified "pages" "profile.bio") := by
    decide +kernel
  have hbare : parse? "profile.bio" = some (.unqualified "profile.bio") := by decide +kernel
  have hconfig : ({ defaultNamespace := "pages" } : Config).check = .ok () := by rfl
  refine ⟨hqualified, hbare, by decide +kernel, hconfig, ?_, ?_⟩
  · exact (one_spelling "pages:profile.bio").1.mp (by simp [hqualified])
  · exact (((one_spelling "profile.bio").2 _ hbare).2.2 _ hconfig).1

end KeyRef

end LocaleAudit
