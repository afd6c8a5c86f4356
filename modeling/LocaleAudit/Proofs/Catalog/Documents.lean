import LocaleAudit.Proofs.Json.Equality
import LocaleAudit.Proofs.KeyPath.Leaves

namespace LocaleAudit

/-!
# Catalogs from documents

A catalog that a document spells has distinct keys, and dotted paths can address all of them.
-/

namespace Catalog

open Json (Value)

/-- A catalog that some document of its language and namespace spells. -/
def Parsed (c : Catalog) : Prop :=
  ∃ text, parse c.language c.nameSpace text = .ok c

theorem parse_eq_ok_iff {language nameSpace text : String} {c : Catalog} :
    parse language nameSpace text = .ok c ↔ (parse language nameSpace text).toOption = some c := by
  cases parse language nameSpace text <;> simp [Except.toOption]

instance {language nameSpace text : String} {c : Catalog} :
    Decidable (parse language nameSpace text = .ok c) :=
  decidable_of_iff _ parse_eq_ok_iff.symm

theorem keysAddressable_of_badKeyBelow? {tree : Tree} {parent : String}
    (h : badKeyBelow? parent tree = none) : (Value.object tree).KeysAddressable := by
  induction tree using Tree.induction generalizing parent with
  | nil => exact Value.keysAddressable_nil
  | leaf key v rest hleaf ih =>
    rw [badKeyBelow?] at h
    split at h
    · rename_i hkey
      rw [Option.or_eq_none_iff] at h
      exact Value.keysAddressable_cons.mpr ⟨hkey, .leaf hleaf, ih h.2⟩
    · cases h
  | node key child rest ihchild ih =>
    rw [badKeyBelow?] at h
    split at h
    · rename_i hkey
      rw [Option.or_eq_none_iff, badKeyAt?] at h
      exact Value.keysAddressable_cons.mpr ⟨hkey, ihchild h.1, ih h.2⟩
    · cases h

theorem wellFormed_of_parse {language nameSpace text : String} {c : Catalog}
    (h : parse language nameSpace text = .ok c) :
    c.language = language ∧ c.nameSpace = nameSpace ∧ c.tree.WellFormed := by
  unfold parse at h
  split at h
  · rename_i value hvalue
    have hdistinct := Json.keysDistinct_of_parse hvalue
    unfold ofValue at h
    split at h
    · split at h
      · rename_i tree hkeys
        cases h
        exact ⟨rfl, rfl, hdistinct, keysAddressable_of_badKeyBelow? hkeys⟩
      · cases h
    · cases h
  · cases h

theorem Parsed.wellFormed {c : Catalog} (h : c.Parsed) : c.tree.WellFormed := by
  obtain ⟨text, htext⟩ := h
  exact (wellFormed_of_parse htext).2.2

theorem parsed_of_parse {language nameSpace text : String} {c : Catalog}
    (h : parse language nameSpace text = .ok c) : c.Parsed := by
  obtain ⟨rfl, rfl, _⟩ := wellFormed_of_parse h
  exact ⟨text, h⟩

end Catalog

end LocaleAudit
