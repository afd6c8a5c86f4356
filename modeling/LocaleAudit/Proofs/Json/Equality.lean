import LocaleAudit.Catalog

namespace LocaleAudit

/-!
# Equality of values

Values, and so catalogs and what reading them gives, can be compared.
-/

namespace Json

mutual

def sameValue : Value → Value → Bool
  | .null, .null => true
  | .bool a, .bool b => a == b
  | .number a, .number b => a == b
  | .string a, .string b => a == b
  | .array vs, .array ws => sameItems vs ws
  | .object fields, .object others => sameFields fields others
  | _, _ => false
termination_by structural v => v

def sameItems : List Value → List Value → Bool
  | [], [] => true
  | v :: vs, w :: ws => sameValue v w && sameItems vs ws
  | _, _ => false
termination_by structural vs => vs

def sameFields : List (String × Value) → List (String × Value) → Bool
  | [], [] => true
  | (key, v) :: rest, (key', w) :: others => key == key' && sameValue v w && sameFields rest others
  | _, _ => false
termination_by structural fields => fields

end

mutual

theorem sameValue_iff (v w : Value) : sameValue v w = true ↔ v = w := by
  cases v with
  | array vs =>
    cases w with
    | array ws => simp [sameValue, sameItems_iff vs ws]
    | _ => simp [sameValue]
  | object fields =>
    cases w with
    | object others => simp [sameValue, sameFields_iff fields others]
    | _ => simp [sameValue]
  | _ => cases w <;> simp [sameValue]
termination_by structural v

theorem sameItems_iff (vs ws : List Value) : sameItems vs ws = true ↔ vs = ws := by
  cases vs with
  | nil => cases ws <;> simp [sameItems]
  | cons v vs =>
    cases ws with
    | nil => simp [sameItems]
    | cons w ws => simp [sameItems, sameValue_iff v w, sameItems_iff vs ws]
termination_by structural vs

theorem sameFields_iff (fields others : List (String × Value)) :
    sameFields fields others = true ↔ fields = others := by
  cases fields with
  | nil => cases others <;> simp [sameFields]
  | cons field rest =>
    obtain ⟨key, v⟩ := field
    cases others with
    | nil => simp [sameFields]
    | cons other others =>
      simp [sameFields, sameValue_iff v other.2, sameFields_iff rest others, Prod.ext_iff]
termination_by structural fields

end

instance : DecidableEq Value := fun v w => decidable_of_iff _ (sameValue_iff v w)

end Json

deriving instance DecidableEq for Catalog

end LocaleAudit
