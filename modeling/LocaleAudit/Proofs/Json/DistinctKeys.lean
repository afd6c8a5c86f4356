import LocaleAudit.Json.Reader
import LocaleAudit.Proofs.Entries

namespace LocaleAudit.Json

/-!
# Distinct keys

The reader keeps one field per key, so every object of a value it reads has distinct keys, however
deep the object lies and whatever keys the text repeats.
-/

/-- Every object in a value, inside arrays too, has distinct keys. -/
inductive Value.KeysDistinct : Value → Prop where
  | null : KeysDistinct .null
  | bool (b : Bool) : KeysDistinct (.bool b)
  | number (n : Number) : KeysDistinct (.number n)
  | string (s : String) : KeysDistinct (.string s)
  | array {items : List Value} (hitems : ∀ v ∈ items, KeysDistinct v) : KeysDistinct (.array items)
  | object {fields : Fields} (hkeys : (fields.map Prod.fst).Nodup)
      (hvalues : ∀ field ∈ fields, KeysDistinct field.2) : KeysDistinct (.object fields)

/-- A reader whose values all have a property. -/
def Reader.Yields {α : Type} (reader : Reader α) (P : α → Prop) : Prop :=
  ∀ ⦃s : List Char⦄ ⦃r : Consumed α s⦄, reader s = .ok r → P r.value

section

variable {element : Reader Value} {P : Value → Prop}

theorem readItems_yields (h : Reader.Yields element P) :
    Reader.Yields (readItems element) fun items => ∀ v ∈ items, P v := by
  intro s r hr
  fun_induction readItems element s with
  | case3 s v hv t ht =>
    cases hr
    simpa using h hv
  | case7 s v hv t ht c u hc hu shorter rest hrest ih =>
    cases hr
    exact List.forall_mem_cons.mpr ⟨h hv, ih hrest⟩
  | _ => cases hr

theorem readArray_yields (h : Reader.Yields element P) :
    Reader.Yields (readArray element) fun items => ∀ v ∈ items, P v := by
  intro s r hr
  unfold readArray at hr
  split at hr
  · cases hr
  · cases hr
    simp
  · split at hr
    · cases hr
    · rename_i items hitems
      cases hr
      have hread : ∀ v ∈ items.value, P v := readItems_yields h hitems
      exact hread

theorem readMember_yields (h : Reader.Yields element P) :
    Reader.Yields (readMember element) fun field => P field.2 := by
  intro s r hr
  unfold readMember at hr
  split at hr
  · cases hr
  · split at hr
    · cases hr
    · split at hr
      · cases hr
      · rename_i v hv
        cases hr
        exact h hv
    · cases hr

theorem readMembers_yields (h : Reader.Yields element P) :
    Reader.Yields (readMembers element) fun fields => ∀ field ∈ fields, P field.2 := by
  intro s r hr
  fun_induction readMembers element s with
  | case3 s m hm t ht =>
    cases hr
    simpa using readMember_yields h hm
  | case6 s m hm t ht u hu shorter rest hrest ih =>
    cases hr
    exact List.forall_mem_cons.mpr ⟨readMember_yields h hm, ih hrest⟩
  | _ => cases hr

theorem readObject_yields (h : Reader.Yields element P) :
    Reader.Yields (readObject element) fun fields =>
      (fields.map Prod.fst).Nodup ∧ ∀ field ∈ fields, P field.2 := by
  intro s r hr
  unfold readObject at hr
  split at hr
  · cases hr
  · cases hr
    simp
  · split at hr
    · cases hr
    · rename_i members hmembers
      cases hr
      refine ⟨Entries.nodup_ofList _, ?_⟩
      intro field hfield
      exact readMembers_yields h hmembers field (Entries.mem_of_mem_ofList hfield)
  · cases hr

end

/-- One layer of a value: a number with a property, elements and fields with another, where there
may be any, and distinct keys. -/
def Value.Layer (nested : Bool) (N : Number → Prop) (P : Value → Prop) : Value → Prop
  | .null => True
  | .bool _ => True
  | .number n => N n
  | .string _ => True
  | .array items => nested = true ∧ ∀ v ∈ items, P v
  | .object fields =>
    nested = true ∧ (fields.map Prod.fst).Nodup ∧ ∀ field ∈ fields, P field.2

theorem readFrom_yields {nested : Option (Reader Value)} {N : Number → Prop} {P : Value → Prop}
    (hnumber : ∀ negative, Reader.Yields (readNumber negative) N)
    (h : ∀ element ∈ nested, Reader.Yields element P) :
    Reader.Yields (readFrom nested) (Value.Layer nested.isSome N P) := by
  intro s r hr
  unfold readFrom at hr
  split at hr
  · cases hr
  · split at hr
    · cases hr
    · cases hr
      trivial
  · split at hr
    · cases hr
    · cases hr
      trivial
  · split at hr
    · cases hr
    · cases hr
      trivial
  · split at hr
    · cases hr
    · cases hr
      trivial
  · split at hr
    · cases hr
    · rename_i n hn
      cases hr
      have hread : N n.value := hnumber true hn
      exact hread
  · split at hr
    · cases hr
    · rename_i element
      split at hr
      · cases hr
      · rename_i items hitems
        cases hr
        have hread : ∀ v ∈ items.value, P v := readArray_yields (h element rfl) hitems
        exact ⟨rfl, hread⟩
  · split at hr
    · cases hr
    · rename_i element
      split at hr
      · cases hr
      · rename_i fields hfields
        cases hr
        obtain ⟨hkeys, hvalues⟩ := readObject_yields (h element rfl) hfields
        exact ⟨rfl, hkeys, hvalues⟩
  · split at hr
    · split at hr
      · cases hr
      · rename_i n hn
        cases hr
        have hread : N n.value := hnumber false hn
        exact hread
    · cases hr

theorem Reader.Yields.behindSpace {reader : Reader Value} {P : Value → Prop}
    (h : Reader.Yields reader P) :
    Reader.Yields (fun s => (reader (skipSpace s)).map (·.widen (length_skipSpace_le s))) P := by
  intro s r hr
  cases hread : reader (skipSpace s) with
  | error stop => simp [hread, Except.map] at hr
  | ok v =>
    simp only [hread, Except.map] at hr
    cases hr
    have hv : P v.value := h hread
    exact hv

/-- The reader of what is nested in a value, if anything may be. -/
def nestedAt : Nat → Option (Reader Value)
  | 0 => none
  | depth + 1 => some (readValue depth)

theorem readValue_eq (depth : Nat) (s : List Char) :
    readValue depth s =
      (readFrom (nestedAt depth) (skipSpace s)).map (·.widen (length_skipSpace_le s)) := by
  cases depth with
  | zero => rfl
  | succ depth => rfl

/-- A property of the values with at most so many levels holds of what is read, when it holds of
every layer above such values with a level less. -/
theorem readValue_yields {N : Number → Prop} {P : Nat → Value → Prop}
    (hnumber : ∀ negative, Reader.Yields (readNumber negative) N)
    (hlayer : ∀ depth v, v.Layer (depth != 0) N (P (depth - 1)) → P depth v) (depth : Nat) :
    Reader.Yields (readValue depth) (P depth) := by
  -- The reader of a nested value is `readValue` one level down, so the induction is on the depth.
  induction depth with
  | zero =>
    have hflat : Reader.Yields (readFrom none) (P 0) := fun _ _ hr =>
      hlayer 0 _ (readFrom_yields hnumber (by simp) hr)
    exact hflat.behindSpace
  | succ depth ih =>
    have hnested : Reader.Yields (readFrom (some (readValue depth))) (P (depth + 1)) :=
      fun _ _ hr => hlayer (depth + 1) _ (readFrom_yields hnumber (by simpa using ih) hr)
    exact hnested.behindSpace

theorem parse_yields {P : Value → Prop} (hread : Reader.Yields (readValue maxDepth) P)
    {text : String} {v : Value} (h : parse text = .ok v) : P v := by
  unfold parse readDocument at h
  cases hvalue : readValue maxDepth text.toList with
  | error stop => simp [hvalue] at h
  | ok r =>
    rw [hvalue] at h
    cases hrest : skipSpace r.rest with
    | nil =>
      simp only [hrest] at h
      cases h
      exact hread hvalue
    | cons c t => simp [hrest] at h

theorem keysDistinct_of_layer {nested : Bool} {N : Number → Prop} {v : Value}
    (h : v.Layer nested N Value.KeysDistinct) : v.KeysDistinct := by
  cases v with
  | null => exact .null
  | bool b => exact .bool b
  | number n => exact .number n
  | string s => exact .string s
  | array items => exact .array h.2
  | object fields => exact .object h.2.1 h.2.2

theorem keysDistinct_of_parse {text : String} {v : Value} (h : parse text = .ok v) :
    v.KeysDistinct := by
  have hread : Reader.Yields (readValue maxDepth) Value.KeysDistinct :=
    readValue_yields (N := fun _ => True) (fun _ _ _ _ => trivial)
      (fun _ _ hlayer => keysDistinct_of_layer hlayer) maxDepth
  exact parse_yields hread h

end LocaleAudit.Json
