import LocaleAudit.Proofs.Catalog.Documents
import LocaleAudit.Proofs.Json.Doubles
import LocaleAudit.Proofs.Json.RoundTrip

namespace LocaleAudit

/-!
# Documents survive saving

The document that a catalog is rendered to spells a catalog again. It is the same catalog when the
numbers are integers of 64 bits; other numbers may change in value, and nothing else does.
-/

namespace Json

theorem within_of_layer {N : Number → Prop} {depth : Nat} {v : Value}
    (h : v.Layer (depth != 0) N (Value.Within N (depth - 1))) : v.Within N depth := by
  cases v with
  | null => exact .null depth
  | bool b => exact .bool depth b
  | number n => exact .number depth h
  | string s => exact .string depth s
  | array items =>
    obtain ⟨hdepth, hitems⟩ := h
    obtain ⟨below, rfl⟩ : ∃ below, depth = below + 1 :=
      Nat.exists_eq_succ_of_ne_zero (by simpa using hdepth)
    exact .array hitems
  | object fields =>
    obtain ⟨hdepth, hkeys, hvalues⟩ := h
    obtain ⟨below, rfl⟩ : ∃ below, depth = below + 1 :=
      Nat.exists_eq_succ_of_ne_zero (by simpa using hdepth)
    exact .object hkeys hvalues

/-- What a document spells nests no deeper than the reader goes, and its numbers can be stored. -/
theorem within_of_parse {text : String} {v : Value} (h : parse text = .ok v) :
    v.Within Number.Storable maxDepth :=
  parse_yields (readValue_yields readNumber_yields (fun _ _ => within_of_layer) maxDepth) h

namespace Number

/-- An integer of 64 bits is read as an integer, but for `-0`, which is read as a double. -/
def isInteger : Number → Bool
  | .integer _ => true
  | .binary x => x == .zero true

theorem Storable.readsAs_self {n : Number} (h : n.Storable) (hn : n.isInteger = true) :
    n.ReadsAs n := by
  cases n with
  | integer n => exact readsAs_integer h
  | binary x =>
    obtain rfl : x = .zero true := by simpa [isInteger] using hn
    exact readsAs_zero rfl

end Number

/-- The digits of an integer of 64 bits are read as an integer. -/
theorem isInteger_value {n : Numeral} {rest : List Char} {m : Number}
    (hfraction : n.fraction = none) (hexponent : n.exponent = none)
    (hrange : Nat.ofDigitChars 10 n.whole 0 < if n.negative then signedLimit + 1 else unsignedLimit)
    (h : n.value rest = .ok m) : m.isInteger = true := by
  obtain ⟨negative, whole, fraction, exponent⟩ := n
  simp only at hfraction hexponent hrange
  subst hfraction hexponent
  have hlimit : Nat.ofDigitChars 10 whole 0 < unsignedLimit := by
    simp only [signedLimit, unsignedLimit] at *
    split at hrange <;> omega
  simp only [Numeral.value, absorb_eq hlimit] at h
  cases negative with
  | false =>
    cases h
    rfl
  | true =>
    simp only [if_true] at hrange
    simp only [Bool.not_true, Bool.false_eq_true, if_false] at h
    rcases Nat.eq_zero_or_pos (Nat.ofDigitChars 10 whole 0) with hzero | hpos
    · have hdouble : doubleOf true 0 0 = some (.zero true) := by
        rw [doubleOf_zero, Binary64.scale?, if_pos le_rfl]
        rfl
      simp only [hzero, Nat.lt_irrefl, false_and, if_false, Numeral.value.finish, hdouble] at h
      cases h
      rfl
    · rw [if_pos ⟨hpos, by omega⟩] at h
      cases h
      rfl

end Json

namespace Catalog

open Json (Value Number)

theorem badKeyBelow?_mapFields (f : Number → Number) (parent : String) (tree : Tree) :
    badKeyBelow? parent (Json.mapFields f tree) = badKeyBelow? parent tree := by
  induction tree using Tree.induction generalizing parent with
  | nil => rfl
  | leaf key v rest hleaf ih =>
    have hv : badKeyAt? (KeyPath.join parent key) (v.mapNumbers f) =
        badKeyAt? (KeyPath.join parent key) v := by
      cases v with
      | object fields => cases hleaf
      | _ => rfl
    rw [Json.mapFields, badKeyBelow?, badKeyBelow?, hv, ih]
  | node key child rest ihchild ih =>
    rw [Json.mapFields, Value.mapNumbers, badKeyBelow?, badKeyBelow?, badKeyAt?, badKeyAt?, ihchild,
      ih]

/-- A tree that can be written: it nests no deeper than the reader goes, its numbers have a
property, and its keys are distinct and addressable. -/
structure Writable (N : Number → Prop) (tree : Tree) : Prop where
  within : (Value.object tree).Within N Json.maxDepth
  keys : badKeyBelow? "" tree = none

theorem writable_of_parse {language nameSpace text : String} {c : Catalog}
    (h : parse language nameSpace text = .ok c) : Writable Number.Storable c.tree := by
  unfold parse at h
  split at h
  · rename_i value hvalue
    have hwithin := Json.within_of_parse hvalue
    unfold ofValue at h
    split at h
    · split at h
      · rename_i hkeys
        cases h
        exact ⟨hwithin, hkeys⟩
      · cases h
    · cases h
  · cases h

/-- The document that a tree is rendered to spells the tree, with its numbers read again. -/
theorem Writable.parse_render {N : Number → Prop} {f : Number → Number}
    (hN : ∀ n, N n → n.ReadsAs (f n)) {tree : Tree} (h : Writable N tree)
    (language nameSpace : String) :
    parse language nameSpace (render tree) = .ok ⟨language, nameSpace, Json.mapFields f tree⟩ := by
  have hvalue : Json.parse (render tree) = .ok (.object (Json.mapFields f tree)) :=
    Json.parse_pretty hN h.within
  have hkeys := (badKeyBelow?_mapFields f "" tree).trans h.keys
  rw [parse, hvalue]
  simp only [ofValue, hkeys]

/-- A catalog whose numbers are integers survives saving: its document spells the same catalog, and
rendering that one gives the same document. -/
theorem parse_render_eq_self {language nameSpace text : String} {c : Catalog}
    (h : parse language nameSpace text = .ok c)
    (hintegers : ∀ n ∈ (Value.object c.tree).numbers, n.isInteger = true) :
    parse language nameSpace (render c.tree) = .ok c ∧
      (parse language nameSpace (render c.tree)).map (fun again => (render again.tree).toUTF8) =
        .ok (render c.tree).toUTF8 := by
  obtain ⟨rfl, rfl, _⟩ := wellFormed_of_parse h
  have hwritable := writable_of_parse h
  have hwithin : (Value.object c.tree).Within (fun n => n.ReadsAs (id n)) Json.maxDepth :=
    hwritable.within.imp fun n hn hstorable => hstorable.readsAs_self (hintegers n hn)
  have hsame : Json.mapFields id c.tree = c.tree := by
    have := hwithin.mapNumbers_id
    rw [Value.mapNumbers] at this
    exact Value.object.inj this
  have hread : parse c.language c.nameSpace (render c.tree) = .ok c := by
    have := Writable.parse_render (fun _ hn => hn) ⟨hwithin, hwritable.keys⟩ c.language c.nameSpace
    rwa [hsame] at this
  exact ⟨hread, by rw [hread]; rfl⟩

/-- A document with a repeated key, an escape, containers in a list, and integers at the ends of
their range. -/
theorem parse_render_eq_self_mixed :
    ∃ c, parse "en" "app"
        "\x7b\"a\": 1, \"n\": \x7b\"list\": [[], \x7b\"x\": \x7b\x7d\x7d, -9223372036854775808, 18446744073709551615]\x7d, \"a\": \"\\u0001\\n-0\", \"z\": -0\x7d" =
          .ok c ∧
      c.tree.map Prod.fst = ["a", "n", "z"] ∧
      parse "en" "app" (render c.tree) = .ok c := by
  have hparse : parse "en" "app"
      "\x7b\"a\": 1, \"n\": \x7b\"list\": [[], \x7b\"x\": \x7b\x7d\x7d, -9223372036854775808, 18446744073709551615]\x7d, \"a\": \"\\u0001\\n-0\", \"z\": -0\x7d" =
        .ok ⟨"en", "app", [("a", .string "\x01\n-0"),
          ("n", .object [("list", .array [.array [], .object [("x", .object [])],
            .number (.integer (-9223372036854775808)),
            .number (.integer 18446744073709551615)])]),
          ("z", .number (.binary (.zero true)))]⟩ := by
    decide +kernel
  exact ⟨_, hparse, rfl, (parse_render_eq_self hparse (by decide)).1⟩

end Catalog

end LocaleAudit
