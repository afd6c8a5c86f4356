import LocaleAudit.Proofs.Json.DistinctKeys
import LocaleAudit.Proofs.Json.Numerals

namespace LocaleAudit.Json

/-!
# Values read back

A value that nests no deeper than the reader goes, and whose objects have distinct keys, is read
from its document as it was written, with each number replaced by the number that its text has.
-/

/-! ## Numbers of a value -/

mutual

def Value.mapNumbers (f : Number → Number) : Value → Value
  | .null => .null
  | .bool b => .bool b
  | .number n => .number (f n)
  | .string s => .string s
  | .array items => .array (mapItems f items)
  | .object fields => .object (mapFields f fields)
termination_by structural v => v

def mapItems (f : Number → Number) : List Value → List Value
  | [] => []
  | v :: vs => v.mapNumbers f :: mapItems f vs
termination_by structural vs => vs

def mapFields (f : Number → Number) : List (String × Value) → List (String × Value)
  | [] => []
  | (key, v) :: rest => (key, v.mapNumbers f) :: mapFields f rest
termination_by structural fields => fields

end

mutual

/-- The numbers in a value, in arrays and objects too. -/
def Value.numbers : Value → List Number
  | .null => []
  | .bool _ => []
  | .number n => [n]
  | .string _ => []
  | .array items => itemNumbers items
  | .object fields => fieldNumbers fields
termination_by structural v => v

def itemNumbers : List Value → List Number
  | [] => []
  | v :: vs => v.numbers ++ itemNumbers vs
termination_by structural vs => vs

def fieldNumbers : List (String × Value) → List Number
  | [] => []
  | (_, v) :: rest => v.numbers ++ fieldNumbers rest
termination_by structural fields => fields

end

theorem itemNumbers_eq (items : List Value) : itemNumbers items = items.flatMap Value.numbers := by
  induction items with
  | nil => rfl
  | cons v vs ih => rw [itemNumbers, ih, List.flatMap_cons]

theorem fieldNumbers_eq (fields : Fields) :
    fieldNumbers fields = fields.flatMap fun field => field.2.numbers := by
  induction fields with
  | nil => rfl
  | cons field rest ih =>
    obtain ⟨key, v⟩ := field
    rw [fieldNumbers, ih, List.flatMap_cons]

theorem mapItems_eq (f : Number → Number) (items : List Value) :
    mapItems f items = items.map (Value.mapNumbers f) := by
  induction items with
  | nil => rfl
  | cons v vs ih => rw [mapItems, ih, List.map_cons]

theorem mapFields_eq (f : Number → Number) (fields : Fields) :
    mapFields f fields = fields.map fun field => (field.1, field.2.mapNumbers f) := by
  induction fields with
  | nil => rfl
  | cons field rest ih =>
    obtain ⟨key, v⟩ := field
    rw [mapFields, ih, List.map_cons]

theorem mapFields_keys (f : Number → Number) (fields : Fields) :
    (mapFields f fields).map Prod.fst = fields.map Prod.fst := by
  rw [mapFields_eq, List.map_map]
  rfl

/-- A value with at most so many arrays and objects inside one another, whose numbers all have a
property and whose objects have distinct keys. -/
inductive Value.Within (N : Number → Prop) : Nat → Value → Prop where
  | null (depth : Nat) : Within N depth .null
  | bool (depth : Nat) (b : Bool) : Within N depth (.bool b)
  | number (depth : Nat) {n : Number} (h : N n) : Within N depth (.number n)
  | string (depth : Nat) (s : String) : Within N depth (.string s)
  | array {depth : Nat} {items : List Value} (hitems : ∀ v ∈ items, Within N depth v) :
    Within N (depth + 1) (.array items)
  | object {depth : Nat} {fields : Fields} (hkeys : (fields.map Prod.fst).Nodup)
      (hvalues : ∀ field ∈ fields, Within N depth field.2) : Within N (depth + 1) (.object fields)

theorem Value.Within.mapNumbers_id {N : Number → Prop} {depth : Nat} {v : Value}
    (h : v.Within N depth) : v.mapNumbers id = v := by
  induction h with
  | null | bool | number | string => rfl
  | array _ ih =>
    rw [Value.mapNumbers, mapItems_eq]
    rw [List.map_congr_left ih, List.map_id']
  | object _ _ ih =>
    rw [Value.mapNumbers, mapFields_eq]
    rw [List.map_congr_left fun field hfield => by rw [ih field hfield], List.map_id']

theorem Value.Within.imp {N N' : Number → Prop} {depth : Nat} {v : Value} (h : v.Within N depth)
    (hN : ∀ n ∈ v.numbers, N n → N' n) : v.Within N' depth := by
  induction h with
  | null => exact .null _
  | bool => exact .bool _ _
  | number _ hn => exact .number _ (hN _ (by simp [Value.numbers]) hn)
  | string => exact .string _ _
  | array _ ih =>
    rw [Value.numbers, itemNumbers_eq] at hN
    exact .array fun v hv => ih v hv fun n hn => hN n (List.mem_flatMap.mpr ⟨v, hv, hn⟩)
  | object hkeys _ ih =>
    rw [Value.numbers, fieldNumbers_eq] at hN
    exact .object hkeys fun field hfield => ih field hfield fun n hn =>
      hN n (List.mem_flatMap.mpr ⟨field, hfield, hn⟩)

/-! ## Blanks -/

theorem skipSpace_newLine (level : Nat) (s : List Char) :
    skipSpace (newLine level ++ s) = skipSpace s := by
  have hblank : ∀ c ∈ newLine level, isSpace c = true := by
    intro c hc
    rcases List.mem_cons.mp hc with rfl | hc
    · rfl
    · rw [List.eq_of_mem_replicate hc]
      rfl
  exact List.dropWhile_append_of_pos hblank

/-- A value does not start with a blank or with a closing bracket. -/
theorem exists_cons_of_takes {nested : Option (Reader Value)} {s rest : List Char} {v : Value}
    (h : Reader.Takes (readFrom nested) s v rest) :
    ∃ c t, s = c :: t ∧ isSpace c = false ∧ c ≠ ']' := by
  obtain ⟨hlength, hread⟩ := h
  cases s with
  | nil => simp at hlength
  | cons c t =>
    refine ⟨c, t, rfl, ?_, ?_⟩
    · rw [← Bool.not_eq_true]
      intro hspace
      have hcases : ((c = ' ' ∨ c = '\n') ∨ c = '\t') ∨ c = '\r' := by
        simpa [isSpace] using hspace
      rcases hcases with ((rfl | rfl) | rfl) | rfl <;> simp [readFrom, isDigit] at hread
    · rintro rfl
      simp [readFrom, isDigit] at hread

theorem takes_readValue {depth : Nat} {s t rest : List Char} {v : Value}
    (h : Reader.Takes (readFrom (nestedAt depth)) t v rest) (hskip : skipSpace s = skipSpace t) :
    Reader.Takes (readValue depth) s v rest := by
  obtain ⟨c, u, rfl, hspace, _⟩ := exists_cons_of_takes h
  have hstart : skipSpace (c :: u) = c :: u := by simp [skipSpace, hspace]
  rw [← hstart, ← hskip] at h
  obtain ⟨hlength, hread⟩ := h
  refine ⟨Nat.lt_of_lt_of_le hlength (length_skipSpace_le s), ?_⟩
  rw [readValue_eq, hread]
  rfl

/-! ## Elements and fields -/

section

variable {element : Reader Value} {s t u rest : List Char} {v : Value}

theorem takes_lastItem (hv : Reader.Takes element s v t) (hskip : skipSpace t = ']' :: rest) :
    Reader.Takes (readItems element) s [v] rest := by
  obtain ⟨hlength, hread⟩ := hv
  have hle := length_skipSpace_le t
  rw [hskip, List.length_cons] at hle
  refine ⟨by omega, ?_⟩
  unfold readItems
  simp only [hread]
  split <;> simp_all

theorem takes_nextItem {c : Char} {w : List Char} {vs : List Value}
    (hv : Reader.Takes element s v t) (hskip : skipSpace t = ',' :: u)
    (hnext : skipSpace u = c :: w) (hc : c ≠ ']')
    (hvs : Reader.Takes (readItems element) (c :: w) vs rest) :
    Reader.Takes (readItems element) s (v :: vs) rest := by
  obtain ⟨hlength, hread⟩ := hv
  obtain ⟨hlength', hread'⟩ := hvs
  have hle := length_skipSpace_le t
  have hle' := length_skipSpace_le u
  rw [hskip, List.length_cons] at hle
  rw [hnext] at hle'
  refine ⟨by omega, ?_⟩
  rw [readItems]
  simp only [hread]
  split <;> rename_i heq
  case h_3 =>
    rw [hskip] at heq
    cases heq
    split
    case h_1 heq' =>
      rw [hnext] at heq'
      cases heq'
    case h_2 heq' =>
      rw [hnext] at heq'
      exact absurd (List.cons.inj heq').1 hc
    case h_3 _ heq' =>
      rw [hnext] at heq'
      cases heq'
      simp only [hread']
  all_goals simp_all

theorem takes_array {c : Char} {w : List Char} {items : List Value} (hskip : skipSpace s = c :: w)
    (hc : c ≠ ']') (hitems : Reader.Takes (readItems element) (c :: w) items rest) :
    Reader.Takes (readArray element) s items rest := by
  obtain ⟨hlength, hread⟩ := hitems
  have hle := length_skipSpace_le s
  rw [hskip] at hle
  refine ⟨by omega, ?_⟩
  unfold readArray
  split
  case h_1 heq =>
    rw [hskip] at heq
    cases heq
  case h_2 heq =>
    rw [hskip] at heq
    exact absurd (List.cons.inj heq).1 hc
  case h_3 _ heq =>
    rw [hskip] at heq
    cases heq
    simp only [hread]
    rfl

theorem takes_member {key : List Char} (hkey : Reader.Takes readStringBody s key (':' :: t))
    (hv : Reader.Takes element t v rest) :
    Reader.Takes (readMember element) s (String.ofList key, v) rest := by
  obtain ⟨hlength, hread⟩ := hkey
  obtain ⟨hlength', hread'⟩ := hv
  have hcolon : skipSpace (':' :: t) = ':' :: t := by simp [skipSpace, isSpace]
  rw [List.length_cons] at hlength
  refine ⟨by omega, ?_⟩
  unfold readMember
  simp only [hread]
  split
  case h_2 heq =>
    rw [hcolon] at heq
    cases heq
    simp only [hread']
  all_goals simp_all

theorem takes_lastMember {field : String × Value}
    (hfield : Reader.Takes (readMember element) s field t) (hskip : skipSpace t = '}' :: rest) :
    Reader.Takes (readMembers element) s [field] rest := by
  obtain ⟨hlength, hread⟩ := hfield
  have hle := length_skipSpace_le t
  rw [hskip, List.length_cons] at hle
  refine ⟨by omega, ?_⟩
  unfold readMembers
  simp only [hread]
  split <;> simp_all

theorem takes_nextMember {w : List Char} {field : String × Value} {fields : Fields}
    (hfield : Reader.Takes (readMember element) s field t) (hskip : skipSpace t = ',' :: u)
    (hnext : skipSpace u = '"' :: w)
    (hfields : Reader.Takes (readMembers element) w fields rest) :
    Reader.Takes (readMembers element) s (field :: fields) rest := by
  obtain ⟨hlength, hread⟩ := hfield
  obtain ⟨hlength', hread'⟩ := hfields
  have hle := length_skipSpace_le t
  have hle' := length_skipSpace_le u
  rw [hskip, List.length_cons] at hle
  rw [hnext, List.length_cons] at hle'
  refine ⟨by omega, ?_⟩
  rw [readMembers]
  simp only [hread]
  split <;> rename_i heq
  case h_3 =>
    rw [hskip] at heq
    cases heq
    split
    case h_2 heq' =>
      rw [hnext] at heq'
      cases heq'
      simp only [hread']
    all_goals simp_all
  all_goals simp_all

theorem takes_object {w : List Char} {fields : Fields} (hskip : skipSpace s = '"' :: w)
    (hkeys : (fields.map Prod.fst).Nodup)
    (hfields : Reader.Takes (readMembers element) w fields rest) :
    Reader.Takes (readObject element) s fields rest := by
  obtain ⟨hlength, hread⟩ := hfields
  have hle := length_skipSpace_le s
  have hlist : Entries.ofList fields = fields := Entries.ofList_eq_self hkeys
  rw [hskip, List.length_cons] at hle
  refine ⟨by omega, ?_⟩
  unfold readObject
  split
  case h_3 heq =>
    rw [hskip] at heq
    cases heq
    simp only [hread, hlist]
  all_goals simp_all

theorem takes_emptyArray : Reader.Takes (readArray element) (']' :: rest) [] rest := by
  have hskip : skipSpace (']' :: rest) = ']' :: rest := rfl
  refine ⟨Nat.lt_succ_self _, ?_⟩
  unfold readArray
  split
  case h_1 heq => cases heq
  case h_2 heq =>
    rw [hskip] at heq
    cases heq
    rfl
  case h_3 hne heq =>
    rw [hskip] at heq
    exact absurd (List.cons.inj heq).1.symm hne

theorem takes_emptyObject : Reader.Takes (readObject element) ('}' :: rest) [] rest := by
  have hskip : skipSpace ('}' :: rest) = '}' :: rest := rfl
  refine ⟨Nat.lt_succ_self _, ?_⟩
  unfold readObject
  split
  case h_1 heq => cases heq
  case h_2 heq =>
    rw [hskip] at heq
    cases heq
    rfl
  case h_3 heq => cases heq
  case h_4 hne _ heq =>
    rw [hskip] at heq
    exact absurd (List.cons.inj heq).1.symm hne

theorem readFrom_array {items : List Value} (h : Reader.Takes (readArray element) s items rest) :
    Reader.Takes (readFrom (some element)) ('[' :: s) (.array items) rest := by
  obtain ⟨hlength, hread⟩ := h
  refine ⟨Nat.lt_succ_of_lt hlength, ?_⟩
  simp only [readFrom, hread]

theorem readFrom_object {fields : Fields} (h : Reader.Takes (readObject element) s fields rest) :
    Reader.Takes (readFrom (some element)) ('{' :: s) (.object fields) rest := by
  obtain ⟨hlength, hread⟩ := h
  refine ⟨Nat.lt_succ_of_lt hlength, ?_⟩
  simp only [readFrom, hread]

end

/-! ## Whole values -/

section

variable {N : Number → Prop} {f : Number → Number} (hN : ∀ n, N n → n.ReadsAs (f n))

/-- What follows an element or a field does not go on with a number. -/
theorem endsNumber_items (level : Nat) (vs : List Value) (rest : List Char) :
    EndsNumber (writePrettyItems level vs ++ rest) := by
  cases vs with
  | nil => exact endsNumber_cons.mpr (by decide)
  | cons v vs => exact endsNumber_cons.mpr (by decide)

theorem endsNumber_fields (level : Nat) (fields : Fields) (rest : List Char) :
    EndsNumber (writePrettyFields level fields ++ rest) := by
  cases fields with
  | nil => exact endsNumber_cons.mpr (by decide)
  | cons field fields => exact endsNumber_cons.mpr (by decide)

/-- A value is read at a depth as another value, at any level of the layout. -/
def Value.ReadsAt (depth : Nat) (v w : Value) : Prop :=
  ∀ level rest, EndsNumber rest →
    Reader.Takes (readFrom (nestedAt depth)) (writePretty level v ++ rest) w rest

theorem takes_items {depth : Nat} (g : Value → Value) (level : Nat) (v : Value) (vs : List Value)
    (h : ∀ w ∈ v :: vs, w.ReadsAt depth (g w)) (rest : List Char) :
    Reader.Takes (readItems (readValue depth))
      (writePretty (level + 1) v ++ (writePrettyItems level vs ++ rest))
      ((v :: vs).map g) rest := by
  induction vs generalizing v with
  | nil =>
    have hv := takes_readValue (h v (by simp) (level + 1) _ (endsNumber_items level [] rest)) rfl
    refine takes_lastItem hv ?_
    rw [writePrettyItems, List.append_assoc, skipSpace_newLine]
    rfl
  | cons w vs ih =>
    have hv := takes_readValue
      (h v (by simp) (level + 1) _ (endsNumber_items level (w :: vs) rest)) rfl
    have hw := h w (by simp) (level + 1) _ (endsNumber_items level vs rest)
    have hvs := ih w fun w' hw' => h w' (List.mem_cons_of_mem v hw')
    have hlayout : writePrettyItems level (w :: vs) ++ rest =
        ',' :: (newLine (level + 1) ++
          (writePretty (level + 1) w ++ (writePrettyItems level vs ++ rest))) := by
      simp [writePrettyItems]
    obtain ⟨c, u, hcons, hspace, hbracket⟩ := exists_cons_of_takes hw
    rw [hlayout] at hv ⊢
    rw [hcons] at hv hvs ⊢
    refine takes_nextItem hv rfl ?_ hbracket hvs
    rw [skipSpace_newLine]
    simp [skipSpace, hspace]

theorem takes_field {depth : Nat} {g : Value → Value} (level : Nat) (key : String) {v : Value}
    (h : v.ReadsAt depth (g v)) {rest : List Char} (hrest : EndsNumber rest) :
    Reader.Takes (readMember (readValue depth))
      (writeStringBody key.toList ++ (':' :: ' ' :: (writePretty (level + 1) v ++ rest)))
      (key, g v) rest := by
  have hv :
      Reader.Takes (readValue depth) (' ' :: (writePretty (level + 1) v ++ rest)) (g v) rest :=
    takes_readValue (h (level + 1) rest hrest) rfl
  have hfield := takes_member (takes_writeStringBody key.toList _) hv
  rwa [String.ofList_toList] at hfield

theorem takes_fields {depth : Nat} (g : Value → Value) (level : Nat) (key : String) (v : Value)
    (fields : Fields) (h : ∀ field ∈ (key, v) :: fields, field.2.ReadsAt depth (g field.2))
    (rest : List Char) :
    Reader.Takes (readMembers (readValue depth))
      (writeStringBody key.toList ++
        (':' :: ' ' :: (writePretty (level + 1) v ++ (writePrettyFields level fields ++ rest))))
      (((key, v) :: fields).map fun field => (field.1, g field.2)) rest := by
  induction fields generalizing key v with
  | nil =>
    have hv : v.ReadsAt depth (g v) := h (key, v) (by simp)
    refine takes_lastMember (takes_field level key hv (endsNumber_fields level [] rest)) ?_
    rw [writePrettyFields, List.append_assoc, skipSpace_newLine]
    rfl
  | cons field fields ih =>
    obtain ⟨key', w⟩ := field
    have hv : v.ReadsAt depth (g v) := h (key, v) (by simp)
    have hfield := takes_field level key hv (endsNumber_fields level ((key', w) :: fields) rest)
    have hfields := ih key' w fun field hfield => h field (List.mem_cons_of_mem (key, v) hfield)
    have hlayout : writePrettyFields level ((key', w) :: fields) ++ rest =
        ',' :: (newLine (level + 1) ++ ('"' :: (writeStringBody key'.toList ++ (':' :: ' ' ::
          (writePretty (level + 1) w ++ (writePrettyFields level fields ++ rest)))))) := by
      simp [writePrettyFields, writeString]
    rw [hlayout] at hfield ⊢
    refine takes_nextMember hfield rfl ?_ hfields
    rw [skipSpace_newLine]
    rfl

theorem takes_null (nested : Option (Reader Value)) (rest : List Char) :
    Reader.Takes (readFrom nested) (['n', 'u', 'l', 'l'] ++ rest) .null rest :=
  ⟨by simp only [List.length_append, List.length_cons]; omega, by simp [readFrom, readWord]⟩

theorem takes_bool (nested : Option (Reader Value)) (b : Bool) (level : Nat) (rest : List Char) :
    Reader.Takes (readFrom nested) (writePretty level (.bool b) ++ rest) (.bool b) rest := by
  cases b with
  | true =>
    exact ⟨by simp only [writePretty, List.length_append, List.length_cons]; omega,
      by simp [writePretty, readFrom, readWord]⟩
  | false =>
    exact ⟨by simp only [writePretty, List.length_append, List.length_cons]; omega,
      by simp [writePretty, readFrom, readWord]⟩

include hN

/-- A value within the depth is read from its layout, whatever follows. -/
theorem Value.Within.readsAt {depth : Nat} {v : Value} (h : v.Within N depth) :
    v.ReadsAt depth (v.mapNumbers f) := by
  induction h with
  | null depth => exact fun level rest _ => takes_null (nestedAt depth) rest
  | bool depth b => exact fun level rest _ => takes_bool (nestedAt depth) b level rest
  | number depth hn => exact fun _ rest hrest => hN _ hn (nestedAt depth) rest hrest
  | string depth s =>
    intro level rest _
    obtain ⟨hlength, hread⟩ := takes_writeStringBody s.toList rest
    refine ⟨Nat.lt_succ_of_lt hlength, ?_⟩
    simp only [writePretty, writeString, List.cons_append, readFrom, hread, String.ofList_toList,
      Value.mapNumbers]
  | @array depth items hitems ih =>
    intro level rest _
    rw [Value.mapNumbers, mapItems_eq]
    cases items with
    | nil => exact readFrom_array takes_emptyArray
    | cons v vs =>
      have hread := takes_items (Value.mapNumbers f) level v vs ih rest
      obtain ⟨c, t, hcons, hspace, hbracket⟩ :=
        exists_cons_of_takes (ih v (by simp) (level + 1) _ (endsNumber_items level vs rest))
      rw [writePretty, List.append_assoc, List.append_assoc, List.cons_append]
      rw [hcons] at hread ⊢
      refine readFrom_array (takes_array ?_ hbracket hread)
      rw [skipSpace_newLine]
      simp [skipSpace, hspace]
  | @object depth fields hkeys hvalues ih =>
    intro level rest _
    rw [Value.mapNumbers]
    cases fields with
    | nil => exact readFrom_object takes_emptyObject
    | cons field fields =>
      obtain ⟨key, v⟩ := field
      have hread := takes_fields (Value.mapNumbers f) level key v fields ih rest
      rw [← mapFields_eq] at hread
      have hlayout : writePretty level (.object ((key, v) :: fields)) ++ rest =
          '{' :: (newLine (level + 1) ++ ('"' :: (writeStringBody key.toList ++ (':' :: ' ' ::
            (writePretty (level + 1) v ++ (writePrettyFields level fields ++ rest)))))) := by
        simp [writePretty, writeString]
      rw [hlayout]
      refine readFrom_object (takes_object ?_ (by rwa [mapFields_keys]) hread)
      rw [skipSpace_newLine]
      rfl

/-- The document of a value spells the value; blanks behind it say nothing. -/
theorem parse_pretty_append {v : Value} (h : v.Within N maxDepth) {blanks : String}
    (hend : EndsNumber blanks.toList) (hblanks : skipSpace blanks.toList = []) :
    parse (pretty v ++ blanks) = .ok (v.mapNumbers f) := by
  have htext : (pretty v ++ blanks).toList = writePretty 0 v ++ blanks.toList := by
    rw [String.toList_append, pretty, String.toList_ofList]
  obtain ⟨hlength, hread⟩ := takes_readValue (h.readsAt hN 0 blanks.toList hend) rfl
  rw [parse, htext, readDocument, hread]
  simp only [hblanks]

theorem parse_pretty {v : Value} (h : v.Within N maxDepth) :
    parse (pretty v ++ "\n") = .ok (v.mapNumbers f) :=
  parse_pretty_append hN h (endsNumber_cons.mpr (by decide)) rfl

end

end LocaleAudit.Json
