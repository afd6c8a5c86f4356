import LocaleAudit.Proofs.Markup.Tags

namespace LocaleAudit.Markup

/-!
# Nested tags

The check accepts a text exactly when its tags are those of nested elements. What it reports of any
other text is the first fault: a closing tag with nothing to close, a closing tag of another name
than the innermost open element, or, behind all tags, the innermost element that is still open.
-/

/-! ## Tags that count -/

/-- The tags that count among written ones. Elements without content are left out, whether they open
or close, and so are opening tags that close themselves. -/
inductive Counted : List WrittenTag → List Tag → Prop
  | nil : Counted [] []
  | void {t : WrittenTag} {written : List WrittenTag} {tags : List Tag}
      (hvoid : String.ofList t.name ∈ ["br", "hr", "img", "input"]) (h : Counted written tags) :
      Counted (t :: written) tags
  | closesItself {t : WrittenTag} {written : List WrittenTag} {tags : List Tag}
      (hopens : t.closes = false) (hslash : t.closesItself = true) (h : Counted written tags) :
      Counted (t :: written) tags
  | opening {t : WrittenTag} {written : List WrittenTag} {tags : List Tag}
      (hcontent : String.ofList t.name ∉ ["br", "hr", "img", "input"])
      (hopens : t.closes = false) (hslash : t.closesItself = false) (h : Counted written tags) :
      Counted (t :: written) (.opening (String.ofList t.name) :: tags)
  | closing {t : WrittenTag} {written : List WrittenTag} {tags : List Tag}
      (hcontent : String.ofList t.name ∉ ["br", "hr", "img", "input"])
      (hcloses : t.closes = true) (h : Counted written tags) :
      Counted (t :: written) (.closing (String.ofList t.name) :: tags)

namespace WrittenTag

variable {t : WrittenTag}

theorem meaning_void (h : String.ofList t.name ∈ voidElements) : t.meaning = none := by
  simp [meaning, h]

theorem meaning_closesItself (hopens : t.closes = false) (hslash : t.closesItself = true) :
    t.meaning = none := by
  simp [meaning, hopens, hslash]

theorem meaning_opening (hcontent : String.ofList t.name ∉ voidElements)
    (hopens : t.closes = false) (hslash : t.closesItself = false) :
    t.meaning = some (.opening (String.ofList t.name)) := by
  simp [meaning, hcontent, hopens, hslash]

theorem meaning_closing (hcontent : String.ofList t.name ∉ voidElements)
    (hcloses : t.closes = true) : t.meaning = some (.closing (String.ofList t.name)) := by
  simp [meaning, hcontent, hcloses]

end WrittenTag

theorem Counted.eq_filterMap {written : List WrittenTag} {tags : List Tag}
    (h : Counted written tags) : tags = written.filterMap WrittenTag.meaning := by
  induction h with
  | nil => rfl
  | void hvoid _ ih => rw [List.filterMap_cons_none (WrittenTag.meaning_void hvoid), ih]
  | closesItself hopens hslash _ ih =>
    rw [List.filterMap_cons_none (WrittenTag.meaning_closesItself hopens hslash), ih]
  | opening hcontent hopens hslash _ ih =>
    rw [List.filterMap_cons_some (WrittenTag.meaning_opening hcontent hopens hslash), ih]
  | closing hcontent hcloses _ ih =>
    rw [List.filterMap_cons_some (WrittenTag.meaning_closing hcontent hcloses), ih]

theorem counted_filterMap (written : List WrittenTag) :
    Counted written (written.filterMap WrittenTag.meaning) := by
  induction written with
  | nil => exact .nil
  | cons t written ih =>
    by_cases hvoid : String.ofList t.name ∈ voidElements
    · rw [List.filterMap_cons_none (WrittenTag.meaning_void hvoid)]
      exact .void hvoid ih
    cases hcloses : t.closes with
    | true =>
      rw [List.filterMap_cons_some (WrittenTag.meaning_closing hvoid hcloses)]
      exact .closing hvoid hcloses ih
    | false =>
      cases hslash : t.closesItself with
      | true =>
        rw [List.filterMap_cons_none (WrittenTag.meaning_closesItself hcloses hslash)]
        exact .closesItself hcloses hslash ih
      | false =>
        rw [List.filterMap_cons_some (WrittenTag.meaning_opening hvoid hcloses hslash)]
        exact .opening hvoid hcloses hslash ih

/-! ## Nesting -/

/-- The tags of elements side by side, each with such tags inside. -/
inductive WellNested : List Tag → Prop
  | nil : WellNested []
  | element (name : String) {inside rest : List Tag} (hinside : WellNested inside)
      (hrest : WellNested rest) :
      WellNested (.opening name :: (inside ++ .closing name :: rest))

/-- Tags behind which elements are open, the innermost first, while all others have nested. -/
inductive LeavesOpen : List Tag → List String → Prop
  | nested {tags : List Tag} (h : WellNested tags) : LeavesOpen tags []
  | within {outside inside : List Tag} {opened : List String} (name : String)
      (houtside : LeavesOpen outside opened) (hinside : WellNested inside) :
      LeavesOpen (outside ++ .opening name :: inside) (name :: opened)

/-- The first fault in tags that do not nest. -/
inductive FirstFault : List Tag → Fault → Prop
  | unexpectedClose {before : List Tag} (name : String) (rest : List Tag)
      (h : WellNested before) :
      FirstFault (before ++ .closing name :: rest) (.unexpectedClose name)
  | mismatched {before : List Tag} {expected found : String} {opened : List String}
      (rest : List Tag) (h : LeavesOpen before (expected :: opened)) (hne : expected ≠ found) :
      FirstFault (before ++ .closing found :: rest) (.mismatched expected found)
  | unclosed {tags : List Tag} {name : String} {opened : List String}
      (h : LeavesOpen tags (name :: opened)) : FirstFault tags (.unclosed name)

variable {tags before : List Tag} {opened : List String} {fault : Fault}

theorem WellNested.append {rest : List Tag} (h : WellNested tags) (hrest : WellNested rest) :
    WellNested (tags ++ rest) := by
  induction h with
  | nil => exact hrest
  | element name hinside _ _ ih =>
    rw [List.cons_append, List.append_assoc, List.cons_append]
    exact .element name hinside ih

/-! ## What the check makes of such tags -/

theorem WellNested.checkFrom_append (h : WellNested tags) (opened : List String)
    (rest : List Tag) : checkFrom opened (tags ++ rest) = checkFrom opened rest := by
  induction h generalizing opened rest with
  | nil => rfl
  | element name _ _ ihinside ihrest =>
    rw [List.cons_append, List.append_assoc, List.cons_append, checkFrom, ihinside, checkFrom,
      if_pos rfl, ihrest]

theorem LeavesOpen.checkFrom_append (h : LeavesOpen tags opened) (rest : List Tag) :
    checkFrom [] (tags ++ rest) = checkFrom opened rest := by
  induction h generalizing rest with
  | nested hnested => exact hnested.checkFrom_append [] rest
  | within name _ hinside ih =>
    rw [List.append_assoc, List.cons_append, ih, checkFrom, hinside.checkFrom_append]

theorem WellNested.checkFrom_eq_ok (h : WellNested tags) : checkFrom [] tags = .ok () := by
  have hall := h.checkFrom_append [] []
  rwa [List.append_nil] at hall

theorem FirstFault.checkFrom_eq_error (h : FirstFault tags fault) :
    checkFrom [] tags = .error fault := by
  cases h with
  | unexpectedClose name rest hbefore => rw [hbefore.checkFrom_append, checkFrom]
  | mismatched rest hbefore hne => rw [hbefore.checkFrom_append, checkFrom, if_neg hne]
  | unclosed hopen =>
    have hall := hopen.checkFrom_append []
    rwa [List.append_nil] at hall

/-! ## There is no third case -/

theorem LeavesOpen.append_nested (h : LeavesOpen before opened) {inside : List Tag}
    (hinside : WellNested inside) : LeavesOpen (before ++ inside) opened := by
  cases h with
  | nested hbefore => exact .nested (hbefore.append hinside)
  | within name houtside hbefore =>
    rw [List.append_assoc, List.cons_append]
    exact .within name houtside (hbefore.append hinside)

theorem LeavesOpen.opening (h : LeavesOpen before opened) (name : String) :
    LeavesOpen (before ++ [.opening name]) (name :: opened) :=
  .within name h .nil

theorem LeavesOpen.closing {name : String} (h : LeavesOpen before (name :: opened)) :
    LeavesOpen (before ++ [.closing name]) opened := by
  cases h with
  | within _ houtside hinside =>
    rw [List.append_assoc, List.cons_append]
    exact houtside.append_nested (.element name hinside .nil)

theorem LeavesOpen.nests_or_fails (h : LeavesOpen before opened) (rest : List Tag) :
    WellNested (before ++ rest) ∨ ∃ fault, FirstFault (before ++ rest) fault := by
  -- Each tag that is no fault moves over to the tags before, so the induction is on the rest.
  induction rest generalizing before opened with
  | nil =>
    rw [List.append_nil]
    cases opened with
    | nil =>
      cases h with
      | nested hnested => exact Or.inl hnested
    | cons name opened => exact Or.inr ⟨_, .unclosed h⟩
  | cons tag rest ih =>
    rw [List.append_cons]
    cases tag with
    | opening name => exact ih (h.opening name)
    | closing name =>
      rw [← List.append_cons]
      cases opened with
      | nil =>
        cases h with
        | nested hnested => exact Or.inr ⟨_, .unexpectedClose name rest hnested⟩
      | cons expected opened =>
        by_cases hname : expected = name
        · subst hname
          rw [List.append_cons]
          exact ih h.closing
        · exact Or.inr ⟨_, .mismatched rest h hname⟩

theorem nests_or_fails (tags : List Tag) : WellNested tags ∨ ∃ fault, FirstFault tags fault :=
  LeavesOpen.nests_or_fails (.nested .nil) tags

theorem checkFrom_eq_ok_iff : checkFrom [] tags = .ok () ↔ WellNested tags := by
  constructor
  · intro hok
    rcases nests_or_fails tags with hnested | ⟨fault, hfault⟩
    · exact hnested
    · rw [hfault.checkFrom_eq_error] at hok
      cases hok
  · exact WellNested.checkFrom_eq_ok

theorem checkFrom_eq_error_iff : checkFrom [] tags = .error fault ↔ FirstFault tags fault := by
  constructor
  · intro herror
    rcases nests_or_fails tags with hnested | ⟨found, hfound⟩
    · rw [hnested.checkFrom_eq_ok] at herror
      cases herror
    · rw [hfound.checkFrom_eq_error] at herror
      cases herror
      exact hfound
  · exact FirstFault.checkFrom_eq_error

/-- A text has one reading as tags from left to right, and some of these tags count. The check
accepts it when they nest, and reports the first fault of any other. -/
theorem check_nesting (text : String) :
    ∃ (written : List WrittenTag) (tags : List Tag),
      (∀ found, LeftToRight WrittenTag.Spelled text.toList found ↔ found = written) ∧
      (∀ counted, Counted written counted ↔ counted = tags) ∧
      (check text = .ok () ↔ WellNested tags) ∧
      ∀ fault, check text = .error fault ↔ FirstFault tags fault := by
  refine ⟨scan recognise text.toList, Markup.tags text,
    fun found => recognise_knows.leftToRight_iff, fun counted => ⟨Counted.eq_filterMap, ?_⟩,
    checkFrom_eq_ok_iff, fun fault => checkFrom_eq_error_iff⟩
  rintro rfl
  exact counted_filterMap _

/-- The slash of an attribute without quotes closes the tag. -/
example : check "<b><a href=x/></b><br>" = .ok () := by rfl

end LocaleAudit.Markup
