import LocaleAudit.Proofs.KeyPath.InPlace

namespace LocaleAudit

/-!
# What a set without force keeps

A value that is set without force leaves every leaf beside its path alone. No leaf stands above the
path then, and below it there are leaves only where an object takes the place of an object: what
that object brings is all that is there afterwards.
-/

open Json (Value)

namespace KeyPath

variable {value : Value} {path : String} {upper lower : List String} {tree tree' fields : Tree}

/-! ## Below an object -/

theorem getAt_append (hupper : getAt upper tree = some (.object fields)) (hlower : lower ≠ []) :
    getAt (upper ++ lower) tree = getAt lower fields := by
  induction upper generalizing tree with
  | nil => cases hupper
  | cons key upper ih =>
    cases upper with
    | nil =>
      obtain ⟨k, rest, rfl⟩ := List.exists_cons_of_ne_nil hlower
      have hget : tree.get? key = some (.object fields) := hupper
      rw [List.singleton_append, getAt_cons_cons, childAt, hget]
    | cons key' upper =>
      rw [getAt_cons_cons] at hupper
      rw [List.cons_append, List.cons_append, getAt_cons_cons]
      exact ih hupper

theorem get?_dotted (h : get? tree path = some (.object fields)) (below : String) :
    get? tree (path ++ "." ++ below) = get? fields below := by
  obtain ⟨upper, hpath, hupper⟩ := Option.bind_eq_some_iff.mp h
  rw [get?, get?, segments?_dotted hpath]
  cases hbelow : segments? below with
  | none => rfl
  | some lower => exact getAt_append hupper (ne_nil_of_segments? hbelow)

/-! ## Beside a path -/

/-- A leaf that a set without force meets is at its path, or below an object that goes for another
one. -/
theorem beside_of_set_fail (h : tree.WellFormed) (hset : set tree path value .fail = .ok tree')
    {l : String × Value} (hl : l ∈ leaves tree) (hne : l.1 ≠ path)
    (hbelow : value.isObject = true → isProperPrefix path l.1 = false) :
    comparable path l.1 = false := by
  obtain ⟨keys, hkeys, _⟩ := setAt_of_set hset
  cases hvalue : value.isObject with
  | false =>
    exact not_comparable_of_no_obstacle h hvalue hkeys (obstacle?_of_set hset)
      (List.mem_map_of_mem hl) hne.symm
  | true =>
    have habove : isProperPrefix l.1 path = false := by
      rw [Bool.eq_false_iff]
      intro habove
      obtain ⟨hget, hleaf⟩ := (mem_leaves_iff h).mp hl
      have hleads : leadsTo isLeaf tree l.1 = true := by simp [leadsTo, hget, isLeaf, hleaf]
      have hblocked : ∃ named, Blocks tree path value named :=
        (exists_blocks_iff hkeys).mpr (Or.inl ⟨l.1, habove, hleads⟩)
      obtain ⟨named, hblocks⟩ := hblocked
      rw [(set_fail_eq_error_iff hkeys).mpr ⟨named, rfl, hblocks⟩] at hset
      cases hset
    simp [comparable, hne.symm, hbelow hvalue, habove]

/-- A set without force keeps the leaves at all other paths with their values, unless an object takes
the place of an object. Then below the path there is exactly what the new object has. -/
theorem set_fail_keeps (h : tree.WellFormed) (hset : set tree path value .fail = .ok tree') :
    (∀ l ∈ leaves tree, l.1 ≠ path → (value.isObject = true → isProperPrefix path l.1 = false) →
      l ∈ leaves tree' ∧ get? tree' l.1 = some l.2) ∧
    ∀ fields, value = .object fields →
      ∀ below, get? tree' (path ++ "." ++ below) = get? fields below := by
  have hholds := holds_of_set hset
  constructor
  · intro l hl hne hbelow
    have hbeside := beside_of_set_fail h hset hl hne hbelow
    refine ⟨mem_leaves_set h hset hl hbeside, ?_⟩
    rw [hholds.beside l.1 hbeside]
    exact ((mem_leaves_iff h).mp hl).1
  · rintro fields rfl below
    exact get?_dotted hholds.found below

/-- A menu with a link in it, and a title. -/
def menuTree (link : String × Value) : Tree :=
  [("nav", .object [link]), ("title", .string "App")]

theorem menuTree_wellFormed : (menuTree ("home", .string "Home")).WellFormed where
  distinct := by
    simp [menuTree, Value.keysDistinct_cons, Value.keysDistinct_nil, Value.KeysDistinct.string]
  addressable := by
    have htext (s : String) : (Value.string s).KeysAddressable := .leaf rfl
    simp [menuTree, Value.keysAddressable_cons, Value.keysAddressable_nil, Catalog.isAddressable,
      htext]

/-- The title stays when another menu takes the place of the menu, and its link does not. -/
theorem set_fail_keeps_title :
    set (menuTree ("home", .string "Home")) "nav" (.object [backLink]) .fail =
        .ok (menuTree backLink) ∧
      ("title", .string "App") ∈ leaves (menuTree backLink) ∧
      get? (menuTree backLink) "nav.home" = none := by
  have hset : set (menuTree ("home", .string "Home")) "nav" (.object [backLink]) .fail =
      .ok (menuTree backLink) := rfl
  obtain ⟨hkept, hbelow⟩ := set_fail_keeps menuTree_wellFormed hset
  have htitle : ("title", .string "App") ∈ leaves (menuTree ("home", .string "Home")) :=
    .tail _ (.head _)
  exact ⟨hset, (hkept _ htitle (by decide) (fun _ => by decide)).1, hbelow _ rfl "home"⟩

/-- A set without force can lose a leaf that is not at its path. -/
theorem subtree_lost_of_object :
    ¬∀ (tree tree' : Tree) (path : String) (value : Value), tree.WellFormed →
      set tree path value .fail = .ok tree' →
      ∀ l ∈ leaves tree, l.1 ≠ path → l ∈ leaves tree' ∨ get? tree' l.1 = some l.2 := by
  intro hall
  have hhome : ("nav.home", .string "Home") ∈ leaves (menuTree ("home", .string "Home")) :=
    .head _
  have hlost := hall _ (menuTree backLink) "nav" (.object [backLink]) menuTree_wellFormed rfl _
    hhome (by decide)
  rcases hlost with hmem | hget
  · have hpath : "nav.home" ∈ leafPaths (menuTree backLink) := List.mem_map_of_mem hmem
    revert hpath
    decide
  · cases hget

end KeyPath

end LocaleAudit
