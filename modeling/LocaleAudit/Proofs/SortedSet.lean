import LocaleAudit.Reference
import Mathlib.Data.List.Nodup
import Mathlib.Data.Prod.Lex
import Mathlib.Data.String.Basic
import Mathlib.Data.Sum.Order

namespace LocaleAudit

/-!
# Sorted lists as sets

A sorted set has the members of the list it is made of and nothing else of that list: neither the
order in which they came nor how often. It can be compared by equality.
-/

section DropRepeats

variable {α : Type} [DecidableEq α]

theorem mem_dropRepeats {a : α} {l : List α} : a ∈ dropRepeats l ↔ a ∈ l := by
  induction l with
  | nil => rfl
  | cons b rest ih =>
    rw [List.mem_cons, ← ih, dropRepeats]
    split
    · rename_i hrest
      simp [hrest]
    · rename_i c tail hrest
      rw [hrest]
      split
      · rename_i hbc
        simp [hbc]
      · simp

theorem mem_sortedSet {le : α → α → Bool} {a : α} {l : List α} :
    a ∈ sortedSet le l ↔ a ∈ l := by
  rw [sortedSet, mem_dropRepeats, List.mem_mergeSort]

end DropRepeats

variable {α β : Type} [LinearOrder β]

section Ascending

variable {rank : α → β} {l l' : List α}

theorem nodup_of_ascending (h : l.Pairwise fun a b => rank a < rank b) : l.Nodup := by
  refine h.imp fun hab => ?_
  rintro rfl
  exact lt_irrefl _ hab

/-- Lists in ascending order are equal when they have the same members. -/
theorem eq_of_ascending (h : l.Pairwise fun a b => rank a < rank b)
    (h' : l'.Pairwise fun a b => rank a < rank b) (hmem : ∀ a, a ∈ l ↔ a ∈ l') : l = l' := by
  have hperm : l.Perm l' :=
    (List.perm_ext_iff_of_nodup (nodup_of_ascending h) (nodup_of_ascending h')).mpr hmem
  exact hperm.eq_of_pairwise (fun _ _ _ _ hab hba => absurd hba (lt_asymm hab)) h h'

end Ascending

/-- Members are compared by their ranks, and different members have different ranks. -/
structure Ranked (le : α → α → Bool) (rank : α → β) : Prop where
  injective : Function.Injective rank
  le_iff : ∀ a b, le a b = true ↔ rank a ≤ rank b

namespace Ranked

variable {le : α → α → Bool} {rank : α → β} {l l' : List α}

theorem pairwise_mergeSort (h : Ranked le rank) (l : List α) :
    (l.mergeSort le).Pairwise fun a b => rank a ≤ rank b := by
  have hsorted : (l.mergeSort le).Pairwise fun a b => le a b = true := by
    apply List.pairwise_mergeSort
    · intro a b c hab hbc
      rw [h.le_iff] at hab hbc ⊢
      exact le_trans hab hbc
    · intro a b
      rw [Bool.or_eq_true, h.le_iff, h.le_iff]
      exact le_total (rank a) (rank b)
  exact hsorted.imp fun hab => (h.le_iff _ _).mp hab

/-- Sorted lists are equal when they have the same members as often. -/
theorem mergeSort_eq_of_perm (h : Ranked le rank) (hperm : l.Perm l') :
    l.mergeSort le = l'.mergeSort le := by
  have hsorted : (l.mergeSort le).Perm (l'.mergeSort le) :=
    (List.mergeSort_perm l le).trans (hperm.trans (List.mergeSort_perm l' le).symm)
  apply hsorted.eq_of_pairwise _ (h.pairwise_mergeSort l) (h.pairwise_mergeSort l')
  intro a b _ _ hab hba
  exact h.injective (le_antisymm hab hba)

variable [DecidableEq α]

/-- In a sorted list equal members stand together, so none is left twice. -/
theorem pairwise_dropRepeats (h : Ranked le rank)
    (hl : l.Pairwise fun a b => rank a ≤ rank b) :
    (dropRepeats l).Pairwise fun a b => rank a < rank b := by
  induction l with
  | nil => exact List.Pairwise.nil
  | cons a rest ih =>
    obtain ⟨hfirst, hrest⟩ := List.pairwise_cons.mp hl
    have hsorted := ih hrest
    rw [dropRepeats]
    split
    · exact List.pairwise_singleton _ a
    · rename_i b tail hdrop
      rw [hdrop] at hsorted
      split
      · exact hsorted
      · rename_i hne
        have hb : b ∈ rest := mem_dropRepeats.mp (hdrop ▸ List.mem_cons_self)
        have hab : rank a < rank b :=
          lt_of_le_of_ne (hfirst b hb) fun heq => hne (h.injective heq)
        refine List.pairwise_cons.mpr ⟨fun c hc => ?_, hsorted⟩
        rcases List.mem_cons.mp hc with rfl | hc
        · exact hab
        · exact lt_trans hab ((List.pairwise_cons.mp hsorted).1 c hc)

theorem pairwise_sortedSet (h : Ranked le rank) (l : List α) :
    (sortedSet le l).Pairwise fun a b => rank a < rank b :=
  h.pairwise_dropRepeats (h.pairwise_mergeSort l)

/-- Two sorted sets are equal when they have the same members. -/
theorem sortedSet_eq_iff (h : Ranked le rank) :
    sortedSet le l = sortedSet le l' ↔ ∀ a, a ∈ l ↔ a ∈ l' := by
  constructor
  · intro heq a
    calc
      a ∈ l ↔ a ∈ sortedSet le l := mem_sortedSet.symm
      _ ↔ a ∈ sortedSet le l' := by rw [heq]
      _ ↔ a ∈ l' := mem_sortedSet
  · intro hmem
    apply eq_of_ascending (h.pairwise_sortedSet l) (h.pairwise_sortedSet l')
    intro a
    rw [mem_sortedSet, mem_sortedSet, hmem]

end Ranked

/-! ## Keys in order -/

/-- Keys come by namespace and then by path. -/
def ResolvedKey.rank (k : ResolvedKey) : String ×ₗ String :=
  toLex (k.nameSpace, k.path)

theorem ResolvedKey.ranked : Ranked ResolvedKey.le ResolvedKey.rank where
  injective := by
    rintro ⟨nameSpace, path⟩ ⟨nameSpace', path'⟩ h
    obtain ⟨rfl, rfl⟩ := Prod.mk.inj (toLex.injective h)
    rfl
  le_iff a b := by
    rw [rank, rank, Prod.Lex.toLex_le_toLex]
    simp [le]

/-- Qualified references come first. -/
def KeyRef.rank : KeyRef → (String ×ₗ String) ⊕ₗ String
  | .qualified nameSpace path => toLex (.inl (toLex (nameSpace, path)))
  | .unqualified path => toLex (.inr path)

theorem KeyRef.ranked : Ranked KeyRef.le KeyRef.rank where
  injective a b h := by
    cases a <;> cases b <;> simp_all [rank]
  le_iff a b := by
    cases a <;> cases b <;> simp [rank, le, Prod.Lex.toLex_le_toLex]

end LocaleAudit
