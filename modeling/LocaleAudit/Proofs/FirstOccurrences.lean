import Mathlib.Data.List.Basic
import Mathlib.Data.List.Induction

namespace LocaleAudit

/-!
# First occurrences

What a list says without its repetitions: its members, each once, in the order in which they first
come up. Reading the list from the left, a member that was there changes nothing and a new one goes
to the end.
-/

/-- The members of a list, each once, in the order of their first occurrences. -/
structure FirstOccurrences {α : Type} [BEq α] (l distinct : List α) : Prop where
  mem_iff : ∀ a, a ∈ distinct ↔ a ∈ l
  ordered : distinct.Pairwise (l.idxOf · < l.idxOf ·)

namespace FirstOccurrences

variable {α : Type} [BEq α] {l distinct : List α} {a : α}

theorem nodup (h : FirstOccurrences l distinct) : distinct.Nodup := by
  refine h.ordered.imp fun {x y} hlt => ?_
  rintro rfl
  exact Nat.lt_irrefl _ hlt

theorem nil : FirstOccurrences ([] : List α) [] :=
  ⟨fun _ => Iff.rfl, List.Pairwise.nil⟩

variable [LawfulBEq α]

theorem ordered_append (h : FirstOccurrences l distinct) (a : α) :
    distinct.Pairwise ((l ++ [a]).idxOf · < (l ++ [a]).idxOf ·) := by
  refine h.ordered.imp_of_mem fun {x y} hx hy hlt => ?_
  rwa [List.idxOf_append_of_mem ((h.mem_iff x).mp hx),
    List.idxOf_append_of_mem ((h.mem_iff y).mp hy)]

theorem snoc_of_mem (h : FirstOccurrences l distinct) (ha : a ∈ l) :
    FirstOccurrences (l ++ [a]) distinct where
  mem_iff := fun b => by
    rw [h.mem_iff, List.mem_append, List.mem_singleton]
    constructor
    · exact Or.inl
    · rintro (hb | rfl)
      · exact hb
      · exact ha
  ordered := h.ordered_append a

theorem snoc_of_not_mem (h : FirstOccurrences l distinct) (ha : a ∉ l) :
    FirstOccurrences (l ++ [a]) (distinct ++ [a]) where
  mem_iff := fun b => by rw [List.mem_append, List.mem_append, h.mem_iff]
  ordered := by
    rw [List.pairwise_append]
    refine ⟨h.ordered_append a, List.pairwise_singleton _ _, fun x hx y hy => ?_⟩
    have hxl : x ∈ l := (h.mem_iff x).mp hx
    rw [List.mem_singleton.mp hy, List.idxOf_append_of_mem hxl, List.idxOf_append_of_notMem ha]
    have hlt : l.idxOf x < l.length := List.idxOf_lt_length_of_mem hxl
    omega

theorem eraseDups (l : List α) : FirstOccurrences l l.eraseDups := by
  induction l using List.reverseRecOn with
  | nil => exact nil
  | append_singleton l a ih =>
    rw [List.eraseDups_append]
    by_cases ha : a ∈ l
    · have hnone : [a].removeAll l = [] := by simp [List.removeAll, ha]
      rw [hnone]
      simpa using ih.snoc_of_mem ha
    · have hnew : [a].removeAll l = [a] := by simp [List.removeAll, ha]
      have hsingle : [a].eraseDups = [a] := by simp [List.eraseDups_cons]
      rw [hnew, hsingle]
      exact ih.snoc_of_not_mem ha

theorem eraseDups_of_nodup (h : l.Nodup) : l.eraseDups = l := by
  induction l with
  | nil => rfl
  | cons a l ih =>
    obtain ⟨ha, hl⟩ := List.nodup_cons.mp h
    have hkept : l.filter (fun b => !b == a) = l := by
      refine List.filter_eq_self.mpr fun b hb => ?_
      have hne : b ≠ a := fun heq => ha (heq ▸ hb)
      simpa using hne
    rw [List.eraseDups_cons, hkept, ih hl]

/-- What is added to a list without repetitions of its own adds what was not there. -/
theorem eraseDups_append_of_nodup {added : List α} (h : added.Nodup) :
    (l ++ added).eraseDups = l.eraseDups ++ added.filter (!l.eraseDups.elem ·) := by
  have hremoved : added.removeAll l = added.filter (!l.eraseDups.elem ·) := by
    refine List.filter_congr fun a _ => ?_
    simp
  rw [List.eraseDups_append, hremoved, eraseDups_of_nodup (h.filter _)]

/-- Leaving members out leaves the order of the others. -/
theorem idxOf_filter_lt {p : α → Bool} {x y : α} (hx : p x = true) (hy : p y = true)
    (hlt : l.idxOf x < l.idxOf y) : (l.filter p).idxOf x < (l.filter p).idxOf y := by
  induction l with
  | nil => simp at hlt
  | cons b l ih =>
    have hyb : b ≠ y := by
      rintro rfl
      simp at hlt
    rw [List.idxOf_cons_ne _ hyb] at hlt
    by_cases hxb : b = x
    · subst hxb
      rw [List.filter_cons_of_pos hx, List.idxOf_cons_self, List.idxOf_cons_ne _ hyb]
      exact Nat.succ_pos _
    · rw [List.idxOf_cons_ne _ hxb] at hlt
      have hrest := ih (Nat.lt_of_succ_lt_succ hlt)
      by_cases hb : p b = true
      · rw [List.filter_cons_of_pos hb, List.idxOf_cons_ne _ hxb, List.idxOf_cons_ne _ hyb]
        exact Nat.succ_lt_succ hrest
      · rwa [List.filter_cons_of_neg hb]

theorem filter (h : FirstOccurrences l distinct) (p : α → Bool) :
    FirstOccurrences (l.filter p) (distinct.filter p) where
  mem_iff := fun a => by rw [List.mem_filter, List.mem_filter, h.mem_iff]
  ordered := by
    refine (h.ordered.filter p).imp_of_mem fun hx hy hlt => ?_
    exact idxOf_filter_lt (List.mem_filter.mp hx).2 (List.mem_filter.mp hy).2 hlt

end FirstOccurrences

end LocaleAudit
