import LocaleAudit.Text.UpperCase

namespace LocaleAudit

/-!
# Characters without case

Upper case never makes a brace or an angle bracket of another character.
-/

/-- An ASCII character that no other character has in its upper case. -/
structure Caseless (d : Char) : Prop where
  positive : 0 < d.toNat
  ascii : d.toNat < 128
  not_upper : ¬(65 ≤ d.toNat ∧ d.toNat ≤ 90)
  no_run : (upperRuns.all fun (first, last, _, image) =>
    d.toNat < image || image + (last - first) < d.toNat) = true
  no_expansion : (upperExpansions.all fun expansion => !expansion.2.contains d.toNat) = true

theorem caseless_brace : Caseless '{' where
  positive := by decide
  ascii := by decide
  not_upper := by decide
  no_run := by decide
  no_expansion := by decide

theorem caseless_angle : Caseless '<' where
  positive := by decide
  ascii := by decide
  not_upper := by decide
  no_run := by decide
  no_expansion := by decide

theorem upperImage_ne {n code : Nat} (h : n ≠ code) {runs : List (Nat × Nat × Nat × Nat)}
    (hruns : (runs.all fun (first, last, _, image) =>
      code < image || image + (last - first) < code) = true) :
    upperImage n runs ≠ code := by
  induction runs with
  | nil => exact h
  | cons run rest ih =>
    obtain ⟨first, last, step, image⟩ := run
    simp only [List.all_cons, Bool.and_eq_true, Bool.or_eq_true, decide_eq_true_eq] at hruns
    obtain ⟨hrun, hrest⟩ := hruns
    rw [upperImage]
    split
    · exact h
    · split
      · rename_i hlast
        simp only [Bool.and_eq_true, decide_eq_true_eq] at hlast
        have hle : n ≤ last := hlast.1
        omega
      · exact ih hrest

theorem toNat_eq_of_ofNat {n : Nat} {d : Char} (hd : d.toNat ≠ 0) (h : Char.ofNat n = d) :
    n = d.toNat := by
  subst h
  by_cases hn : n.isValidChar
  · rw [Char.ofNat, dif_pos hn]
    rfl
  · rw [Char.ofNat, dif_neg hn] at hd
    exact absurd rfl hd

theorem le_toNat_iff {c d : Char} : c ≤ d ↔ c.toNat ≤ d.toNat :=
  Iff.rfl

theorem Caseless.eq_of_mem_upperChar {c d : Char} (h : Caseless d) (hmem : d ∈ upperChar c) :
    d = c := by
  have hpositive : d.toNat ≠ 0 := Nat.ne_of_gt h.positive
  rw [upperChar] at hmem
  split at hmem
  · split at hmem
    · rename_i hlower
      simp only [Bool.and_eq_true, decide_eq_true_eq, le_toNat_iff] at hlower
      have hcode := toNat_eq_of_ofNat hpositive (List.mem_singleton.mp hmem).symm
      have hupper : 65 ≤ d.toNat ∧ d.toNat ≤ 90 := by
        have hfirst : 97 ≤ c.toNat := hlower.1
        have hlast : c.toNat ≤ 122 := hlower.2
        omega
      exact absurd hupper h.not_upper
    · exact List.mem_singleton.mp hmem
  · rename_i hascii
    split at hmem
    · rename_i codes hlookup
      obtain ⟨code, hcode, hd⟩ := List.mem_map.mp hmem
      rw [toNat_eq_of_ofNat hpositive hd] at hcode
      obtain ⟨before, after, hsplit, _⟩ := List.lookup_eq_some_iff.mp hlookup
      have hexpansion : (c.toNat, codes) ∈ upperExpansions := by
        rw [hsplit]
        exact List.mem_append_right _ List.mem_cons_self
      have hnot := List.all_eq_true.mp h.no_expansion _ hexpansion
      simp [hcode] at hnot
    · have hne : c.toNat ≠ d.toNat := by
        have hsmall := h.ascii
        omega
      have himage := toNat_eq_of_ofNat hpositive (List.mem_singleton.mp hmem).symm
      exact absurd himage (upperImage_ne hne h.no_run)

end LocaleAudit
