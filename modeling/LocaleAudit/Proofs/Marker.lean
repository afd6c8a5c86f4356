import LocaleAudit.Marker
import LocaleAudit.Proofs.Text.Scanning
import LocaleAudit.Proofs.Text.UpperCase

namespace LocaleAudit

/-!
# Plain markers

A marker that renders without braces and angle brackets leaves the variables and the tags of the
text behind it as they are.
-/

theorem Caseless.not_mem_upperCase {d : Char} (h : Caseless d) {s : String} (hs : d ∉ s.toList) :
    d ∉ (upperCase s).toList := by
  intro hmem
  rw [upperCase, String.toList_ofList] at hmem
  obtain ⟨c, hc, hd⟩ := List.mem_flatMap.mp hmem
  exact hs (h.eq_of_mem_upperChar hd ▸ hc)

namespace Marker

/-- The rendering has neither an opening brace nor an opening angle bracket. -/
structure IsPlain (m : Marker) (source target : String) : Prop where
  no_brace : '{' ∉ (m.render source target).toList
  no_angle : '<' ∉ (m.render source target).toList

theorem render_default {source : String} (h : '{' ∉ source.toList) (target : String) :
    (default.render source target).toList = '[' :: ((upperCase source).toList ++ [']', ' ']) := by
  have hsource : replaceAll sourcePlace (upperCase source).toList default.template.toList =
      '[' :: ((upperCase source).toList ++ [']', ' ']) := by
    rfl
  rw [render, hsource, String.toList_ofList]
  refine replaceAll_of_not_mem ?_ _ _
  have hupper := caseless_brace.not_mem_upperCase h
  simp [hupper]

theorem isPlain_default {source : String} (hbrace : '{' ∉ source.toList)
    (hangle : '<' ∉ source.toList) (target : String) : default.IsPlain source target := by
  constructor
  · have hupper := caseless_brace.not_mem_upperCase hbrace
    simp [render_default hbrace, hupper]
  · have hupper := caseless_angle.not_mem_upperCase hangle
    simp [render_default hbrace, hupper]

theorem marks_apply (m : Marker) (text source target : String) :
    m.marks (m.apply text source target) source target = true := by
  rw [marks, apply, String.toList_append, startsWith, stripStart?_append]
  rfl

variable {m : Marker} {source target : String}

theorem IsPlain.variableNames_apply (h : m.IsPlain source target) (text : String) :
    Interpolation.variableNames (m.apply text source target) = Interpolation.variableNames text :=
  Interpolation.variableNames_append h.no_brace text

theorem IsPlain.check_apply (h : m.IsPlain source target) (text : String) :
    Markup.check (m.apply text source target) = Markup.check text :=
  Markup.check_append h.no_angle text

end Marker

end LocaleAudit
