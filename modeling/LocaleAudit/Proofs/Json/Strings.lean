import LocaleAudit.Json.Printer
import LocaleAudit.Json.Reader

namespace LocaleAudit.Json

/-!
# Strings read back

What is written for a string reads as the string again, whatever characters it has and whatever
text stands behind it.
-/

/-- The reader takes a value from the front of a text and leaves the rest. -/
def Reader.Takes {α : Type} (reader : Reader α) (s : List Char) (value : α) (rest : List Char) :
    Prop :=
  ∃ h, reader s = .ok ⟨value, rest, h⟩

section

variable {t cs rest : List Char}

theorem takes_simpleEscape {e c : Char} (hu : e ≠ 'u') (he : simpleEscape? e = some c)
    (h : Reader.Takes readStringBody t cs rest) :
    Reader.Takes readStringBody ('\\' :: e :: t) (c :: cs) rest := by
  obtain ⟨hlength, hread⟩ := h
  refine ⟨by simp only [List.length_cons]; omega, ?_⟩
  rw [readStringBody]
  · simp only [he, hread]
  all_goals grind

theorem hexValue?_control : ∀ n < 0x20,
    hexValue? '0' '0' (hexChar (n / 16)) (hexChar (n % 16)) = some n := by
  decide

theorem takes_unicodeEscape {c : Char} (hc : c.toNat < 0x20)
    (h : Reader.Takes readStringBody t cs rest) :
    Reader.Takes readStringBody
      ('\\' :: 'u' :: '0' :: '0' :: hexChar (c.toNat / 16) :: hexChar (c.toNat % 16) :: t)
      (c :: cs) rest := by
  obtain ⟨hlength, hread⟩ := h
  have hlow : isLowSurrogate c.toNat = false := by
    simp only [isLowSurrogate, Bool.and_eq_false_imp, decide_eq_true_eq]
    omega
  have hhigh : isHighSurrogate c.toNat = false := by
    simp only [isHighSurrogate, Bool.and_eq_false_imp, decide_eq_true_eq]
    omega
  refine ⟨by simp only [List.length_cons]; omega, ?_⟩
  rw [readStringBody]
  simp only [hexValue?_control _ hc, hlow, hhigh, Bool.false_eq_true, if_false, hread,
    Char.ofNat_toNat]

theorem takes_plain {c : Char} (hquote : c ≠ '"') (hslash : c ≠ '\\') (hc : ¬c.toNat < 0x20)
    (h : Reader.Takes readStringBody t cs rest) :
    Reader.Takes readStringBody (c :: t) (c :: cs) rest := by
  obtain ⟨hlength, hread⟩ := h
  refine ⟨by simp only [List.length_cons]; omega, ?_⟩
  rw [readStringBody]
  · simp only [hc, if_false, hread]
  all_goals grind

theorem takes_escapeChar (c : Char) (h : Reader.Takes readStringBody t cs rest) :
    Reader.Takes readStringBody (escapeChar c ++ t) (c :: cs) rest := by
  unfold escapeChar
  -- Seven characters have an escape of one letter.
  iterate 7
    split
    · subst c
      exact takes_simpleEscape (by decide) rfl h
  split
  · rename_i hc
    exact takes_unicodeEscape hc h
  · rename_i hquote hslash _ _ _ _ _ hc
    exact takes_plain hquote hslash hc h

end

theorem takes_writeStringBody (cs rest : List Char) :
    Reader.Takes readStringBody (writeStringBody cs ++ rest) cs rest := by
  induction cs with
  | nil => exact ⟨Nat.lt_succ_self _, by simp [writeStringBody, readStringBody, Consumed.behind]⟩
  | cons c cs ih =>
    rw [writeStringBody, List.append_assoc]
    exact takes_escapeChar c ih

end LocaleAudit.Json
