import LocaleAudit.Config

namespace LocaleAudit.Config

/-!
# Configurations that pass their check

The check refuses a configuration at its first fault, so one that passes has none.
-/

variable {config : Config}

/-- All that a usable configuration promises. -/
structure Valid (config : Config) : Prop where
  defaultLanguage : LanguageTag.check config.defaultLanguage = .ok ()
  languages : ∀ code ∈ config.languages, LanguageTag.check code = .ok ()
  listed : config.languages = [] ∨ config.defaultLanguage ∈ config.languages
  defaultNamespace : isNamespaceName config.defaultNamespace.toList = true
  extension : dropDots config.extension.toList ≠ []
  maxItems : config.maxItems ≠ 0
  marker : ∃ m, Marker.ofTemplate config.marker = .ok m

section Stages

variable {ε α β : Type}

theorem bind_eq_ok_iff {x : Except ε α} {f : α → Except ε β} {b : β} :
    x >>= f = .ok b ↔ ∃ a, x = .ok a ∧ f a = .ok b := by
  cases x with
  | error e =>
    constructor
    · intro h
      cases h
    · rintro ⟨a, ha, _⟩
      cases ha
  | ok a =>
    constructor
    · intro h
      exact ⟨a, rfl, h⟩
    · rintro ⟨_, ha, h⟩
      cases ha
      exact h

/-- A stage that refuses lets nothing behind it happen. -/
theorem refuse_eq_ok_iff {p : Prop} [Decidable p] {e : ε} {f : Unit → Except ε β} {b : β} :
    (if p then throw e >>= f else f ()) = .ok b ↔ ¬p ∧ f () = .ok b := by
  by_cases hp : p
  · have hthrow : throw e >>= f = .error e := rfl
    simp [hp, hthrow]
  · simp [hp]

theorem forM_eq_ok_iff {f : α → Except ε Unit} {l : List α} :
    l.forM f = .ok () ↔ ∀ a ∈ l, f a = .ok () := by
  induction l with
  | nil => exact ⟨fun _ _ ha => absurd ha List.not_mem_nil, fun _ => rfl⟩
  | cons a rest ih =>
    rw [List.forall_mem_cons, ← ih, List.forM_eq_forM, List.forM_cons, bind_eq_ok_iff]
    constructor
    · rintro ⟨_, ha, hrest⟩
      exact ⟨ha, hrest⟩
    · rintro ⟨ha, hrest⟩
      exact ⟨_, ha, hrest⟩

end Stages

theorem check_eq_ok_iff : config.check = .ok () ↔ config.Valid := by
  have hlisted : ¬(!config.languages.isEmpty &&
      !config.languages.contains config.defaultLanguage) = true ↔
        config.languages = [] ∨ config.defaultLanguage ∈ config.languages := by
    by_cases hnone : config.languages = [] <;> simp [hnone]
  simp only [check, bind_eq_ok_iff, refuse_eq_ok_iff, hlisted]
  constructor
  · rintro ⟨_, hdefault, _, hcodes, hlist, hname, hextension, hitems, m, hmarker, _⟩
    exact ⟨hdefault, forM_eq_ok_iff.mp hcodes, hlist, by simpa using hname,
      by simpa using hextension, by simpa using hitems, m, hmarker⟩
  · rintro ⟨hdefault, hcodes, hlist, hname, hextension, hitems, m, hmarker⟩
    exact ⟨(), hdefault, (), forM_eq_ok_iff.mpr hcodes, hlist, by simpa using hname,
      by simpa using hextension, by simpa using hitems, m, hmarker, rfl⟩

end LocaleAudit.Config
