namespace LocaleAudit

/-!
# Reading from the front

A reader takes a value from the front of a text. Its answer carries the proof that the text behind
the value is shorter, so a loop that reads on from there ends.
-/

/-- A value read from the front of a text, and the shorter text behind it. -/
structure Consumed (α : Type) (s : List Char) where
  value : α
  rest : List Char
  shorter : rest.length < s.length

/-- A value that one character spells. -/
def Consumed.behind {α : Type} {c : Char} (value : α) (s : List Char) : Consumed α (c :: s) :=
  ⟨value, s, Nat.lt_succ_self s.length⟩

/-- The same value, seen from a text that is at least as long. -/
def Consumed.widen {α : Type} {s t : List Char} (c : Consumed α s) (h : s.length ≤ t.length) :
    Consumed α t :=
  ⟨c.value, c.rest, Nat.lt_of_lt_of_le c.shorter h⟩

def Consumed.map {α β : Type} {s : List Char} (f : α → β) (c : Consumed α s) : Consumed β s :=
  ⟨f c.value, c.rest, c.shorter⟩

theorem length_dropWhile_le {α : Type} (p : α → Bool) (s : List α) :
    (s.dropWhile p).length ≤ s.length :=
  (List.dropWhile_suffix p).length_le

end LocaleAudit
