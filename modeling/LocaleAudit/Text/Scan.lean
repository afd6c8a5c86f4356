namespace LocaleAudit

/-!
# Scanning a text with a recogniser

A recogniser looks at the text from one place on, knows the character before that place, and
answers with a value and the number of characters it took. `scan` collects the values of all
matches from left to right; matches do not overlap.
-/

abbrev Recogniser (α : Type) := Option Char → List Char → Option (α × Nat)

/-- Scans on behind the next `skip` characters, which belong to the last match. -/
def scanFrom {α : Type} (recognise : Recogniser α) : Option Char → Nat → List Char → List α
  | _, _, [] => []
  | _, skip + 1, c :: cs => scanFrom recognise (some c) skip cs
  | before, 0, c :: cs =>
    match recognise before (c :: cs) with
    | some (a, n) => a :: scanFrom recognise (some c) (n - 1) cs
    | none => scanFrom recognise (some c) 0 cs

def scan {α : Type} (recognise : Recogniser α) (s : List Char) : List α :=
  scanFrom recognise none 0 s

def occurs {α : Type} (recognise : Recogniser α) (s : List Char) : Bool :=
  !(scan recognise s).isEmpty

@[simp] theorem scanFrom_nil {α : Type} (recognise : Recogniser α) (before : Option Char)
    (skip : Nat) : scanFrom recognise before skip [] = [] := by
  cases skip <;> rfl

@[simp] theorem scanFrom_skip {α : Type} (recognise : Recogniser α) (before : Option Char)
    (skip : Nat) (c : Char) (cs : List Char) :
    scanFrom recognise before (skip + 1) (c :: cs) = scanFrom recognise (some c) skip cs := rfl

theorem scanFrom_match {α : Type} {recognise : Recogniser α} {before : Option Char} {c : Char}
    {cs : List Char} {a : α} {n : Nat} (h : recognise before (c :: cs) = some (a, n)) :
    scanFrom recognise before 0 (c :: cs) = a :: scanFrom recognise (some c) (n - 1) cs := by
  simp [scanFrom, h]

theorem scanFrom_miss {α : Type} {recognise : Recogniser α} {before : Option Char} {c : Char}
    {cs : List Char} (h : recognise before (c :: cs) = none) :
    scanFrom recognise before 0 (c :: cs) = scanFrom recognise (some c) 0 cs := by
  simp [scanFrom, h]

end LocaleAudit
