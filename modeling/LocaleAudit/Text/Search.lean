namespace LocaleAudit

/-!
# Searching in text

Pieces between separators, text behind a given beginning, and replacement of every occurrence from
left to right.
-/

/-- The pieces of a text between the separators; there is always one more piece than separators. -/
def splitOnChar (separator : Char) : List Char → List (List Char)
  | [] => [[]]
  | c :: cs =>
    if c = separator then [] :: splitOnChar separator cs
    else
      match splitOnChar separator cs with
      | [] => [[c]]
      | piece :: pieces => (c :: piece) :: pieces

theorem splitOnChar_ne_nil (separator : Char) (s : List Char) : splitOnChar separator s ≠ [] := by
  cases s with
  | nil => simp [splitOnChar]
  | cons c cs =>
    simp only [splitOnChar]
    split
    · simp
    · split <;> simp

theorem splitOnChar_cons_same (separator : Char) (cs : List Char) :
    splitOnChar separator (separator :: cs) = [] :: splitOnChar separator cs := by
  simp [splitOnChar]

/-- The text behind a given beginning. -/
def stripStart? : List Char → List Char → Option (List Char)
  | [], s => some s
  | _ :: _, [] => none
  | p :: ps, c :: cs => if p = c then stripStart? ps cs else none

theorem stripStart?_append (p s : List Char) : stripStart? p (p ++ s) = some s := by
  induction p with
  | nil => rfl
  | cons c cs ih => simpa [stripStart?] using ih

theorem eq_append_of_stripStart? {p s rest : List Char} (h : stripStart? p s = some rest) :
    s = p ++ rest := by
  induction p generalizing s with
  | nil => simpa [stripStart?] using h
  | cons c cs ih =>
    cases s with
    | nil => simp [stripStart?] at h
    | cons d ds =>
      simp only [stripStart?] at h
      split at h
      case isTrue hcd => rw [hcd, ih h, List.cons_append]
      case isFalse => simp at h

def startsWith (p s : List Char) : Bool :=
  (stripStart? p s).isSome

def containsText (needle : List Char) : List Char → Bool
  | [] => needle.isEmpty
  | c :: cs => startsWith needle (c :: cs) || containsText needle cs

/-- The number of characters in front of the first occurrence. -/
def firstIndex? (c : Char) : List Char → Option Nat
  | [] => none
  | d :: ds => if d = c then some 0 else (firstIndex? c ds).map (· + 1)

def replaceFrom (needle image : List Char) : Nat → List Char → List Char
  | _, [] => []
  | skip + 1, _ :: cs => replaceFrom needle image skip cs
  | 0, c :: cs =>
    if startsWith needle (c :: cs) then image ++ replaceFrom needle image (needle.length - 1) cs
    else c :: replaceFrom needle image 0 cs

/-- Replaces every occurrence of a non-empty needle, from left to right. -/
def replaceAll (needle image s : List Char) : List Char :=
  replaceFrom needle image 0 s

end LocaleAudit
