import LocaleAudit.KeyPath
import LocaleAudit.Text.Blank
import LocaleAudit.Text.Letters

namespace LocaleAudit

/-!
# Key references

A reference names a key in source text, either `namespace:path` or a bare path that belongs to the
default namespace. References are ordered with qualified ones first, then by their parts.
-/

/-- Names of namespaces: one or more letters, numerals, `_` and `-`. -/
def isNamespaceName (s : List Char) : Bool :=
  !s.isEmpty && s.all fun c => isAlphanumeric c || c == '_' || c == '-'

inductive KeyRef where
  | qualified (nameSpace path : String)
  | unqualified (path : String)
  deriving DecidableEq, Repr

structure ResolvedKey where
  nameSpace : String
  path : String
  deriving DecidableEq, Repr

namespace ResolvedKey

def display (k : ResolvedKey) : String :=
  k.nameSpace ++ ":" ++ k.path

def le (a b : ResolvedKey) : Bool :=
  a.nameSpace < b.nameSpace || (a.nameSpace == b.nameSpace && a.path ≤ b.path)

end ResolvedKey

namespace KeyRef

def parse? (raw : String) : Option KeyRef :=
  let s := raw.toList
  if s.any isBlank then none
  else
    match splitOnChar ':' s with
    | [_] => (KeyPath.segments? raw).map fun _ => .unqualified raw
    | [name, path] =>
      let path := String.ofList path
      if isNamespaceName name then
        (KeyPath.segments? path).map fun _ => .qualified (String.ofList name) path
      else none
    | _ => none

def path : KeyRef → String
  | .qualified _ path => path
  | .unqualified path => path

def display : KeyRef → String
  | .qualified nameSpace path => nameSpace ++ ":" ++ path
  | .unqualified path => path

def resolve (defaultNamespace : String) : KeyRef → ResolvedKey
  | .qualified nameSpace path => ⟨nameSpace, path⟩
  | .unqualified path => ⟨defaultNamespace, path⟩

def le : KeyRef → KeyRef → Bool
  | .qualified n p, .qualified n' p' => n < n' || (n == n' && p ≤ p')
  | .qualified _ _, .unqualified _ => true
  | .unqualified _, .qualified _ _ => false
  | .unqualified p, .unqualified p' => p ≤ p'

end KeyRef

/-! ## Sets as sorted lists -/

def dropRepeats {α : Type} [DecidableEq α] : List α → List α
  | [] => []
  | a :: rest =>
    match dropRepeats rest with
    | [] => [a]
    | b :: rest => if a = b then b :: rest else a :: b :: rest

/-- The members of a list in order, each once. -/
def sortedSet {α : Type} [DecidableEq α] (le : α → α → Bool) (members : List α) : List α :=
  dropRepeats (members.mergeSort le)

end LocaleAudit
