import LocaleAudit.KeyPath
import LocaleAudit.Json.Printer

namespace LocaleAudit

/-!
# Catalogs

A catalog is the tree of texts of one language in one namespace. Its document is a JSON object
whose keys can be addressed by dotted paths, laid out with two spaces a level and a line feed at
the end.
-/

structure Catalog where
  language : String
  nameSpace : String
  tree : Tree
  deriving Repr, Inhabited

namespace Catalog

def empty (language nameSpace : String) : Catalog :=
  ⟨language, nameSpace, []⟩

def isAddressable (key : String) : Bool :=
  !key.isEmpty && !key.toList.contains '.'

mutual

/-- The path of the first key of a node that no dotted path can address. -/
def badKeyAt? (path : String) : Json.Value → Option String
  | .object fields => badKeyBelow? path fields
  | .null => none
  | .bool _ => none
  | .number _ => none
  | .string _ => none
  | .array _ => none
termination_by structural v => v

def badKeyBelow? (parent : String) : List (String × Json.Value) → Option String
  | [] => none
  | (key, v) :: rest =>
    if isAddressable key then
      (badKeyAt? (KeyPath.join parent key) v).or (badKeyBelow? parent rest)
    else some (KeyPath.join parent key)
termination_by structural fields => fields

end

def ofValue (language nameSpace : String) : Json.Value → Except Error Catalog
  | .object tree =>
    match badKeyBelow? "" tree with
    | none => .ok ⟨language, nameSpace, tree⟩
    | some path => .error (.invalidCatalog (.badKey path))
  | other => .error (.invalidCatalog (.notObject other.kind))

def parse (language nameSpace text : String) : Except Error Catalog :=
  match Json.parse text with
  | .ok value => ofValue language nameSpace value
  | .error fault => .error (.parse fault)

def render (tree : Tree) : String :=
  Json.pretty (.object tree) ++ "\n"

def get? (c : Catalog) (path : String) : Option Json.Value :=
  KeyPath.get? c.tree path

def leaves (c : Catalog) : List (String × Json.Value) :=
  KeyPath.leaves c.tree

def leafPaths (c : Catalog) : List String :=
  KeyPath.leafPaths c.tree

end Catalog

end LocaleAudit
