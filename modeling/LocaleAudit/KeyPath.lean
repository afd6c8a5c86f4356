import LocaleAudit.Error
import LocaleAudit.Text.Search

namespace LocaleAudit

/-!
# Key paths

A catalog tree is an object whose inner nodes are objects and whose leaves are all other values. A
dotted path such as `nav.home` names the node behind a sequence of keys. `leaves` lists the leaves
in document order with their paths.
-/

abbrev Tree := Json.Fields

/-- What to do when a path runs into a node of the wrong shape. -/
inductive ConflictPolicy where
  | fail
  | overwrite
  deriving DecidableEq, Repr

instance : Inhabited ConflictPolicy := ⟨.fail⟩

namespace KeyPath

/-- The keys of a path; a path has at least one key and none is empty. -/
def segments? (path : String) : Option (List String) :=
  let pieces := splitOnChar '.' path.toList
  if pieces.any List.isEmpty then none else some (pieces.map String.ofList)

def join (parent segment : String) : String :=
  if parent.isEmpty then segment else parent ++ "." ++ segment

def joinAll (segments : List String) : String :=
  ".".intercalate segments

/-! ## Looking up and setting -/

def getAt : List String → Tree → Option Json.Value
  | [], _ => none
  | [key], tree => tree.get? key
  | key :: key' :: keys, tree =>
    match tree.get? key with
    | some (.object child) => getAt (key' :: keys) child
    | _ => none

def get? (tree : Tree) (path : String) : Option Json.Value :=
  (segments? path).bind (getAt · tree)

/-- Sets a value behind the keys, with new objects where a key is missing. The error holds the keys
up to the node that is in the way. -/
def setAt (policy : ConflictPolicy) (value : Json.Value) :
    List String → Tree → Except (List String) Tree
  | [], tree => .ok tree
  | [key], tree =>
    match tree.get? key with
    | some (.object _) =>
      if value.isObject || policy == .overwrite then .ok (tree.put key value) else .error [key]
    | _ => .ok (tree.put key value)
  | key :: key' :: keys, tree =>
    let within (child : Tree) : Except (List String) Tree :=
      match setAt policy value (key' :: keys) child with
      | .ok child => .ok (tree.put key (.object child))
      | .error blocked => .error (key :: blocked)
    match tree.get? key with
    | some (.object child) => within child
    | none => within []
    | some _ => if policy == .overwrite then within [] else .error [key]

def set (tree : Tree) (path : String) (value : Json.Value) (policy : ConflictPolicy) :
    Except Error Tree :=
  match segments? path with
  | none => .error (.invalidPath path)
  | some keys =>
    match setAt policy value keys tree with
    | .ok tree => .ok tree
    | .error blocked => .error (.pathConflict path (joinAll blocked))

/-! ## Setting in place -/

/-- A tree with an empty object behind a key that had nothing. -/
def ensureKey (key : String) (tree : Tree) : Tree :=
  match tree.get? key with
  | some _ => tree
  | none => tree.put key (.object [])

/-- Sets a value in a tree that changes on the way: an object is made for a missing key before it is
known whether the value can be set below. The tree is given as it is left, with the error if there
is one. -/
def setInPlaceAt (policy : ConflictPolicy) (value : Json.Value) :
    List String → Tree → Tree × Except (List String) Unit
  | [], tree => (tree, .ok ())
  | [key], tree =>
    match tree.get? key with
    | some (.object _) =>
      if value.isObject || policy == .overwrite then (tree.put key value, .ok ())
      else (tree, .error [key])
    | _ => (tree.put key value, .ok ())
  | key :: key' :: keys, tree =>
    let tree := ensureKey key tree
    let within (child : Tree) : Tree × Except (List String) Unit :=
      let (child, result) := setInPlaceAt policy value (key' :: keys) child
      (tree.put key (.object child), result.mapError (key :: ·))
    match tree.get? key with
    | some (.object child) => within child
    | _ => if policy == .overwrite then within [] else (tree, .error [key])

def setInPlace (tree : Tree) (path : String) (value : Json.Value) (policy : ConflictPolicy) :
    Tree × Except Error Unit :=
  match segments? path with
  | none => (tree, .error (.invalidPath path))
  | some keys =>
    let (tree, result) := setInPlaceAt policy value keys tree
    (tree, result.mapError fun blocked => .pathConflict path (joinAll blocked))

/-! ## Leaves -/

mutual

def leavesAt (path : String) : Json.Value → List (String × Json.Value)
  | .object fields => leavesBelow path fields
  | .null => [(path, .null)]
  | .bool b => [(path, .bool b)]
  | .number n => [(path, .number n)]
  | .string s => [(path, .string s)]
  | .array items => [(path, .array items)]
termination_by structural v => v

def leavesBelow (parent : String) : List (String × Json.Value) → List (String × Json.Value)
  | [] => []
  | (key, v) :: rest => leavesAt (join parent key) v ++ leavesBelow parent rest
termination_by structural fields => fields

end

/-- The leaves of a tree with their paths, in document order. -/
def leaves (tree : Tree) : List (String × Json.Value) :=
  leavesBelow "" tree

def leafPaths (tree : Tree) : List String :=
  (leaves tree).map Prod.fst

def flatten (tree : Tree) : Json.Fields :=
  Entries.ofList (leaves tree)

def unflatten (flat : Json.Fields) : Except Error Tree :=
  flat.foldlM (fun tree field => set tree field.1 field.2 .fail) []

end KeyPath

end LocaleAudit
