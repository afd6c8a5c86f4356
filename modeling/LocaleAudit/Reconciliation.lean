import LocaleAudit.Difference

namespace LocaleAudit

/-!
# Reconciliation

Every leaf that the default language has and another language lacks is added with a placeholder:
the default text behind the marker, or the default value itself when it is no text. Values that are
there stay, unless they block a path and the policy lets them go.
-/

structure Conflict where
  path : String
  reason : String
  deriving DecidableEq, Repr

/-- What reconciling a catalog added, and which paths it could not add. -/
structure ReconcileOutcome where
  nameSpace : String
  language : String
  added : List String
  conflicts : List Conflict
  deriving DecidableEq, Repr

namespace ReconcileOutcome

def isModified (o : ReconcileOutcome) : Bool :=
  !o.added.isEmpty

end ReconcileOutcome

namespace Reconciliation

def placeholder (marker : Marker) (source target : String) : Json.Value → Json.Value
  | .string s => .string (marker.apply s source target)
  | other => other

/-- A tree on its way from the old target to the new one. -/
structure Progress where
  tree : Tree
  added : List String
  conflicts : List Conflict
  deriving Repr

def Progress.conflict (p : Progress) (path reason : String) : Progress :=
  { p with conflicts := p.conflicts ++ [⟨path, reason⟩] }

def addMissing (marker : Marker) (policy : ConflictPolicy) (default target : Catalog)
    (p : Progress) (path : String) : Progress :=
  match default.get? path with
  | none => p.conflict path "key is not addressable by a dotted path"
  | some value =>
    let value := placeholder marker default.language target.language value
    match KeyPath.set p.tree path value policy with
    | .ok tree => { p with tree, added := p.added ++ [path] }
    | .error e => p.conflict path e.message

/-- The target with a placeholder for every path it lacks. A catalog of the default language stays
as it is. -/
def reconcile (marker : Marker) (policy : ConflictPolicy) (default target : Catalog) :
    Catalog × ReconcileOutcome :=
  if default.language = target.language then
    (target, ⟨target.nameSpace, target.language, [], []⟩)
  else
    let p := (Difference.missingPaths default target).foldl
      (addMissing marker policy default target) ⟨target.tree, [], []⟩
    ({ target with tree := p.tree }, ⟨target.nameSpace, target.language, p.added, p.conflicts⟩)

end Reconciliation

end LocaleAudit
