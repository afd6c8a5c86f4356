import LocaleAudit.Project
import LocaleAudit.Report.Machine

namespace LocaleAudit

/-!
# Reports on a reconciliation

What was added or could not be added to each catalog, the documents that failed, and the totals; as
lines for people and as a JSON object for programs.
-/

namespace ReconcileOutcome

def lines (o : ReconcileOutcome) (store : Store) (dryRun : Bool) : List String :=
  let document := store.displayPath o.language o.nameSpace
  let verb := if dryRun then "would add" else "added"
  (if o.added.isEmpty then [] else [s!"{document}: {verb} {o.added.length} placeholder(s)"]) ++
    o.conflicts.map fun c => s!"{document}: skipped {c.path}: {c.reason}"

def conflictsField (o : ReconcileOutcome) : Json.Fields :=
  if o.conflicts.isEmpty then []
  else
    [("conflicts", .array (o.conflicts.map fun c =>
      .object [("path", .string c.path), ("reason", .string c.reason)]))]

def toValue (o : ReconcileOutcome) : Json.Value :=
  .object ([("namespace", .string o.nameSpace), ("language", .string o.language),
    ("added", .array (o.added.map .string))] ++ o.conflictsField)

end ReconcileOutcome

namespace SyncOutcome

def totalsLine (o : SyncOutcome) (dryRun : Bool) : String :=
  let state := if dryRun then "pending" else "added"
  let written := o.written.length
  s!"{o.added} placeholder(s) {state}, {o.conflicts} conflict(s), {written} file(s) written"

def lines (o : SyncOutcome) (store : Store) (dryRun : Bool) : List String :=
  o.outcomes.flatMap (·.lines store dryRun) ++
    o.failures.findings.map (fun f => s!"{f.path}: {f.message}") ++
    [o.totalsLine dryRun]

def summaryValue (o : SyncOutcome) : Json.Value :=
  .object [("added", natValue o.added), ("conflicts", natValue o.conflicts),
    ("written", natValue o.written.length), ("failures", natValue o.failures.size)]

def toValue (o : SyncOutcome) (dryRun : Bool) : Json.Value :=
  .object [("dry_run", .bool dryRun), ("summary", o.summaryValue),
    ("catalogs", .array (o.outcomes.map ReconcileOutcome.toValue)),
    ("written", .array (o.written.map .string)),
    ("failures", .array (o.failures.findings.map Finding.toValue))]

end SyncOutcome

end LocaleAudit
