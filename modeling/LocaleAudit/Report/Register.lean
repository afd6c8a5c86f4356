import LocaleAudit.Finding

namespace LocaleAudit

/-!
# Registers

A register is a report in the making. Beside the findings it keeps the set of their problems, so
that taking in a finding means looking its problem up once. The set is not part of what a register
says: registers with the same findings are equal.
-/

structure Register where
  findings : List Finding
  /-- A set; the order says nothing. -/
  seen : List Finding.Identity
  deriving Repr

namespace Register

def empty : Register := ⟨[], []⟩

/-- Takes in a finding, and tells whether its problem is new. -/
def push (r : Register) (f : Finding) : Register × Bool :=
  if r.seen.contains f.identity then (r, false)
  else (⟨r.findings ++ [f], f.identity :: r.seen⟩, true)

def pushAll (r : Register) (findings : List Finding) : Register :=
  findings.foldl (fun r f => (r.push f).1) r

def merge (r other : Register) : Register :=
  r.pushAll other.findings

def ofList (findings : List Finding) : Register :=
  empty.pushAll findings

instance : BEq Register :=
  ⟨fun r other => r.findings == other.findings⟩

def toReport (r : Register) : Report :=
  ⟨r.findings⟩

end Register

end LocaleAudit
