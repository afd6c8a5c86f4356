import LocaleAudit.CommandLine.Arguments
import LocaleAudit.CommandLine.Help
import LocaleAudit.Report.Sync

namespace LocaleAudit

/-!
# Commands

A command works on files, prints, and ends with an exit code: 0 when all is well, 1 when there are
errors in what it looked at, 2 when it could not run. What a command printed and wrote before a
fault stays.
-/

/-- The files as they are, and what has been printed on the two streams. -/
structure Session where
  files : Directory
  output : String := ""
  notices : String := ""

/-- A part of a command: it changes the session and may stop with a fault. -/
abbrev SessionM := ExceptT CommandFault (StateM Session)

namespace SessionM

/-- Goes on with a result, or stops with its fault. -/
def attempt {α : Type} (result : Except CommandFault α) : SessionM α :=
  ExceptT.mk (pure result)

def files : SessionM Directory :=
  Session.files <$> get

def setFiles (files : Directory) : SessionM Unit :=
  modify fun s => { s with files }

def printText (text : String) : SessionM Unit :=
  modify fun s => { s with output := s.output ++ text }

def print (line : String) : SessionM Unit :=
  printText (line ++ "\n")

def notify (line : String) : SessionM Unit :=
  modify fun s => { s with notices := s.notices ++ line ++ "\n" }

/-- Runs an operation on the files as they are; an error is a fault of the activity. -/
def perform {α : Type} (activity : Activity) (operation : Directory → Except Error α) :
    SessionM α := do
  attempt ((operation (← files)).mapError (.failed activity))

def requireDirectory (what path : String) : SessionM Unit := do
  attempt (Precondition.directory (← files) what path)

theorem run_perform {α : Type} (activity : Activity) (operation : Directory → Except Error α)
    (s : Session) :
    (perform activity operation).run.run s =
      ((operation s.files).mapError (.failed activity), s) := rfl

end SessionM

namespace Command

open SessionM

def openProject (config : Config) : SessionM Project :=
  attempt ((Project.ofConfig config).mapError .invalidConfig)

def requireCatalogs (config : Config) : SessionM Unit :=
  requireDirectory "Catalog directory" config.catalogDir

def requireSources (config : Config) : SessionM Unit :=
  requireDirectory "Source directory" config.sourceDir

/-- Reconciles and says what was done. Beside a JSON report the lines are notices. -/
def runFix (p : Project) (o : CheckOptions) : SessionM Unit := do
  let state ← perform .fix (p.sync · o.dryRun)
  setFiles state.files
  let lines := state.outcome.lines p.store o.dryRun
  if o.json then lines.forM notify
  else
    lines.forM print
    print ""

/-- What a check reads is there. -/
def requireInputs (config : Config) : SessionM Unit := do
  requireCatalogs config
  if config.checkReferences || config.reportUnused then requireSources config

def reportOn (p : Project) (o : CheckOptions) (maxItems : Nat) : SessionM Nat := do
  let outcome ← perform .check p.check
  print <|
    if o.json then outcome.report.renderJson outcome.summary
    else outcome.report.renderHuman outcome.summary maxItems
  return outcome.report.exitCode

def runCheck (config : Config) (o : CheckOptions) : SessionM Nat := do
  requireInputs config
  let maxItems := o.maxItems.getD config.maxItems
  attempt (Precondition.maxItems maxItems)
  let p ← openProject config
  if o.fix then runFix p o
  reportOn p o maxItems

def runSync (config : Config) (o : SyncOptions) : SessionM Nat := do
  requireCatalogs config
  let p ← openProject
    { config with overwriteConflicts := config.overwriteConflicts || o.overwriteConflicts }
  let state ← perform .sync (p.sync · o.dryRun)
  setFiles state.files
  if o.json then print (Json.pretty (state.outcome.toValue o.dryRun))
  else (state.outcome.lines p.store o.dryRun).forM print
  return state.outcome.failures.exitCode

/-- Makes the directory of the output file and makes sure that the path names no directory. -/
def prepareOutput (workingDir path : String) : SessionM Unit := do
  let (made, result) := Precondition.outputDirectory (← files) workingDir path
  setFiles made
  attempt result
  attempt (Precondition.outputFile (← files) workingDir path)

def writeTable (workingDir path : String) (table : ExportTable) (delimiter : Char) :
    SessionM Unit := do
  let (text, result) := table.render delimiter
  match (← files).writeText (Path.join workingDir path) text with
  | .error fault => throw (.cannotCreate path fault)
  | .ok files =>
    setFiles files
    attempt (result.mapError .cannotWrite)
    let rows := table.rows.length
    let languages := table.languages.length
    print s!"✅ Exported {rows} row(s) for {languages} language(s) to {path}"

def runExport (workingDir : String) (config : Config) (o : ExportOptions) : SessionM Nat := do
  requireCatalogs config
  o.output.forM (prepareOutput workingDir)
  let p ← openProject config
  let (table, failures) ← perform .exportTable p.exportTable
  let delimiter := if o.tsv then '\t' else ','
  match o.output with
  | some path => writeTable workingDir path table delimiter
  | none =>
    let (text, result) := table.render delimiter
    printText text
    attempt (result.mapError .cannotWrite)
  failures.findings.forM fun f => notify s!"Skipped {f.path}: {f.message}"
  return failures.exitCode

def textColumns : Nat := 70

def hitLine (sourceDir : String) (hit : LiteralHit) : String :=
  let file := (Path.stripBase? sourceDir hit.file).getD hit.file
  s!"{file}:{hit.line}: {truncateDisplay hit.text textColumns}"

/-- Lists hard-coded text. It only advises, so finding some is no error. -/
def runScan (config : Config) : SessionM Nat := do
  requireSources config
  let p ← openProject config
  let hits ← perform .scan p.scanLiterals
  if hits.isEmpty then print "✅ No hard-coded text found"
  else
    print s!"=== Possible hard-coded text ({hits.length}) ==="
    hits.forM fun hit => print (hitLine config.sourceDir hit)
  return 0

def run (workingDir : String) (overrides : Overrides) (command : Command) : SessionM Nat := do
  let config ← attempt (Settings.resolve (← files) workingDir overrides)
  match command with
  | .check o => runCheck config o
  | .sync o => runSync config o
  | .exportTable o => runExport workingDir config o
  | .scan => runScan config

end Command

structure Response where
  files : Directory
  output : String
  notices : String
  exitCode : Nat

namespace Response

def failureCode : Nat := 2

def ofText (files : Directory) (text : String) : Response :=
  ⟨files, text, "", 0⟩

def ofUsageFault (files : Directory) (fault : UsageFault) : Response :=
  ⟨files, "", s!"error: {fault.message}\n\n{Help.usage}\n", failureCode⟩

def ofCommand (files : Directory) (workingDir : String) (overrides : Overrides)
    (command : Command) : Response :=
  match (command.run workingDir overrides).run.run { files } with
  | (.ok code, s) => ⟨s.files, s.output, s.notices, code⟩
  | (.error fault, s) =>
    ⟨s.files, s.output, s.notices ++ s!"Error: {fault.message}\n", failureCode⟩

def ofArguments (files : Directory) (workingDir : String) (arguments : List String) : Response :=
  match Arguments.read arguments with
  | .error fault => ofUsageFault files fault
  | .ok .help => ofText files (Help.usage ++ "\n")
  | .ok .version => ofText files (Help.versionLine ++ "\n")
  | .ok (.completions shell) => ofText files (Help.completionScript shell)
  | .ok (.run overrides command) => ofCommand files workingDir overrides command

end Response

end LocaleAudit
