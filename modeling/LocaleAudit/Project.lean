import LocaleAudit.ExportTable
import LocaleAudit.Reconciliation
import LocaleAudit.Report.Human
import LocaleAudit.Source.Scanning
import LocaleAudit.Source.Walk
import LocaleAudit.Store
import LocaleAudit.Validation

namespace LocaleAudit

/-!
# Projects

One run over a project: it loads the catalogs and scans the sources, and then checks, reconciles or
exports. A document or a source file that cannot be read is recorded and the run goes on; only a
project without catalogs or without a default language stops it.
-/

structure Project where
  config : Config
  store : Store
  extractor : Extractor
  marker : Marker
  deriving Repr

structure CatalogSet where
  /-- The default language first. -/
  languages : List String
  /-- The namespaces of the default language, in order. -/
  namespaces : List String
  loaded : List Catalog
  /-- One finding for each document that could not be loaded. -/
  failures : Report
  deriving Repr

namespace CatalogSet

def get? (s : CatalogSet) (language nameSpace : String) : Option Catalog :=
  s.loaded.find? fun c => c.language == language && c.nameSpace == nameSpace

def ofNamespace (s : CatalogSet) (nameSpace : String) : List Catalog :=
  s.loaded.filter (·.nameSpace == nameSpace)

def defaultLanguage (s : CatalogSet) : String :=
  s.languages.headD ""

end CatalogSet

structure CheckOutcome where
  report : Report
  summary : RunSummary
  deriving Repr

/-- What a reconciliation did to each catalog, the documents it wrote, and those it could not read
or write. -/
structure SyncOutcome where
  outcomes : List ReconcileOutcome
  written : List String
  failures : Report
  deriving Repr

namespace SyncOutcome

def empty : SyncOutcome := ⟨[], [], Report.empty⟩

def added (o : SyncOutcome) : Nat :=
  (o.outcomes.flatMap (·.added)).length

def conflicts (o : SyncOutcome) : Nat :=
  (o.outcomes.flatMap (·.conflicts)).length

def fail (o : SyncOutcome) (f : Finding) : SyncOutcome :=
  { o with failures := o.failures.push f }

end SyncOutcome

namespace Project

def ofConfig (config : Config) : Except Error Project := do
  config.check
  let extractor ← Extractor.ofHelpers config.helpers
  let marker ← Marker.ofTemplate config.marker
  return ⟨config, Store.new config.catalogDir config.extension, extractor, marker⟩

/-! ## What there is -/

/-- The languages that the configuration lists, or those that have a directory. -/
def candidateLanguages (p : Project) (files : Directory) : Except Error (List String) :=
  if p.config.languages.isEmpty then
    match p.store.listLanguages files with
    | .ok names => .ok (names.filter fun name => (LanguageTag.check name).toBool)
    | .error fault => .error (.config (.cannotListLanguages p.store.root fault))
  else .ok p.config.languages

/-- The languages of a run, the default language first. -/
def languages (p : Project) (files : Directory) : Except Error (List String) :=
  (p.candidateLanguages files).map fun names =>
    p.config.defaultLanguage :: names.filter (· != p.config.defaultLanguage)

def namespaces (p : Project) (files : Directory) : Except Error (List String) :=
  match p.store.listNamespaces files p.config.defaultLanguage with
  | .ok names => .ok names
  | .error fault =>
    .error (.config (.cannotListNamespaces p.config.defaultLanguage p.store.root fault))

def fileFinding (p : Project) (language nameSpace : String) (e : Error) : Finding :=
  { kind := .fileError
    nameSpace
    language
    path := p.store.displayPath language nameSpace
    message := e.message }

/-- The pairs of a namespace and a language, by namespace. -/
def documents (namespaces languages : List String) : List (String × String) :=
  namespaces.flatMap fun nameSpace => languages.map fun language => (nameSpace, language)

def loadCatalogs (p : Project) (files : Directory) : Except Error CatalogSet := do
  let languages ← p.languages files
  let namespaces ← p.namespaces files
  let results := (documents namespaces languages).map fun (nameSpace, language) =>
    (nameSpace, language, p.store.load files language nameSpace)
  return {
    languages, namespaces
    loaded := results.filterMap fun (_, _, result) => result.toOption
    failures := Report.ofList <| results.filterMap fun (nameSpace, language, result) =>
      match result with
      | .ok _ => none
      | .error e => some (p.fileFinding language nameSpace e) }

def sourceFiles (p : Project) (files : Directory) : Except Error (List String) := do
  let walker ← SourceWalker.new p.config.sourceDir p.config.includes p.config.excludeDirs
  walker.files files

def scanSources (p : Project) (files : Directory) : Except Error SourceScan :=
  (p.sourceFiles files).map (SourceScan.ofFiles p.extractor files p.config.defaultNamespace)

def scanLiterals (p : Project) (files : Directory) : Except Error (List LiteralHit) :=
  (p.sourceFiles files).map (Literals.inFiles p.extractor files)

/-! ## Checking -/

/-- The reports on one loaded catalog, in the order in which they are made. -/
def catalogReports (p : Project) (defaultLanguage : String) (default : Option Catalog)
    (scan : Option SourceScan) (c : Catalog) : List Report :=
  let isDefault := c.language == defaultLanguage
  let difference :=
    match default with
    | some d => if isDefault then [] else [Difference.betweenCatalogs d c]
    | none => []
  let references :=
    match scan with
    | some scan =>
      if p.config.checkReferences then [Difference.undefinedReferences scan c] else []
    | none => []
  let use :=
    if isDefault then
      match scan with
      | some scan => if p.config.reportUnused then [Difference.unusedKeys scan c] else []
      | none => []
    else [Difference.untranslated c defaultLanguage p.marker]
  difference ++ references ++ use ++ [Validation.validateCatalog c default]

/-- The reports on one document; a document that is not loaded has none. -/
def documentReports (p : Project) (set : CatalogSet) (scan : Option SourceScan)
    (nameSpace language : String) : List Report :=
  match set.get? language nameSpace with
  | none => []
  | some c =>
    p.catalogReports set.defaultLanguage (set.get? set.defaultLanguage nameSpace) scan c

/-- The report on loaded catalogs. Without a scan, catalogs are compared only with one another. -/
def checkCatalogs (p : Project) (set : CatalogSet) (scan : Option SourceScan) : Report :=
  let reports := (documents set.namespaces set.languages).flatMap fun (nameSpace, language) =>
    p.documentReports set scan nameSpace language
  let unknown :=
    match scan with
    | some scan =>
      if p.config.checkReferences then
        [Difference.unknownNamespaces scan set.namespaces set.languages]
      else []
    | none => []
  (set.failures :: reports ++ unknown).foldl Report.merge Report.empty

def check (p : Project) (files : Directory) : Except Error CheckOutcome := do
  let set ← p.loadCatalogs files
  let scan ←
    if p.config.checkReferences || p.config.reportUnused then (p.scanSources files).map some
    else .ok none
  return {
    report := p.checkCatalogs set scan
    summary := {
      namespaces := set.namespaces.length
      languages := set.languages.length
      filesScanned := (scan.map (·.filesScanned)).getD 0
      keysReferenced := (scan.map (·.keys.length)).getD 0 } }

/-! ## Reconciling -/

/-- A run in progress: the outcome so far and the files as they are. -/
structure SyncState where
  outcome : SyncOutcome
  files : Directory

/-- Writes a catalog that was modified, unless the run is dry. -/
def saveModified (p : Project) (dryRun : Bool) (state : SyncState) (c : Catalog)
    (o : ReconcileOutcome) : SyncState :=
  if o.isModified && !dryRun then
    match p.store.save state.files c with
    | (files, .ok ()) =>
      { outcome := { state.outcome with
          written := state.outcome.written ++ [p.store.pathFor c.language c.nameSpace] }
        files }
    | (files, .error e) =>
      { outcome := state.outcome.fail (p.fileFinding c.language c.nameSpace e), files }
  else state

/-- Reconciles the document of one language; a missing document starts empty. -/
def syncDocument (p : Project) (dryRun : Bool) (default : Catalog) (state : SyncState)
    (language : String) : SyncState :=
  match p.store.loadOrEmpty state.files language default.nameSpace with
  | .error e =>
    { state with outcome := state.outcome.fail (p.fileFinding language default.nameSpace e) }
  | .ok c =>
    let (c, o) := Reconciliation.reconcile p.marker p.config.policy default c
    let state := p.saveModified dryRun state c o
    { state with outcome := { state.outcome with outcomes := state.outcome.outcomes ++ [o] } }

/-- Reconciles one namespace; without its default document it is left out. -/
def syncNamespace (p : Project) (dryRun : Bool) (languages : List String) (state : SyncState)
    (nameSpace : String) : SyncState :=
  let defaultLanguage := p.config.defaultLanguage
  match p.store.load state.files defaultLanguage nameSpace with
  | .error e =>
    { state with outcome := state.outcome.fail (p.fileFinding defaultLanguage nameSpace e) }
  | .ok default =>
    (languages.filter (· != defaultLanguage)).foldl (p.syncDocument dryRun default) state

/-- Adds placeholders to every catalog but those of the default language, and writes those that
change unless the run is dry. -/
def sync (p : Project) (files : Directory) (dryRun : Bool) : Except Error SyncState := do
  let languages ← p.languages files
  let namespaces ← p.namespaces files
  return namespaces.foldl (p.syncNamespace dryRun languages) ⟨SyncOutcome.empty, files⟩

/-! ## Exporting -/

/-- Every namespace in one table, and what could not be loaded. -/
def exportTable (p : Project) (files : Directory) : Except Error (ExportTable × Report) := do
  let set ← p.loadCatalogs files
  let table := set.namespaces.foldl
    (fun (t : ExportTable) nameSpace => t.addNamespace nameSpace (set.ofNamespace nameSpace))
    (ExportTable.new set.languages)
  return (table, set.failures)

end Project

end LocaleAudit
