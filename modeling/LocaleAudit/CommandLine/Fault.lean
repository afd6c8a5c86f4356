import LocaleAudit.Error
import LocaleAudit.Files

namespace LocaleAudit

/-!
# Faults of a command

Causes for which a command stops, and the checks of paths and numbers that find them before any
work is done.
-/

/-- What a command was doing when an operation failed. -/
inductive Activity where
  | fix
  | check
  | sync
  | exportTable
  | scan
  deriving DecidableEq, Repr

def Activity.title : Activity → String
  | .fix => "Fix"
  | .check => "Check"
  | .sync => "Sync"
  | .exportTable => "Export"
  | .scan => "Scan"

inductive CommandFault where
  | missing (what path : String)
  | notDirectory (what path : String)
  | notFile (what path : String)
  | unreadableConfig (path : String) (cause : Error)
  | invalidConfig (cause : Error)
  | invalidLanguage (cause : Error)
  | zeroMaxItems
  | cannotMakeDirectory (fault : IoFault)
  | outputIsDirectory (path : String)
  | cannotCreate (path : String) (fault : IoFault)
  | cannotWrite (cause : Error)
  | failed (activity : Activity) (cause : Error)
  deriving DecidableEq, Repr

def CommandFault.message : CommandFault → String
  | .missing what path => s!"{what} does not exist: {path}"
  | .notDirectory what path => s!"{what} is not a directory: {path}"
  | .notFile what path => s!"{what} is not a file: {path}"
  | .unreadableConfig path cause => s!"Invalid config {path}: {cause.message}"
  | .invalidConfig cause => s!"Invalid configuration: {cause.message}"
  | .invalidLanguage cause => cause.message
  | .zeroMaxItems => "--max-items must be at least 1"
  | .cannotMakeDirectory fault => s!"Cannot create output directory: {fault.message}"
  | .outputIsDirectory path => s!"Output path is a directory: {path}"
  | .cannotCreate path fault => s!"Cannot create {path}: {fault.message}"
  | .cannotWrite cause => s!"Error writing output: {cause.message}"
  | .failed activity cause => s!"{activity.title} failed: {cause.message}"

namespace Precondition

/-- A configuration file that was asked for is there. -/
def configFile (files : Directory) (path : String) : Except CommandFault Unit :=
  if !files.pathExists path then .error (.missing "Config file" path)
  else if !files.isFile path then .error (.notFile "Config path" path)
  else .ok ()

/-- A directory that the run reads is there. -/
def directory (files : Directory) (what path : String) : Except CommandFault Unit :=
  if !files.pathExists path then .error (.missing what path)
  else if !files.isDirectory path then .error (.notDirectory what path)
  else .ok ()

def maxItems (n : Nat) : Except CommandFault Unit :=
  if n = 0 then .error .zeroMaxItems else .ok ()

/-- Makes the directory of an output file when it is missing. A relative path is seen from
`workingDir`. -/
def outputDirectory (files : Directory) (workingDir path : String) :
    Directory × Except CommandFault Unit :=
  match Path.parent? path with
  | none => (files, .ok ())
  | some parent =>
    if parent.isEmpty || files.pathExists (Path.join workingDir parent) then (files, .ok ())
    else
      let (files, made) := files.makeDirectories (Path.join workingDir parent)
      (files, made.mapError .cannotMakeDirectory)

/-- An output path names no directory. -/
def outputFile (files : Directory) (workingDir path : String) : Except CommandFault Unit :=
  if files.isDirectory (Path.join workingDir path) then .error (.outputIsDirectory path) else .ok ()

end Precondition

end LocaleAudit
