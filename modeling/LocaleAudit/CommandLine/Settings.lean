import LocaleAudit.CommandLine.Fault
import LocaleAudit.Config

namespace LocaleAudit

/-!
# Settings of a run

The configuration of a run comes from a configuration file and from the command line, which wins.
Paths in the file are seen from the file's directory, paths on the command line from the working
directory.
-/

/-- What the command line sets in place of the configuration file. -/
structure Overrides where
  configFile : Option String := none
  sourceDir : Option String := none
  catalogDir : Option String := none
  defaultLanguage : Option String := none
  /-- The languages to check; none are named when it is empty. -/
  languages : List String := []
  deriving DecidableEq, Repr

namespace Settings

/-- The configuration file that is used when it is there and no other is named. -/
def defaultConfigFile : String := "catalint.toml"

def load (files : Directory) (path : String) : Except Error Config :=
  match files.readUtf8 path with
  | .ok text => Config.ofText text
  | .error fault => .error (.io fault)

/-- The configuration file to read, if there is one. -/
def configFile? (files : Directory) (workingDir : String) (o : Overrides) :
    Except CommandFault (Option String) :=
  match o.configFile with
  | some path => do
    Precondition.configFile files (Path.join workingDir path)
    return some (Path.join workingDir path)
  | none =>
    let path := Path.join workingDir defaultConfigFile
    .ok (if files.isFile path then some path else none)

/-- A configuration whose directories are seen from `base`. -/
def anchored (base : String) (c : Config) : Config :=
  { c with sourceDir := Path.join base c.sourceDir, catalogDir := Path.join base c.catalogDir }

def configured (files : Directory) (workingDir : String) (o : Overrides) :
    Except CommandFault Config := do
  match ← configFile? files workingDir o with
  | none => return anchored workingDir {}
  | some path =>
    match load files path with
    | .ok c => return anchored ((Path.parent? path).getD workingDir) c
    | .error e => throw (.unreadableConfig path e)

def checkLanguage (code : String) : Except CommandFault Unit :=
  (LanguageTag.check code).mapError .invalidLanguage

/-- Languages with one more in front, unless it is there. -/
def listing (language : String) (languages : List String) : List String :=
  if languages.contains language then languages else language :: languages

def withDirectories (workingDir : String) (o : Overrides) (c : Config) : Config :=
  { c with
    sourceDir := (o.sourceDir.map (Path.join workingDir)).getD c.sourceDir
    catalogDir := (o.catalogDir.map (Path.join workingDir)).getD c.catalogDir }

/-- Another default language joins the languages of the configuration. -/
def withDefaultLanguage (o : Overrides) (c : Config) : Except CommandFault Config :=
  match o.defaultLanguage with
  | none => .ok c
  | some language => do
    checkLanguage language
    return { c with
      defaultLanguage := language
      languages := if c.languages.isEmpty then [] else listing language c.languages }

/-- The languages of the command line replace those of the configuration; the default language
joins them. -/
def withLanguages (o : Overrides) (c : Config) : Except CommandFault Config :=
  if o.languages.isEmpty then .ok c
  else do
    o.languages.forM checkLanguage
    return { c with languages := listing c.defaultLanguage o.languages }

def resolve (files : Directory) (workingDir : String) (o : Overrides) :
    Except CommandFault Config := do
  let c ← configured files workingDir o
  let c ← withDefaultLanguage o (withDirectories workingDir o c)
  let c ← withLanguages o c
  match c.check with
  | .ok () => return c
  | .error e => throw (.invalidConfig e)

end Settings

end LocaleAudit
