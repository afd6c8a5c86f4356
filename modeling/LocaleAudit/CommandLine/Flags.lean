import LocaleAudit.Text.Search

namespace LocaleAudit

/-!
# Flags

The commands of the program and the flags that each one knows. A flag is written `--name`, some
also `-x`. A flag that takes a value has it behind `=` or in the next argument; flags of one letter
can stand together. `verbose` and `quiet` are for logs; runs keep none, and both change nothing.
-/

inductive Flag where
  | config
  | sourceDir
  | catalogDir
  | defaultLang
  | lang
  | verbose
  | quiet
  | fix
  | dryRun
  | json
  | maxItems
  | overwriteConflicts
  | output
  | tsv
  | help
  | version
  deriving DecidableEq, Repr

namespace Flag

def name : Flag → String
  | .config => "config"
  | .sourceDir => "source-dir"
  | .catalogDir => "catalog-dir"
  | .defaultLang => "default-lang"
  | .lang => "lang"
  | .verbose => "verbose"
  | .quiet => "quiet"
  | .fix => "fix"
  | .dryRun => "dry-run"
  | .json => "json"
  | .maxItems => "max-items"
  | .overwriteConflicts => "overwrite-conflicts"
  | .output => "output"
  | .tsv => "tsv"
  | .help => "help"
  | .version => "version"

def letter? : Flag → Option Char
  | .verbose => some 'v'
  | .quiet => some 'q'
  | .output => some 'o'
  | .help => some 'h'
  | .version => some 'V'
  | _ => none

inductive Shape where
  | none
  | text
  | path
  | number
  deriving DecidableEq, Repr

def shape : Flag → Shape
  | .config => .path
  | .sourceDir => .path
  | .catalogDir => .path
  | .output => .path
  | .defaultLang => .text
  | .lang => .text
  | .maxItems => .number
  | _ => .none

def takesValue (f : Flag) : Bool :=
  f.shape != .none

/-- Flags that may stand more than once. -/
def repeats : Flag → Bool
  | .lang => true
  | .verbose => true
  | _ => false

/-- Flags that end the reading: what follows does not count. -/
def endsReading : Flag → Bool
  | .help => true
  | .version => true
  | _ => false

/-- The flags of every command. They may also stand before the command. -/
def shared : List Flag :=
  [.config, .sourceDir, .catalogDir, .defaultLang, .lang, .verbose, .quiet, .help]

end Flag

inductive CommandName where
  | check
  | sync
  | exportTable
  | scan
  | completions
  deriving DecidableEq, Repr

namespace CommandName

def all : List CommandName :=
  [.check, .sync, .exportTable, .scan, .completions]

def word : CommandName → String
  | .check => "check"
  | .sync => "sync"
  | .exportTable => "export"
  | .scan => "scan"
  | .completions => "completions"

def ownFlags : CommandName → List Flag
  | .check => [.fix, .dryRun, .json, .maxItems]
  | .sync => [.dryRun, .overwriteConflicts, .json]
  | .exportTable => [.output, .tsv]
  | .scan => []
  | .completions => []

def flags (c : CommandName) : List Flag :=
  c.ownFlags ++ Flag.shared

def ofWord? (word : String) : Option CommandName :=
  all.find? (·.word == word)

end CommandName

inductive Shell where
  | bash
  | elvish
  | fish
  | powershell
  | zsh
  deriving DecidableEq, Repr

namespace Shell

def all : List Shell :=
  [.bash, .elvish, .fish, .powershell, .zsh]

def name : Shell → String
  | .bash => "bash"
  | .elvish => "elvish"
  | .fish => "fish"
  | .powershell => "powershell"
  | .zsh => "zsh"

def ofName? (name : String) : Option Shell :=
  all.find? (·.name == name)

end Shell

end LocaleAudit
