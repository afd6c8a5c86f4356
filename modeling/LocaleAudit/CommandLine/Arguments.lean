import LocaleAudit.CommandLine.Flags
import LocaleAudit.CommandLine.Settings
import LocaleAudit.Text.Letters

namespace LocaleAudit

/-!
# Arguments

Arguments are flags, then the word of a command, then flags and words of the command. Arguments that
do not fit have a usage fault; nothing is run then.
-/

inductive UsageFault where
  | unknownFlag (text : String)
  | noValue (flag : Flag)
  | needlessValue (flag : Flag)
  | badValue (flag : Flag) (value : String)
  | repeated (flag : Flag)
  | conflict (flag other : Flag)
  | noCommand
  | unknownCommand (word : String)
  | unexpectedWord (word : String)
  | noShell
  | unknownShell (name : String)
  deriving DecidableEq, Repr

def UsageFault.message : UsageFault → String
  | .unknownFlag text => s!"unknown flag {text}"
  | .noValue flag => s!"--{flag.name} needs a value"
  | .needlessValue flag => s!"--{flag.name} takes no value"
  | .badValue flag value => s!"{value.quote} is no value for --{flag.name}"
  | .repeated flag => s!"--{flag.name} is given more than once"
  | .conflict flag other => s!"--{flag.name} cannot be used with --{other.name}"
  | .noCommand => "a command is missing"
  | .unknownCommand word => s!"unknown command {word.quote}"
  | .unexpectedWord word => s!"unexpected argument {word.quote}"
  | .noShell => "the name of a shell is missing"
  | .unknownShell name => s!"unknown shell {name.quote}"

structure CheckOptions where
  fix : Bool
  dryRun : Bool
  json : Bool
  maxItems : Option Nat
  deriving DecidableEq, Repr

structure SyncOptions where
  dryRun : Bool
  overwriteConflicts : Bool
  json : Bool
  deriving DecidableEq, Repr

structure ExportOptions where
  /-- The file to write, in place of the standard output. -/
  output : Option String
  /-- Tabs between cells, in place of commas. -/
  tsv : Bool
  deriving DecidableEq, Repr

inductive Command where
  | check (options : CheckOptions)
  | sync (options : SyncOptions)
  | exportTable (options : ExportOptions)
  | scan
  deriving DecidableEq, Repr

inductive Request where
  | run (overrides : Overrides) (command : Command)
  | completions (shell : Shell)
  | help
  | version
  deriving DecidableEq, Repr

namespace Arguments

/-- A flag as it was given. One that takes no value has the empty value. -/
structure Given where
  flag : Flag
  value : String := ""
  deriving DecidableEq, Repr

/-- The forms of an argument. A single `-` is a word. -/
inductive Form where
  | word
  | separator
  | name (text : List Char)
  | letters (cs : List Char)
  deriving DecidableEq, Repr

def formOf (argument : String) : Form :=
  match argument.toList with
  | ['-', '-'] => .separator
  | '-' :: '-' :: text => .name text
  | '-' :: c :: cs => .letters (c :: cs)
  | _ => .word

/-- The largest number of 64 bits. -/
def maxNumber : Nat := 18446744073709551615

/-- A number of decimal digits, with `+` in front or not. -/
def readNumber? (text : String) : Option Nat :=
  let digits :=
    match text.toList with
    | '+' :: cs => cs
    | cs => cs
  if digits.isEmpty || !digits.all isAsciiDigit then none
  else
    let n := digits.foldl (fun n c => n * 10 + (c.toNat - 48)) 0
    if n ≤ maxNumber then some n else none

/-- A flag with its value, when the value has the shape it must have. -/
def give (flag : Flag) (value : String) : Except UsageFault Given :=
  let fits :=
    match flag.shape with
    | .none => true
    | .text => true
    | .path => !value.isEmpty
    | .number => (readNumber? value).isSome
  if fits then .ok ⟨flag, value⟩ else .error (.badValue flag value)

/-- Flags that an argument gives, and the flag whose value must follow. -/
abbrev Reading := List Given × Option Flag

def readName (known : List Flag) (text : List Char) : Except UsageFault Reading :=
  let name := String.ofList (text.takeWhile (· != '='))
  match known.find? (·.name == name), text.dropWhile (· != '=') with
  | none, _ => .error (.unknownFlag ("--" ++ String.ofList text))
  | some flag, [] =>
    if flag.takesValue then .ok ([], some flag) else .ok ([⟨flag, ""⟩], none)
  | some flag, _ :: value =>
    if flag.takesValue then (give flag (String.ofList value)).map fun g => ([g], none)
    else .error (.needlessValue flag)

/-- Reads what follows a single `-`. The rest of the letters is the value of a flag that takes one,
with `=` in front or not. -/
def readLetters (known : List Flag) : List Char → Except UsageFault Reading
  | [] => .ok ([], none)
  | c :: cs =>
    match known.find? (·.letter? == some c) with
    | none => .error (.unknownFlag (String.ofList ['-', c]))
    | some flag =>
      if flag.takesValue then
        match cs with
        | [] => .ok ([], some flag)
        | '=' :: value => (give flag (String.ofList value)).map fun g => ([g], none)
        | value => (give flag (String.ofList value)).map fun g => ([g], none)
      else if flag.endsReading then .ok ([⟨flag, ""⟩], none)
      else (readLetters known cs).map fun (given, open?) => (⟨flag, ""⟩ :: given, open?)

/-- What a list of arguments gives up to its first word, and the arguments that are left. -/
def readFlags (known : List Flag) (given : List Given) :
    List String → Except UsageFault (List Given × List String)
  | [] => .ok (given, [])
  | argument :: rest =>
    let reading :=
      match formOf argument with
      | .word => none
      | .separator => none
      | .name text => some (readName known text)
      | .letters cs => some (readLetters known cs)
    match reading with
    | none => .ok (given, argument :: rest)
    | some (.error fault) => .error fault
    | some (.ok (more, some flag)) =>
      match rest with
      | [] => .error (.noValue flag)
      | value :: rest =>
        if formOf value = .word then
          match give flag value with
          | .ok g => readFlags known (given ++ more ++ [g]) rest
          | .error fault => .error fault
        else .error (.noValue flag)
    | some (.ok (more, none)) =>
      if more.any (·.flag.endsReading) then .ok (given ++ more, [])
      else readFlags known (given ++ more) rest

def has (given : List Given) (flag : Flag) : Bool :=
  given.any (·.flag == flag)

def values (given : List Given) (flag : Flag) : List String :=
  (given.filter (·.flag == flag)).map Given.value

def value? (given : List Given) (flag : Flag) : Option String :=
  (values given flag).head?

/-- A flag stands once, unless it repeats. -/
def checkRepeats : List Given → Except UsageFault Unit
  | [] => .ok ()
  | g :: rest =>
    if !g.flag.repeats && has rest g.flag then .error (.repeated g.flag) else checkRepeats rest

/-- More and less output cannot be asked for at the same place. -/
def checkConflicts (given : List Given) : Except UsageFault Unit :=
  if has given .quiet && has given .verbose then .error (.conflict .quiet .verbose) else .ok ()

def noWords : List String → Except UsageFault Unit
  | [] => .ok ()
  | word :: rest =>
    if formOf word = .separator then
      match rest with
      | [] => .ok ()
      | word :: _ => .error (.unexpectedWord word)
    else .error (.unexpectedWord word)

def readShell (name : String) : Except UsageFault Shell :=
  match Shell.ofName? name with
  | some shell => .ok shell
  | none => .error (.unknownShell name)

/-- Reads the arguments of a command that takes the name of a shell. Behind `--` all are words. -/
def readShellArguments (known : List Flag) (arguments : List String) :
    Except UsageFault (List Given × Option Shell) := do
  let (given, rest) ← readFlags known [] arguments
  match rest with
  | [] => return (given, none)
  | word :: rest =>
    if formOf word = .separator then
      match rest with
      | [] => return (given, none)
      | [name] => return (given, some (← readShell name))
      | _ :: word :: _ => throw (.unexpectedWord word)
    else
      let shell ← readShell word
      let (given, rest) ← readFlags known given rest
      noWords rest
      return (given, some shell)

/-- Reads the arguments of a command that takes only flags. -/
def readPlainArguments (known : List Flag) (arguments : List String) :
    Except UsageFault (List Given) := do
  let (given, rest) ← readFlags known [] arguments
  noWords rest
  return given

/-- What flags set; flags of a command win over those before it. -/
def overrides (outer inner : List Given) : Overrides :=
  let last (flag : Flag) : Option String := (value? inner flag).or (value? outer flag)
  { configFile := last .config
    sourceDir := last .sourceDir
    catalogDir := last .catalogDir
    defaultLanguage := last .defaultLang
    languages := if has inner .lang then values inner .lang else values outer .lang }

/-- The command that a word and its flags make; asking for a completion script is no command. -/
def command? (given : List Given) : CommandName → Option Command
  | .check =>
    some <| .check
      { fix := has given .fix
        dryRun := has given .dryRun
        json := has given .json
        maxItems := (value? given .maxItems).bind readNumber? }
  | .sync =>
    some <| .sync
      { dryRun := has given .dryRun
        overwriteConflicts := has given .overwriteConflicts
        json := has given .json }
  | .exportTable => some (.exportTable { output := value? given .output, tsv := has given .tsv })
  | .scan => some .scan
  | .completions => none

def readCommand (outer : List Given) (name : CommandName) (arguments : List String) :
    Except UsageFault Request := do
  let (given, shell?) ←
    if name = .completions then readShellArguments name.flags arguments
    else (readPlainArguments name.flags arguments).map fun given => (given, none)
  checkRepeats given
  if has given .help then return .help
  checkConflicts given
  checkConflicts outer
  match command? given name, shell? with
  | some command, _ => return .run (overrides outer given) command
  | none, some shell => return .completions shell
  | none, none => throw .noShell

/-- The word that asks for help, on its own or with the word of a command behind it. -/
def helpWord : String := "help"

def readHelpTopic : List String → Except UsageFault Request
  | [] => .ok .help
  | [word] =>
    if word = helpWord ∨ (CommandName.ofWord? word).isSome then .ok .help
    else .error (.unknownCommand word)
  | _ :: word :: _ => .error (.unknownCommand word)

def read (arguments : List String) : Except UsageFault Request := do
  let (outer, rest) ← readFlags (Flag.version :: Flag.shared) [] arguments
  checkRepeats outer
  if has outer .help then return .help
  if has outer .version then return .version
  match rest with
  | [] => throw .noCommand
  | word :: rest =>
    if word = helpWord then readHelpTopic rest
    else
      match CommandName.ofWord? word with
      | none => throw (.unknownCommand word)
      | some name => readCommand outer name rest

end Arguments

end LocaleAudit
