import LocaleAudit.CommandLine.Flags

namespace LocaleAudit

/-!
# Help

Texts about the program itself: its commands and flags, its version, and scripts that complete the
words of commands in a shell.
-/

namespace Help

def programName : String := "catalint"

def versionLine : String := s!"{programName} 0.1.0"

def purpose : CommandName → String
  | .check => "Check catalogs against the default language and the source code"
  | .sync => "Add marked placeholders for keys missing from non-default languages"
  | .exportTable => "Export every key as rows of namespace, path and one column per language"
  | .scan => "List probable hard-coded user-facing text in source files"
  | .completions => "Print a shell completion script"

def flagText (f : Flag) : String :=
  let value :=
    match f.shape with
    | .none => ""
    | .text => " <LANG>"
    | .path => " <PATH>"
    | .number => " <N>"
  match f.letter? with
  | some letter => s!"-{letter}, --{f.name}{value}"
  | none => s!"--{f.name}{value}"

def commandLines (c : CommandName) : List String :=
  s!"  {c.word}: {purpose c}" :: c.ownFlags.map fun f => s!"      {flagText f}"

def usage : String :=
  "\n".intercalate <|
    [s!"Usage: {programName} [OPTIONS] <COMMAND>", "", "Commands:"] ++
    CommandName.all.flatMap commandLines ++
    ["", "Options:"] ++
    (Flag.version :: Flag.shared).map fun f => s!"  {flagText f}"

def commandWords : String :=
  " ".intercalate (CommandName.all.map CommandName.word)

/-- A script that completes the word of a command. -/
def completionScript : Shell → String
  | .bash => s!"complete -W \"{commandWords}\" {programName}\n"
  | .elvish =>
    s!"set edit:completion:arg-completer[{programName}] = \x7b|@words| put {commandWords} \x7d\n"
  | .fish => s!"complete -c {programName} -f -a \"{commandWords}\"\n"
  | .powershell =>
    s!"Register-ArgumentCompleter -Native -CommandName {programName} -ScriptBlock \x7b " ++
      s!"param($word) -split \"{commandWords}\" | Where-Object \x7b $_ -like \"$word*\" \x7d \x7d\n"
  | .zsh => s!"#compdef {programName}\n_arguments \"1: :({commandWords})\"\n"

end Help

end LocaleAudit
