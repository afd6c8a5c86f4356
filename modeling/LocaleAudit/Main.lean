import LocaleAudit.CommandLine.Commands

namespace LocaleAudit

/-!
# The program

Reads the files that the arguments are about, answers, writes what the answer changed, and prints.
-/

namespace Program

def readExclusions (path : String) : IO Node := do
  let file := Path.join path "info/exclude"
  try
    let content ← IO.FS.readBinFile file
    return .directory [("info", .directory [("exclude", .file content)])]
  catch _ => return .directory []

/-- Reads a file or a directory. Of directories with skipped names only the exclusions of a
repository are read. -/
partial def readNode (skipped : List String) (path : String) : IO Node := do
  let place ← IO.FS.realPath path
  if ← place.isDir then
    let mut entries := []
    for entry in ← place.readDir do
      let below := Path.join path entry.fileName
      try
        let node ←
          if skipped.contains entry.fileName && (← entry.path.isDir) then readExclusions below
          else readNode skipped below
        entries := (entry.fileName, node) :: entries
      catch _ => continue
    return .directory entries
  else return .file (← IO.FS.readBinFile path)

def isDirectory (path : String) : IO Bool := do
  try (← IO.FS.realPath path).isDir catch _ => return false

/-- Puts what lies at a path into a tree, when it is there. -/
def place (files : Directory) (path : String) (read : IO Node) : IO Directory := do
  try
    let node ← read
    match files.locate path with
    | .ok names => return if names.isEmpty then files else files.insert node names
    | .error _ => return files
  catch _ => return files

/-- The paths of the directories that lead to a path, the shortest first. -/
def ways (path : String) : List String :=
  let pieces := Path.pieces path
  (List.range pieces.length).map fun n => "/" ++ "/".intercalate (pieces.take n)

/-- Puts the directories that lead to a path into a tree, with the ignore files in them. -/
def placeWay (files : Directory) (path : String) : IO Directory := do
  let mut files := files
  for way in ways path do
    if ← isDirectory way then
      if let .ok made := files.ensureDirectory way then files := made
      for name in [".ignore", ".gitignore"] do
        let file := Path.join way name
        files ← place files file (.file <$> IO.FS.readBinFile file)
      let repository := Path.join way ".git"
      if ← isDirectory repository then
        files ← place files repository (readExclusions repository)
  return files

/-- Puts a file or directory and the way to it into a tree. -/
def placeAll (skipped : List String) (files : Directory) (path : String) : IO Directory := do
  let files ← placeWay files path
  place files path (readNode skipped path)

/-- Puts a file, or a directory without its entries, and the way to it into a tree. -/
def placeTop (files : Directory) (path : String) : IO Directory := do
  let files ← placeWay files path
  place files path (do
    if ← isDirectory path then return .directory []
    else return .file (← IO.FS.readBinFile path))

def readFiles (workingDir : String) (overrides : Overrides) (command : Command) :
    IO Directory := do
  let configFile := overrides.configFile.getD Settings.defaultConfigFile
  let files ← placeTop [] (Path.join workingDir configFile)
  match Settings.resolve files workingDir overrides with
  | .error _ => return files
  | .ok config =>
    let mut files := files
    if let .exportTable { output := some output, .. } := command then
      files ← placeTop files (Path.join workingDir output)
    files ← placeAll config.excludeDirs files config.sourceDir
    placeAll [] files config.catalogDir

/-- Writes what one tree has and another lacks. -/
partial def store (path : String) (before : Option Node) (after : Node) : IO Unit := do
  match after with
  | .file content =>
    if let some (.file old) := before then
      if old.data == content.data then return
    IO.FS.writeBinFile path content
  | .directory entries =>
    unless before.any Node.isDirectory do IO.FS.createDirAll path
    let old : Directory :=
      match before with
      | some (.directory old) => old
      | _ => []
    for (name, node) in entries do store (Path.join path name) (old.get? name) node

end Program

end LocaleAudit

open LocaleAudit in
def main (arguments : List String) : IO UInt32 := do
  let workingDir := (← IO.currentDir).toString
  let files ←
    match Arguments.read arguments with
    | .ok (.run overrides command) => Program.readFiles workingDir overrides command
    | _ => pure []
  let response := Response.ofArguments files workingDir arguments
  Program.store "/" (some (.directory files)) (.directory response.files)
  IO.print response.output
  IO.eprint response.notices
  return response.exitCode.toUInt32
