import LocaleAudit.Files
import LocaleAudit.Source.IgnoreRules

namespace LocaleAudit

/-!
# Walking source trees

The walk lists the files below a directory that the ignore files leave in and that match a pattern,
in the order of their components. Directories with excluded names are not entered, whatever the
ignore files say. Ignore files of the directories above count too.
-/

namespace Walk

/-- The ignore files of one directory, and the names that lead from it to the place of the walk. -/
structure Level where
  below : List String
  ignoreRules : List IgnoreRule
  gitRules : List IgnoreRule
  excludeRules : List IgnoreRule
  deriving Repr

def rulesOf (names : List String) (d : Directory) : List IgnoreRule :=
  match d.lookup names with
  | some (.file content) => IgnoreRule.parse content
  | _ => []

def Level.ofDirectory (below : List String) (d : Directory) : Level where
  below := below
  ignoreRules := rulesOf [".ignore"] d
  gitRules := rulesOf [".gitignore"] d
  excludeRules := rulesOf [".git", "info", "exclude"] d

def Level.descend (name : String) (l : Level) : Level :=
  { l with below := l.below ++ [name] }

/-- What the deepest file of one kind with a rule for an entry says. -/
def verdict (rules : Level → List IgnoreRule) (levels : List Level) (name : String)
    (isDirectory : Bool) : Option Bool :=
  levels.findSome? fun l =>
    IgnoreRule.verdict (rules l) ("/".intercalate (l.below ++ [name])) isDirectory

/-- Whether the ignore files, from the deepest directory up, keep an entry. -/
def keeps (levels : List Level) (name : String) (isDirectory : Bool) : Bool :=
  ((verdict Level.ignoreRules levels name isDirectory).or
    ((verdict Level.gitRules levels name isDirectory).or
      (verdict Level.excludeRules levels name isDirectory))).getD true

mutual

/-- The files at an entry that its directory's ignore files keep. -/
def filesAt (excluded : List String) (levels : List Level) (above : List String) (name : String) :
    Node → List (List String)
  | .file _ => if keeps levels name false then [above ++ [name]] else []
  | .directory entries =>
    if keeps levels name true && !excluded.contains name then
      filesBelow excluded (Level.ofDirectory [] entries :: levels.map (·.descend name))
        (above ++ [name]) entries
    else []
termination_by structural n => n

def filesBelow (excluded : List String) (levels : List Level) (above : List String) :
    List (String × Node) → List (List String)
  | [] => []
  | (name, n) :: rest =>
    filesAt excluded levels above name n ++ filesBelow excluded levels above rest
termination_by structural entries => entries

end

/-- The levels of the directories on the way to a directory, the directory itself first. -/
def levelsAbove (root : Directory) (names : List String) : List Level :=
  (List.range (names.length + 1)).reverse.filterMap fun n =>
    match root.lookup (names.take n) with
    | some (.directory d) => some (Level.ofDirectory (names.drop n) d)
    | _ => none

/-- Whether one sequence of names comes before another. -/
def namesLe : List String → List String → Bool
  | [], _ => true
  | _ :: _, [] => false
  | a :: as, b :: bs => a < b || (a == b && namesLe as bs)

end Walk

structure SourceWalker where
  root : String
  includes : List Glob
  excludeDirs : List String
  deriving Repr

namespace SourceWalker

def new (root : String) (includes excludeDirs : List String) : Except Error SourceWalker :=
  match includes.mapM (Glob.parse? .strict) with
  | some includes => .ok ⟨root, includes, excludeDirs⟩
  | none => .error .pattern

/-- The source files below a directory, as names that lead to them, in order. -/
def select (w : SourceWalker) (files : Directory) (names : List String) (d : Directory) :
    List (List String) :=
  let found := Walk.filesBelow w.excludeDirs (Walk.levelsAbove files names) [] d
  let wanted := found.filter fun names =>
    w.includes.any (·.isMatch ("/".intercalate names))
  wanted.mergeSort Walk.namesLe

def files (w : SourceWalker) (files : Directory) : Except Error (List String) :=
  match files.locate w.root with
  | .error _ => .error (.io (.noSourceDirectory w.root))
  | .ok names =>
    match files.lookup names with
    | some (.directory d) =>
      .ok ((w.select files names d).map fun names => Path.join w.root ("/".intercalate names))
    | _ => .error (.io (.noSourceDirectory w.root))

end SourceWalker

end LocaleAudit
