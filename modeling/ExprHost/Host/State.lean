import ExprHost.Host.Status
import ExprHost.Host.TempEntry

/-!
# The host

What the process around the evaluators holds: its files, where it looks for what is asked for by
name, the next sequence number of a request, the number of live scopes, and the programs it has
run.

* `Host.startable`: whether a program can be started, which is searched for if need be.
* `Host.run`: an external program, run on a command.
* `Host.makeScratch`, `Host.stage`: temporary directories and files.
-/

namespace ExprHost

/-- A program to be run, with its arguments. -/
structure Command where
  program : Path
  args : List String
deriving Inhabited

/-- What a program is given: its arguments, and the content of the file that the last
of them names, if it names one. -/
structure Launch where
  args : List String
  source : Option Bytes
deriving DecidableEq, Inhabited

/-- What a program does: what it writes, how it ends, and the library it leaves in its
output directory. -/
structure Reply where
  stdout : Bytes
  stderr : Bytes
  status : ExitStatus
  artifact : Option Entry
deriving Inhabited

/-- An external program: what it does is settled by what it is given. -/
abbrev Program := Launch → Reply

/-- The state of the process. -/
structure Host where
  tree : FileTree
  /-- The working directory, seen from the root. -/
  workDir : Path
  /-- Where temporary entries go unless another directory is asked for. -/
  tempDir : Path
  /-- The directories that programs are searched for in, the empty one being the working
  directory. -/
  searchPath : List Path
  /-- Where the platform's loader finds a library that is asked for by a bare name. -/
  libraries : String → Option Path
  temp : TempLibrary
  /-- The sequence number of the next request. -/
  nextUnit : UInt64
  /-- Loads less releases. An integer, so that a release too many would show. -/
  live : Int
  /-- The programs run so far, in order. -/
  launches : List Launch
deriving Inhabited

namespace Host

/-- What is in a directory. -/
def listing (h : Host) (dir : Path) : Option (List FileName) := h.tree.children? h.workDir dir

/-! ## Running programs -/

/-- Whether a program can be started from the file at a path. -/
def executable (h : Host) (p : Path) : Except OsError Unit :=
  match h.tree.find h.workDir p with
  | .error e => .error e
  | .ok (_, .file _ true) => .ok ()
  | .ok _ => .error .permissionDenied

/-- The path of a program in a directory that is searched. -/
def candidate (name : String) (dir : Path) : Path :=
  if dir.text = "" then ⟨name⟩ else ⟨dir.text ++ "/" ++ name⟩

/-- The paths that a program can be started from, in the order in which they are tried. Only a name
without a separator is searched for. -/
def lookups (h : Host) (program : Path) : List Path :=
  if program.text.toList.contains '/' then [program]
  else h.searchPath.map (candidate program.text)

/-- Whether a search goes on after a failure: what was there, if anything, was no program. -/
def passedOver (e : OsError) : Bool := e = .notFound || e = .notDirectory || e = .permissionDenied

/-- A search over some paths, after a failure. If there is no program at any of them the last
failure counts, unless one was for want of permission. -/
def search (h : Host) : OsError → List Path → Except OsError Unit
  | failure, [] => .error failure
  | failure, p :: rest =>
    match h.executable p with
    | .ok () => .ok ()
    | .error e =>
      if passedOver e then h.search (if failure = .permissionDenied then failure else e) rest
      else .error e

/-- **Whether a program can be started.** -/
def startable (h : Host) (program : Path) : Except OsError Unit :=
  if program.text.toList.contains '/' then h.executable program
  else if program.text = "" then .error .notFound
  else if FileTree.nameLimit < (Utf8.bytes program.text).length then .error .nameTooLong
  else h.search .notFound (h.lookups program)

/-- The options of a compiler that are followed by a value. -/
def valueOptions : List String :=
  ["--crate-type", "--crate-name", "--edition", "-C", "--out-dir", "--extern", "-L"]

/-- The value of an option where it is first given. What follows an option that takes a
value is no option itself. -/
def optionValue? (option : String) : List String → Option String
  | [] => none
  | [_] => none
  | o :: v :: rest =>
    if valueOptions.contains o then
      if o = option then some v else optionValue? option rest
    else optionValue? option (v :: rest)

/-- The file name of the library of a crate. -/
def libraryName (crate : String) : String := "lib" ++ crate ++ ".so"

/-- Where a compiler run with some arguments leaves its library. -/
def artifactPath? (args : List String) : Option Path := do
  let dir ← optionValue? "--out-dir" args
  let crate ← optionValue? "--crate-name" args
  return Path.join ⟨dir⟩ (libraryName crate)

/-- The files after a program has left its library. -/
def withArtifact (h : Host) (args : List String) : Option Entry → Host
  | none => h
  | some e =>
    match (artifactPath? args).map (h.tree.locate h.workDir) with
    | some (.ok loc) => { h with tree := h.tree.put loc e }
    | _ => h

/-- What a program is given on a command. -/
def launch (h : Host) (c : Command) : Launch :=
  ⟨c.args, (c.args.getLast?.map fun last => h.tree.read h.workDir ⟨last⟩).bind Except.toOption⟩

/-- The most bytes that an argument can have. -/
def argumentLimit : Nat := 131071

/-- **Runs a program.** Texts that hold NUL cannot be passed on at all, and an argument
that is too long is found out once the program has been found. -/
def run (h : Host) (program : Program) (c : Command) : Except OsError (Reply × Host) :=
  if (c.program.text :: c.args).any (·.toList.contains '\x00') then .error .nulInArgument
  else
    match h.startable c.program with
    | .error e => .error e
    | .ok () =>
      if c.args.any fun arg => argumentLimit < (Utf8.bytes arg).length then .error .argumentTooLong
      else
        let l := h.launch c
        let reply := program l
        .ok (reply, withArtifact { h with launches := h.launches ++ [l] } c.args reply.artifact)

/-! ## Temporary entries -/

/-- A new directory in a directory, which has to be there; its path and its location. -/
def scratchIn (h : Host) (dir : Path) : Except String (Path × Location) × Host :=
  match h.tree.tempEntry h.temp h.workDir dir .scratch with
  | .error words => (.error words, h)
  | .ok (path, loc) => (.ok (path, loc), { h with tree := h.tree.insert loc .directory })

/-- A new directory in a parent directory, which is made if it is asked for by name. -/
def makeScratch (h : Host) (parent : Option Path) : Except String (Path × Location) × Host :=
  match parent with
  | none => h.scratchIn h.tempDir
  | some dir =>
    match h.tree.createDirs h.workDir dir with
    | (.error e, tree) => (.error e.text, { h with tree })
    | (.ok (), tree) => { h with tree }.scratchIn dir

/-- A new file in a directory, which has to be there; its location. -/
def stage (h : Host) (dir : Option Path) (content : Bytes) : Except String (Location × Host) := do
  let (_, loc) ← h.tree.tempEntry h.temp h.workDir (dir.getD h.tempDir) .image
  return (loc, { h with tree := h.tree.insert loc (.file content false) })

/-- The host after a temporary entry has been given up. -/
def remove (h : Host) (loc : Location) : Host := { h with tree := h.temp.remove h.tree loc }

end Host

end ExprHost
