import ExprHost.Path.Parts
import ExprHost.Text.Utf8

/-!
# File trees

Files and directories under one root, with the failures of the operating system. A
location is a list of names from the root; paths are walked from a working directory.

* `FileTree.walk`: where a path leads.
* `FileTree.children?`: the names in a directory.
* `FileTree.makeDir`, `FileTree.createDirs`: directories made.
* `FileTree.put`, `FileTree.erase`: other changes.
-/

namespace ExprHost

/-- A failure of the operating system. -/
inductive OsError
  | notFound
  | permissionDenied
  | alreadyExists
  | notDirectory
  | isDirectory
  | nameTooLong
  | argumentTooLong
  | nulInArgument
  | nulInPath
deriving DecidableEq, Inhabited

/-- The words for a failure. -/
def OsError.text : OsError → String
  | notFound => "No such file or directory (os error 2)"
  | permissionDenied => "Permission denied (os error 13)"
  | alreadyExists => "File exists (os error 17)"
  | notDirectory => "Not a directory (os error 20)"
  | isDirectory => "Is a directory (os error 21)"
  | nameTooLong => "File name too long (os error 36)"
  | argumentTooLong => "Argument list too long (os error 7)"
  | nulInArgument => "nul byte found in provided data"
  | nulInPath => "file name contained an unexpected NUL byte"

/-- The name of an entry, which need not be text. -/
abbrev FileName := Bytes

/-- The names from the root to an entry. -/
abbrev Location := List FileName

/-- What stands at a location. -/
inductive Entry
  | directory
  | file (content : Bytes) (executable : Bool)
deriving DecidableEq, Inhabited

/-- The entries below the root, in the order in which they were made. -/
structure FileTree where
  entries : List (Location × Entry)
deriving DecidableEq, Inhabited

namespace FileTree

/-- What stands at a location. The root is a directory. -/
def entry? (t : FileTree) (loc : Location) : Option Entry :=
  if loc = [] then some .directory else (t.entries.find? (·.1 = loc)).map (·.2)

/-- Whether a location is a directory. -/
def isDir (t : FileTree) (loc : Location) : Bool := t.entry? loc = some .directory

/-- The names in the directory at a location. -/
def children (t : FileTree) (loc : Location) : List FileName :=
  t.entries.filterMap fun p => if p.1.dropLast = loc then p.1.getLast? else none

/-- The tree with an entry at a location where there is none. -/
def insert (t : FileTree) (loc : Location) (e : Entry) : FileTree := ⟨t.entries ++ [(loc, e)]⟩

/-- The tree without a location and all that lies below it. -/
def erase (t : FileTree) (loc : Location) : FileTree :=
  ⟨t.entries.filter fun p => !loc.isPrefixOf p.1⟩

/-- The tree with an entry at a location, whatever stood there before. -/
def put (t : FileTree) (loc : Location) (e : Entry) : FileTree := (t.erase loc).insert loc e

/-- A piece of a path that stays where it is. -/
def stays (piece : FileName) : Bool := piece = [] || piece = Utf8.bytes "."

/-- A piece of a path that leads out of a directory. -/
def leaves (piece : FileName) : Bool := piece = Utf8.bytes ".."

/-- The most bytes that a name can have. -/
def nameLimit : Nat := 255

/-- The most bytes that a path can have. -/
def pathLimit : Nat := 4095

/-- Where pieces of a path lead from a location. Each piece needs a directory. -/
def walk (t : FileTree) : Location → List FileName → Except OsError Location
  | here, [] => .ok here
  | here, piece :: rest =>
    match t.entry? here with
    | none => .error .notFound
    | some (.file ..) => .error .notDirectory
    | some .directory =>
      if stays piece then walk t here rest
      else if leaves piece then walk t here.dropLast rest
      else if nameLimit < piece.length then .error .nameTooLong
      else walk t (here ++ [piece]) rest

/-- The pieces of a path, from the root on. A path that does not begin there goes on
from the working directory. -/
def pieces (workDir p : Path) : List FileName :=
  (Text.splitChar '/' (workDir.absolute p).text.toList).map Utf8.encode

/-- Whether a path can be handed to the system. The empty path leads nowhere. -/
def checkPath (p : Path) : Except OsError Unit :=
  if p.text.toList.contains '\x00' then .error .nulInPath
  else if p.text = "" then .error .notFound
  else if pathLimit < (Utf8.bytes p.text).length then .error .nameTooLong
  else .ok ()

/-- Where a path leads, whether or not something stands there. -/
def locate (t : FileTree) (workDir p : Path) : Except OsError Location := do
  checkPath p
  t.walk [] (pieces workDir p)

/-- What stands where a path leads. -/
def find (t : FileTree) (workDir p : Path) : Except OsError (Location × Entry) := do
  let loc ← t.locate workDir p
  match t.entry? loc with
  | none => .error .notFound
  | some e => .ok (loc, e)

/-- The content of a file. -/
def read (t : FileTree) (workDir p : Path) : Except OsError Bytes := do
  match ← t.find workDir p with
  | (_, .file content _) => .ok content
  | (_, .directory) => .error .isDirectory

/-- The names in the directory a path leads to, if it is one. -/
def children? (t : FileTree) (workDir p : Path) : Option (List FileName) :=
  match t.find workDir p with
  | .ok (loc, .directory) => some (t.children loc)
  | _ => none

/-- Whether a path leads to a directory. -/
def leadsToDir (t : FileTree) (workDir p : Path) : Bool :=
  match t.find workDir p with
  | .ok (_, .directory) => true
  | _ => false

/-- The tree with a new directory at a path. The path has to end in a name; separators
after it do not count. -/
def makeDir (t : FileTree) (workDir p : Path) : Except OsError FileTree := do
  checkPath p
  match (pieces workDir p).reverse.dropWhile List.isEmpty with
  | [] => .error .alreadyExists
  | name :: before =>
    let dir ← t.walk [] (before.reverse ++ [[]])
    if stays name || leaves name then .error .alreadyExists
    else if nameLimit < name.length then .error .nameTooLong
    else
      match t.entry? (dir ++ [name]) with
      | some _ => .error .alreadyExists
      | none => .ok (t.insert (dir ++ [name]) .directory)

/-- The tree with a directory at a path, whether it was there or is made now. -/
def ensureDir (t : FileTree) (workDir p : Path) : Except OsError FileTree :=
  match t.makeDir workDir p with
  | .ok made => .ok made
  | .error e => if e = .alreadyExists ∧ t.leadsToDir workDir p then .ok t else .error e

/-- The directories of a lineage made, as far as they are missing, the farthest first.
Where one cannot be made, those before it stay. -/
def createLineage (t : FileTree) (workDir : Path) :
    List Path → Except OsError Unit × FileTree
  | [] => (.ok (), t)
  | p :: outer =>
    match t.ensureDir workDir p with
    | .ok there => (.ok (), there)
    | .error .notFound =>
      match createLineage t workDir outer with
      | (.error e, t) => (.error e, t)
      | (.ok (), t) =>
        match t.ensureDir workDir p with
        | .ok there => (.ok (), there)
        | .error e => (.error e, t)
    | .error e => (.error e, t)

/-- **The directory at a path made,** with those it lies in. The root and the empty path
are always there. -/
def createDirs (t : FileTree) (workDir p : Path) : Except OsError Unit × FileTree :=
  t.createLineage workDir p.lineage

end FileTree

end ExprHost
