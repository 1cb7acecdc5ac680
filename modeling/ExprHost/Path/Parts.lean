import ExprHost.Path.Basic

/-!
# Parts of paths

The directory a path lies in, its last name, the extension of that name, and a
path made longer by a name.

* `Path.parent?`: the directory a path lies in.
* `Path.lineage`: that directory, the one it lies in, and so on.
* `Path.join`, `Path.absolute`: a path continued by a name, or by a path.
-/

namespace ExprHost.Path

/-- Whether a piece of the text stands for no component. -/
def isIdle (piece : List Char) : Bool := (component? piece).isNone

/-- The pieces before the last one that stands for a component, without the idle
ones at their end; `none` if all are idle. -/
def beforeLast? (pieces : List (List Char)) : Option (List (List Char)) :=
  match pieces.reverse.dropWhile isIdle with
  | [] => none
  | _ :: before => some (before.dropWhile isIdle).reverse

/-- The text of pieces with a separator between neighbours. -/
def unsplit (pieces : List (List Char)) : String := Text.join "/" (pieces.map String.ofList)

/-- The path without its last component, spelled as it began. The root and the empty
path lie in no directory. -/
def parent? (p : Path) : Option Path :=
  match p.text.toList with
  | [] => none
  | '/' :: rest =>
    (beforeLast? (Text.splitChar '/' rest)).map fun pieces => ⟨"/" ++ unsplit pieces⟩
  | text =>
    match Text.splitChar '/' text with
    | [] => none
    | first :: rest =>
      match beforeLast? rest with
      | some pieces => some ⟨unsplit (first :: pieces)⟩
      | none => some ⟨""⟩

/-- A path and the directories it lies in, nearest first, as far as a number of steps
leads. -/
def lineageWithin : Nat → Path → List Path
  | 0, _ => []
  | steps + 1, p =>
    match p.parent? with
    | none => []
    | some dir => p :: lineageWithin steps dir

/-- **A path and the directories it lies in,** nearest first. The root and the empty path,
which lie in no directory, are left out. Each step shortens the text, so its length
bounds their number. -/
def lineage (p : Path) : List Path := lineageWithin p.text.length p

/-- The last component, if it is a name. -/
def fileName? (p : Path) : Option String :=
  match p.components.getLast? with
  | some (.named name) => some name
  | _ => none

/-- What follows the last dot of a name, unless that dot begins the name. -/
def nameExtension? (name : List Char) : Option (List Char) :=
  match name.reverse.dropWhile (· ≠ '.') with
  | [] => none
  | [_] => none
  | _ :: _ => some (name.reverse.takeWhile (· ≠ '.')).reverse

/-- The extension of the last name. -/
def extension? (p : Path) : Option String := do
  let ext ← nameExtension? (← p.fileName?).toList
  return String.ofList ext

/-- The path of an entry of a directory. A separator goes between them unless the
directory is spelled empty or already ends in one. -/
def join (dir : Path) (name : String) : Path :=
  match dir.text.toList.getLast? with
  | none => ⟨name⟩
  | some '/' => ⟨dir.text ++ name⟩
  | some _ => ⟨dir.text ++ "/" ++ name⟩

/-- A path as it is seen from a directory. One that begins at the root stays what it is. -/
def absolute (dir p : Path) : Path :=
  match p.text.toList with
  | '/' :: _ => p
  | _ => dir.join p.text

end ExprHost.Path
