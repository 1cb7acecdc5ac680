import ExprHost.Text.Blank
import ExprHost.Toolchain.Compilation
import ExprHost.Toolchain.Settings

/-!
# The external compiler

The compiler as a toolchain: each request is written into a scratch directory of its
own, which is given up again whatever happens.

* `Settings.compile`: a request compiled.
* `Settings.libraryDir`: the library directory asked for.
-/

namespace ExprHost.Settings

/-- A request compiled in a scratch directory at a given location. Nothing is run if the
source cannot be written there. -/
def compileIn (s : Settings) (program : Program) (r : Request) (dir : Path) (loc : Location)
    (h : Host) : Except ToolchainError Compilation × Host :=
  let source := dir.join "lib.rs"
  match FileTree.checkPath source with
  | .error e => (.error (.io e.text), h)
  | .ok () =>
    let h := { h with
      tree := h.tree.insert (loc ++ [Utf8.bytes "lib.rs"]) (.file (Utf8.bytes r.source) false) }
    match h.run program (s.command r source dir) with
    | .error e => (.error (.spawn s.program.text e.text), h)
    | .ok (reply, h) =>
      let library := h.tree.read h.workDir (dir.join (Host.libraryName r.crateName))
      (Compilation.ofReply reply library r.references, h)

/-- **A request compiled.** -/
def compile (s : Settings) (program : Program) (r : Request) (h : Host) :
    Except ToolchainError Compilation × Host :=
  match h.makeScratch s.scratchDir with
  | (.error words, h) => (.error (.io words), h)
  | (.ok (dir, loc), h) =>
    let (result, h) := s.compileIn program r dir loc h
    (result, h.remove loc)

/-- The directory that a reply names: what the compiler wrote, without the white space
at its ends. -/
def dirOfReply (reply : Reply) : Except ToolchainError Path :=
  if reply.status.isSuccess then
    match Text.trim (Utf8.lossy reply.stdout) with
    | [] => .error (.unexpectedOutput "empty target-libdir")
    | dir => .ok ⟨String.ofList dir⟩
  else .error (.failed reply.status (String.ofList (Utf8.lossy reply.stderr)))

/-- **The compiler's library directory.** -/
def libraryDir (s : Settings) (program : Program) (h : Host) :
    Except ToolchainError Path × Host :=
  match h.run program s.libraryDirCommand with
  | .error e => (.error (.spawn s.program.text e.text), h)
  | .ok (reply, h) => (dirOfReply reply, h)

/-- The compiler as a toolchain. -/
def toolchain (s : Settings) (program : Program) : Toolchain :=
  ⟨s.compile program, s.libraryDir program⟩

end ExprHost.Settings
