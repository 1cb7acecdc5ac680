import ExprHost.Text.Quoted
import ExprHost.Text.Utf8

/-!
# Binary images

A compiled library in memory, with the names of the libraries it needs when loaded.
-/

namespace ExprHost

/-- The bytes of a library and the names of what it depends on. -/
structure Image where
  bytes : Bytes
  dependencies : List String
deriving DecidableEq, Inhabited

namespace Image

/-- The number of bytes. -/
def size (i : Image) : Nat := i.bytes.length

/-- Whether there are no bytes. -/
def isEmpty (i : Image) : Bool := i.bytes.isEmpty

/-- The image in debugging output, on one line. The bytes are only counted. -/
def debugText (i : Image) : String :=
  "BinaryImage \x7b len: " ++ toString i.size ++ ", dependencies: " ++
    Text.quoteList i.dependencies ++ " \x7d"

/-- The image in debugging output, one field a line. -/
def prettyText (i : Image) : String :=
  "BinaryImage \x7b\n    len: " ++ toString i.size ++ ",\n    dependencies: " ++
    Text.quoteListPretty "    " i.dependencies ++ ",\n\x7d"

end Image

end ExprHost
