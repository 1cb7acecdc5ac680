import ExprHost.Text.Lines

/-!
# Qualified names

A name is a simple name with the modules around it, outermost first.

* `TypeName.ofPath`: a name from its spelling, empty segments dropped.
* `TypeName.text`: the spelling of a name.
-/

namespace ExprHost

/-- A name inside the modules that hold it. -/
structure TypeName where
  modules : List String
  simple : String
deriving DecidableEq, Inhabited

namespace TypeName

/-- A name that lies in no module, whatever its text. -/
def global (name : String) : TypeName := ⟨[], name⟩

/-- The non-empty segments of a spelling; the empty name if there are none. -/
def ofPath (path : String) : TypeName :=
  let segments := ((Text.splitColons path.toList).filter (· ≠ [])).map String.ofList
  ⟨segments.dropLast, segments.getLast?.getD ""⟩

/-- All segments, the simple name last. -/
def segments (n : TypeName) : List String := n.modules ++ [n.simple]

/-- The spelling of the modules. -/
def modulePath (n : TypeName) : String := Text.join "::" n.modules

/-- The full spelling. -/
def text (n : TypeName) : String := Text.join "::" n.segments

/-- Whether the name lies in no module. -/
def isGlobal (n : TypeName) : Bool := n.modules.isEmpty

/-- The name with more text at the end of its simple name. -/
def addSuffix (n : TypeName) (suffix : String) : TypeName := { n with simple := n.simple ++ suffix }

/-- Names segment by segment; a name comes before those it begins. -/
instance : Ord TypeName := ⟨compareOn segments⟩

theorem segments_injective {m n : TypeName} (h : m.segments = n.segments) : m = n := by
  cases m; cases n
  have := List.append_inj' h rfl
  simp_all

end TypeName

end ExprHost
