import ExprHost.Crate.Basic
import ExprHost.Types.Name

/-!
# Type descriptors

What is known of a type: its name, the crate that declares it, how many generic
parameters it declares, its arguments, and the type it is nested in.

* `TypeDesc.crates`: the crates of all descriptors in a descriptor.
* `TypeDesc.chain`: the levels of nesting, outermost first.
-/

namespace ExprHost

/-- A type as the evaluator knows it. Arguments of the nesting levels are held by
the innermost one, for all levels together. -/
structure TypeDesc where
  name : TypeName
  crate : Crate
  params : Nat
  args : List TypeDesc
  declaring : Option TypeDesc
deriving Inhabited

namespace TypeDesc

/-- The character between a generic type's simple name and its number of parameters. -/
def arityMarker : Char := '\x60'

/-- The arity as it is marked on a simple name. -/
def markText (params : Nat) : String := String.ofList [arityMarker] ++ toString params

/-- A type without parameters. -/
def plain (name : TypeName) (crate : Crate) : TypeDesc := ⟨name, crate, 0, [], none⟩

/-- A type with parameters; their number is marked on its name if there are any. -/
def parametric (name : TypeName) (crate : Crate) (params : Nat) : TypeDesc :=
  ⟨if params = 0 then name else name.addSuffix (markText params), crate, params, [], none⟩

/-- The type, declared inside another. -/
def inside (t outer : TypeDesc) : TypeDesc := { t with declaring := some outer }

/-- The type with arguments. -/
def applied (t : TypeDesc) (args : List TypeDesc) : TypeDesc := { t with args }

mutual

/-- The nesting levels of a type, outermost first. -/
def chain : TypeDesc → List TypeDesc
  | ⟨name, crate, params, args, declaring⟩ =>
    chainAbove declaring ++ [⟨name, crate, params, args, declaring⟩]

/-- The nesting levels around a type. -/
def chainAbove : Option TypeDesc → List TypeDesc
  | none => []
  | some outer => chain outer

end

/-- Whether some nesting level has parameters. -/
def isGeneric (t : TypeDesc) : Bool := t.chain.any (0 < ·.params)

mutual

/-- The crates of a type, of the types around it and of its arguments, in this
order, to any depth and with repetitions. -/
def crates : TypeDesc → List Crate
  | ⟨_, crate, _, args, declaring⟩ => crate :: (cratesAbove declaring ++ cratesOfAll args)

/-- The crates of the types around a type. -/
def cratesAbove : Option TypeDesc → List Crate
  | none => []
  | some outer => crates outer

/-- The crates of several types. -/
def cratesOfAll : List TypeDesc → List Crate
  | [] => []
  | t :: ts => crates t ++ cratesOfAll ts

end

mutual

/-- Types are the same when all they are made of is. -/
def same : TypeDesc → TypeDesc → Bool
  | ⟨name, crate, params, args, declaring⟩, ⟨name', crate', params', args', declaring'⟩ =>
    name == name' && crate == crate' && params == params' && sameAll args args' &&
      sameAbove declaring declaring'

/-- The types around two types are the same. -/
def sameAbove : Option TypeDesc → Option TypeDesc → Bool
  | none, none => true
  | some outer, some outer' => same outer outer'
  | _, _ => false

/-- Two lists of types are the same. -/
def sameAll : List TypeDesc → List TypeDesc → Bool
  | [], [] => true
  | t :: ts, t' :: ts' => same t t' && sameAll ts ts'
  | _, _ => false

end

instance : BEq TypeDesc := ⟨same⟩

end TypeDesc

end ExprHost
