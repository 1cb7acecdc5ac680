import ExprHost.Types.Desc

/-!
# Types as source text

The spelling of a type: its nesting levels joined by `::`, each followed by the
arguments it takes from the ones that the innermost level holds.

* `TypeDesc.render`: the spelling.
* `TypeDesc.render?`: the spelling, if there is room for the arguments of every level.
* `stripMark_append`: a mark at the end of a name is what is taken off.
-/

namespace ExprHost.TypeDesc

/-- A simple name without its arity, if it ends in the marker and decimal digits. -/
def stripMark (name : List Char) : List Char :=
  let back := name.reverse
  match back.dropWhile Char.isDigit with
  | [] => name
  | c :: front => if c = arityMarker ∧ back.takeWhile Char.isDigit ≠ [] then front.reverse else name

/-- A string without its arity. -/
def stripArity (name : String) : String := String.ofList (stripMark name.toList)

/-- One level: its name, and its arguments if it has any. -/
def level (name : String) (args : List String) : String :=
  if args.isEmpty then stripArity name else stripArity name ++ "<" ++ Text.join ", " args ++ ">"

mutual

/-- The nesting levels of a type, filled from a pool of spelled arguments, outermost
first; and what is left of the pool. -/
def fill : TypeDesc → List String → String × List String
  | ⟨name, _, params, _, declaring⟩, pool =>
    let (outer, left) := fillAbove declaring pool
    (outer ++ level name.simple (left.take params), left.drop params)

/-- The levels around a type, with the separator after them. -/
def fillAbove : Option TypeDesc → List String → String × List String
  | none, pool => ("", pool)
  | some outer, pool =>
    let (text, left) := fill outer pool
    (text ++ "::", left)

end

mutual

/-- **The spelling of a type.** A pool that runs out leaves later levels without
arguments, and arguments that no level takes are dropped. -/
def render : TypeDesc → String
  | ⟨name, crate, params, args, declaring⟩ =>
    (fill ⟨name, crate, params, args, declaring⟩ (renderAll args)).1

/-- The spellings of several types. -/
def renderAll : List TypeDesc → List String
  | [] => []
  | t :: ts => render t :: renderAll ts

end

/-- The bytes that one level asks for to hold its arguments, before it knows how
many there are: a string takes 24. -/
def reservedBytes (t : TypeDesc) : Nat := 24 * t.params

/-- The most bytes that can be asked for at once. -/
def reservationLimit : Nat := Nat.pow 2 63 - 1

/-- Whether a level can have the room that it asks for. -/
def hasRoom (t : TypeDesc) : Bool := t.reservedBytes ≤ reservationLimit

mutual

/-- The nesting levels of a type, filled as `fill` fills them, from a pool of arguments that
may lack their spellings. Nothing comes of it if a level asks for more room than there can
be, or takes an argument that has no spelling. -/
def fill? : TypeDesc → List (Option String) → Option (String × List (Option String))
  | ⟨name, crate, params, args, declaring⟩, pool =>
    match fillAbove? declaring pool with
    | none => none
    | some (outer, left) =>
      if hasRoom ⟨name, crate, params, args, declaring⟩ then
        ((left.take params).mapM id).map fun taken =>
          (outer ++ level name.simple taken, left.drop params)
      else none

/-- The levels around a type, filled likewise, with the separator after them. -/
def fillAbove? : Option TypeDesc → List (Option String) → Option (String × List (Option String))
  | none, pool => some ("", pool)
  | some outer, pool => (fill? outer pool).map fun (text, left) => (text ++ "::", left)

end

mutual

/-- **The spelling of a type, if there is room for it.** Each level asks for the room of all
arguments that it declares, and only then takes the ones that there are. -/
def render? : TypeDesc → Option String
  | ⟨name, crate, params, args, declaring⟩ =>
    (fill? ⟨name, crate, params, args, declaring⟩ (renderAll? args)).map (·.1)

/-- The spellings of several types, of those that have one. -/
def renderAll? : List TypeDesc → List (Option String)
  | [] => []
  | t :: ts => render? t :: renderAll? ts

end

theorem renderAll?_eq_map (ts : List TypeDesc) : renderAll? ts = ts.map render? := by
  induction ts with
  | nil => rfl
  | cons t ts ih => simp [renderAll?, ih]

theorem renderAll_eq_map (ts : List TypeDesc) : renderAll ts = ts.map render := by
  induction ts with
  | nil => rfl
  | cons t ts ih => simp [renderAll, ih]

/-- **A mark at the end of a name is taken off,** whatever stands before it. -/
theorem stripMark_append (name : List Char) {digits : List Char} (hne : digits ≠ [])
    (hdig : ∀ c ∈ digits, c.isDigit = true) :
    stripMark (name ++ arityMarker :: digits) = name := by
  have hback : (name ++ arityMarker :: digits).reverse =
      digits.reverse ++ arityMarker :: name.reverse := by
    simp
  have hrev : ∀ c ∈ digits.reverse, c.isDigit = true := by
    intro c hc
    exact hdig c (List.mem_reverse.1 hc)
  have hmark : Char.isDigit arityMarker = false := by decide
  simp only [stripMark, hback]
  rw [List.dropWhile_append_of_pos hrev, List.takeWhile_append_of_pos hrev]
  simp [hmark, List.dropWhile, List.takeWhile, hne]

/-- The characters that mark an arity: the marker and its decimal digits. -/
theorem toList_markText (params : Nat) :
    (markText params).toList = arityMarker :: Nat.toDigits 10 params := by
  simp [markText, toString]

/-- Marking an arity and stripping it are inverse, whatever the name holds. -/
theorem stripMark_append_mark (name : List Char) (params : Nat) :
    stripMark (name ++ (markText params).toList) = name := by
  rw [toList_markText]
  refine stripMark_append name Nat.toDigits_ne_nil ?_
  intro c hc
  exact Nat.isDigit_of_mem_toDigits (by decide) (by decide) hc

end ExprHost.TypeDesc
