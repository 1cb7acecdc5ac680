import ExprHost.Json.Token

/-!
# JSON values

The second half of reading JSON: a machine that takes one token at a time and keeps
the containers that are still open on a stack, so that nesting has no limit.

* `Json.ofTokens?`: the value that tokens stand for.
* `Json.parse?`: the value of a whole text.
-/

namespace ExprHost

/-- A JSON value. Members keep their order and their repetitions. -/
inductive Json
  | null
  | bool (b : Bool)
  | number (text : List Char)
  | string (pieces : List Json.Piece)
  | array (items : List Json)
  | object (members : List (List Json.Piece × Json))
deriving Inhabited

namespace Json

/-- A container that is still open, with what it holds so far, last first. -/
inductive Frame
  | array (items : List Json)
  | object (members : List (List Piece × Json)) (key : List Piece)

/-- What may come next. -/
inductive Reader
  /-- A value. -/
  | value (outer : List Frame)
  /-- The first item of an array, or its end. -/
  | firstItem (outer : List Frame)
  /-- A comma or the end, after an item. -/
  | afterItem (items : List Json) (outer : List Frame)
  /-- The first key of an object, or its end. -/
  | firstKey (outer : List Frame)
  /-- A key. -/
  | nextKey (members : List (List Piece × Json)) (outer : List Frame)
  /-- A colon. -/
  | colon (members : List (List Piece × Json)) (key : List Piece) (outer : List Frame)
  /-- A comma or the end, after a member. -/
  | afterMember (members : List (List Piece × Json)) (outer : List Frame)
  /-- Nothing more. -/
  | done (v : Json)

namespace Reader

/-- A value is complete and goes into the innermost open container. -/
def complete (v : Json) : List Frame → Reader
  | [] => .done v
  | .array items :: outer => .afterItem (v :: items) outer
  | .object members key :: outer => .afterMember ((key, v) :: members) outer

/-- The token that begins a value. -/
def begin? (outer : List Frame) : Token → Option Reader
  | .openArray => some (.firstItem outer)
  | .openObject => some (.firstKey outer)
  | .null => some (complete .null outer)
  | .bool b => some (complete (.bool b) outer)
  | .number text => some (complete (.number text) outer)
  | .string pieces => some (complete (.string pieces) outer)
  | _ => none

/-- One token; `none` if it may not come here. -/
def step? : Reader → Token → Option Reader
  | .value outer, t => begin? outer t
  | .firstItem outer, .closeArray => some (complete (.array []) outer)
  | .firstItem outer, t => begin? (.array [] :: outer) t
  | .afterItem items outer, .comma => some (.value (.array items :: outer))
  | .afterItem items outer, .closeArray => some (complete (.array items.reverse) outer)
  | .firstKey outer, .closeObject => some (complete (.object []) outer)
  | .firstKey outer, .string key => some (.colon [] key outer)
  | .nextKey members outer, .string key => some (.colon members key outer)
  | .colon members key outer, .colon => some (.value (.object members key :: outer))
  | .afterMember members outer, .comma => some (.nextKey members outer)
  | .afterMember members outer, .closeObject => some (complete (.object members.reverse) outer)
  | _, _ => none

/-- All tokens, one after another. -/
def run? (r : Reader) (ts : List Token) : Option Reader := ts.foldlM step? r

end Reader

/-- The value that tokens stand for. -/
def ofTokens? (ts : List Token) : Option Json :=
  match Reader.run? (.value []) ts with
  | some (.done v) => some v
  | _ => none

/-- **The value of a text** that holds one value and spaces. -/
def parse? (cs : List Char) : Option Json := (Token.scan cs).bind ofTokens?

end Json

end ExprHost
