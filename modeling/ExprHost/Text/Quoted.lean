import ExprHost.Text.Hex
import ExprHost.Text.Hidden
import ExprHost.Text.Lines

/-!
# Quoted text

Text and lists of texts as debugging output shows them, on one line or on many.
-/

namespace ExprHost.Text

/-- A character inside quotes. -/
def quoteChar (c : Char) : String :=
  if c = '\x00' then "\\0"
  else if c = '\t' then "\\t"
  else if c = '\r' then "\\r"
  else if c = '\n' then "\\n"
  else if c = '"' then "\\\""
  else if c = '\\' then "\\\\"
  else if isHidden c then "\\u\x7b" ++ Hex.short c.toNat ++ "\x7d"
  else String.ofList [c]

/-- A text inside quotes. -/
def quote (s : String) : String := "\"" ++ join "" (s.toList.map quoteChar) ++ "\""

/-- A list of texts on one line. -/
def quoteList (ss : List String) : String := "[" ++ join ", " (ss.map quote) ++ "]"

/-- A list of texts, one a line, under a given indentation. -/
def quoteListPretty (indent : String) (ss : List String) : String :=
  if ss.isEmpty then "[]"
  else
    "[\n" ++ join "" (ss.map fun s => indent ++ "    " ++ quote s ++ ",\n") ++ indent ++ "]"

end ExprHost.Text
