import Consequence.Report.Outcome

/-!
# Writing documents

A document is written as a JSON object in an indented layout: one field a line, in the given order, and
the members of a list or of an inner object on lines of their own.
-/

set_option autoImplicit false

namespace Consequence.Document

/-- One character inside a JSON string. -/
def escapeChar (c : Char) : List Char :=
  if c = '"' then ['\\', '"']
  else if c = '\\' then ['\\', '\\']
  else if c = '\n' then ['\\', 'n']
  else if c = '\r' then ['\\', 'r']
  else if c = '\t' then ['\\', 't']
  else if c.val = 0x08 then ['\\', 'b']
  else if c.val = 0x0C then ['\\', 'f']
  else if c.val < 0x20 then
    ['\\', 'u', '0', '0', Nat.digitChar (c.toNat / 16), Nat.digitChar (c.toNat % 16)]
  else [c]

/-- A JSON string. -/
def quoted (s : String) : String :=
  "\"" ++ String.ofList (s.toList.flatMap escapeChar) ++ "\""

/-- Members between two brackets, each on a line of its own, indented one step deeper than the
brackets, which stand at `indent`. Without members nothing stands between the brackets. -/
def block (indent first last : String) (members : List String) : String :=
  if members.isEmpty then first ++ last
  else
    let step := "\n" ++ indent ++ "  "
    first ++ step ++ ("," ++ step).intercalate members ++ "\n" ++ indent ++ last

/-- The value of a field of the outer object. -/
def value : FieldValue → String
  | .text s => quoted s
  | .number n => toString n
  | .texts items => block "  " "[" "]" (items.map quoted)
  | .truths members =>
    block "  " "\x7b" "\x7d" (members.map fun (name, b) => quoted name ++ ": " ++ truthWord b)

/-- The document with the given fields. -/
def render (fields : List (String × FieldValue)) : String :=
  block "" "\x7b" "\x7d" (fields.map fun (name, v) => quoted name ++ ": " ++ value v)

end Consequence.Document
