/-
  Writing JSON.

  `Json.compact` writes without spaces; `Json.pretty n` puts every item and field
  on a line of its own, indented by `n` spaces for each level.  Strings escape the
  quotation mark, the backslash and the control characters below U+0020, nothing
  else.
-/
import SchemaTypes.Json
import SchemaTypes.Binary64.Shortest
import SchemaTypes.Text.Digit

namespace SchemaTypes

open Text

/-- The text of a number: integers plainly, doubles by their shortest decimal. -/
def Number.text : Number → String
  | integer n => toString n
  | double x => x.text

namespace Json

/-- The written form of one character of a string. -/
def escapeChar (c : Char) : List Char :=
  if c = '"' then ['\\', '"']
  else if c = '\\' then ['\\', '\\']
  else if c = '\x08' then ['\\', 'b']
  else if c = '\t' then ['\\', 't']
  else if c = '\n' then ['\\', 'n']
  else if c = '\x0c' then ['\\', 'f']
  else if c = '\r' then ['\\', 'r']
  else if c.toNat < 0x20 then
    ['\\', 'u', '0', '0', hexDigit 'a' (c.toNat / 16), hexDigit 'a' (c.toNat % 16)]
  else [c]

/-- A string between quotation marks. -/
def quote (s : String) : String :=
  "\"" ++ String.ofList (s.toList.flatMap escapeChar) ++ "\""

mutual

/-- The value on one line, without spaces. -/
def compact : Json → String
  | null => "null"
  | bool b => if b then "true" else "false"
  | number n => n.text
  | string s => quote s
  | array items => "[" ++ compactItems true items ++ "]"
  | object fields => "\x7b" ++ compactFields true fields ++ "\x7d"

/-- Items, each but the first after a comma. -/
def compactItems (first : Bool) : List Json → String
  | [] => ""
  | v :: rest => (if first then "" else ",") ++ compact v ++ compactItems false rest

/-- Fields, each but the first after a comma. -/
def compactFields (first : Bool) : List (String × Json) → String
  | [] => ""
  | (k, v) :: rest =>
    (if first then "" else ",") ++ quote k ++ ":" ++ compact v ++ compactFields false rest

end

/-- A line break and the indentation of a level. -/
def lineBreak (indent level : Nat) : String :=
  "\n" ++ String.ofList (List.replicate (indent * level) ' ')

mutual

/-- The value over several lines, the inner ones at `level + 1`. -/
def prettyAt (indent level : Nat) : Json → String
  | null => "null"
  | bool b => if b then "true" else "false"
  | number n => n.text
  | string s => quote s
  | array [] => "[]"
  | array (v :: rest) =>
    "[" ++ lineBreak indent (level + 1) ++ prettyAt indent (level + 1) v ++
      prettyItems indent (level + 1) rest ++ lineBreak indent level ++ "]"
  | object [] => "\x7b\x7d"
  | object ((k, v) :: rest) =>
    "\x7b" ++ lineBreak indent (level + 1) ++ quote k ++ ": " ++ prettyAt indent (level + 1) v ++
      prettyFields indent (level + 1) rest ++ lineBreak indent level ++ "\x7d"

/-- The items after the first. -/
def prettyItems (indent level : Nat) : List Json → String
  | [] => ""
  | v :: rest =>
    "," ++ lineBreak indent level ++ prettyAt indent level v ++ prettyItems indent level rest

/-- The fields after the first. -/
def prettyFields (indent level : Nat) : List (String × Json) → String
  | [] => ""
  | (k, v) :: rest =>
    "," ++ lineBreak indent level ++ quote k ++ ": " ++ prettyAt indent level v ++
      prettyFields indent level rest

end

/-- The value over several lines, each level indented by `indent` spaces. -/
def pretty (indent : Nat) (v : Json) : String := prettyAt indent 0 v

end Json

end SchemaTypes
