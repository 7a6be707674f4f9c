/-!
# Documents, and how they are written as JSON

A document is a tree of plain data, as it is exchanged with other programs: it is written as JSON
or as YAML. A variant is one of several alternatives, with a value of its own.

In JSON, every field and every item stands on a line of its own, two blanks deeper than what holds
it. A variant is a record with its name as the only key.
-/

namespace JavaGraph

/-- A tree of plain data. -/
inductive Document where
  | null
  | bool (value : Bool)
  | number (value : Nat)
  | text (value : String)
  | list (items : List Document)
  | record (fields : List (String × Document))
  | variant (name : String) (value : Document)

end JavaGraph

namespace JavaGraph.Document

/-- A value that may be absent. -/
def ofOption {α : Type} (write : α → Document) : Option α → Document
  | none => .null
  | some value => write value

/-- A list of values. -/
def ofList {α : Type} (write : α → Document) (values : List α) : Document :=
  .list (values.map write)

/-- Blanks in front of a line. -/
def pad (indent : Nat) : String :=
  String.ofList (List.replicate indent ' ')

/-- The hexadecimal digit of a number below 16. -/
def hexDigit (lowercase : Bool) (n : Nat) : Char :=
  if n < 10 then Char.ofNat (48 + n)
  else Char.ofNat ((if lowercase then 87 else 55) + n)

/-- The last `count` hexadecimal digits of a number. -/
def hexDigits (lowercase : Bool) : (count : Nat) → Nat → List Char
  | 0, _ => []
  | count + 1, n => hexDigits lowercase count (n / 16) ++ [hexDigit lowercase (n % 16)]

/-- A character inside a JSON string. -/
def escapeJson (c : Char) : List Char :=
  if c = '"' then ['\\', '"']
  else if c = '\\' then ['\\', '\\']
  else if c = '\n' then ['\\', 'n']
  else if c = '\r' then ['\\', 'r']
  else if c = '\t' then ['\\', 't']
  else if c = '\x08' then ['\\', 'b']
  else if c = '\x0c' then ['\\', 'f']
  else if c.toNat < 0x20 then ['\\', 'u'] ++ hexDigits true 4 c.toNat
  else [c]

/-- A text as a JSON string. -/
def jsonString (text : String) : String :=
  String.ofList ('"' :: text.toList.flatMap escapeJson ++ ['"'])

mutual

/-- A document whose lines after the first one are indented. -/
def jsonAt (indent : Nat) : Document → String
  | .null => "null"
  | .bool value => if value then "true" else "false"
  | .number value => toString value
  | .text value => jsonString value
  | .list items =>
    match items with
    | [] => "[]"
    | item :: rest =>
      "[\n" ++ pad (indent + 2) ++ jsonAt (indent + 2) item ++ jsonItems (indent + 2) rest ++
        "\n" ++ pad indent ++ "]"
  | .record fields =>
    match fields with
    | [] => "\x7b\x7d"
    | (key, value) :: rest =>
      "\x7b\n" ++ pad (indent + 2) ++ jsonString key ++ ": " ++ jsonAt (indent + 2) value ++
        jsonFields (indent + 2) rest ++ "\n" ++ pad indent ++ "\x7d"
  | .variant name value =>
    "\x7b\n" ++ pad (indent + 2) ++ jsonString name ++ ": " ++ jsonAt (indent + 2) value ++
      "\n" ++ pad indent ++ "\x7d"

/-- The items of a list after its first one. -/
def jsonItems (indent : Nat) : List Document → String
  | [] => ""
  | item :: rest => ",\n" ++ pad indent ++ jsonAt indent item ++ jsonItems indent rest

/-- The fields of a record after its first one. -/
def jsonFields (indent : Nat) : List (String × Document) → String
  | [] => ""
  | (key, value) :: rest =>
    ",\n" ++ pad indent ++ jsonString key ++ ": " ++ jsonAt indent value ++
      jsonFields indent rest

end

/-- A document as JSON. -/
def toJson (document : Document) : String :=
  document.jsonAt 0

end JavaGraph.Document
