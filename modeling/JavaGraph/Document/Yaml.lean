import JavaGraph.Document.Scalar
/-!
# Documents as YAML

Fields and items stand on lines of their own. The fields of a nested record are two blanks deeper
than its key, the items of a list are as deep as its key, and a variant is written with its name
as a tag. An empty list is written in brackets.
-/

namespace JavaGraph.Document

/-- Whether written text ends with a line end, so that the next line needs none. -/
def endsLine (written : String) : Bool :=
  written.toList.getLast?.any isBreak

/-- Written text with another line behind it. -/
def onNextLine (written next : String) : String :=
  if endsLine written then written ++ next else written ++ "\n" ++ next

mutual

/-- What follows a key at an indentation, or the tag of a variant behind a key. -/
def yamlValue (indent : Nat) : Document → String
  | .null => " null"
  | .bool value => if value then " true" else " false"
  | .number value => " " ++ toString value
  | .text value => " " ++ yamlText indent value
  | .list items =>
    match items with
    | [] => " []"
    | item :: rest => onNextLine ("\n" ++ yamlItem indent item) (yamlItems indent rest)
  | .record fields =>
    match fields with
    | [] => " \x7b\x7d"
    | (key, value) :: rest =>
      onNextLine ("\n" ++ pad (indent + 2) ++ key ++ ":" ++ yamlValue (indent + 2) value)
        (yamlFields (indent + 2) rest)
  | .variant name value => " !" ++ name ++ yamlValue indent value

/-- One item of a list at an indentation. -/
def yamlItem (indent : Nat) : Document → String
  | .record fields =>
    match fields with
    | [] => pad indent ++ "- \x7b\x7d"
    | (key, value) :: rest =>
      onNextLine (pad indent ++ "- " ++ key ++ ":" ++ yamlValue (indent + 2) value)
        (yamlFields (indent + 2) rest)
  | .null => pad indent ++ "- null"
  | .bool value => pad indent ++ (if value then "- true" else "- false")
  | .number value => pad indent ++ "- " ++ toString value
  | .text value => pad indent ++ "- " ++ yamlText indent value
  | .list items =>
    match items with
    | [] => pad indent ++ "- []"
    | item :: rest =>
      onNextLine (pad indent ++ "-\n" ++ yamlItem (indent + 2) item) (yamlItems (indent + 2) rest)
  | .variant name value => pad indent ++ "- !" ++ name ++ yamlValue indent value

/-- Items of a list at an indentation, each on a line of its own. -/
def yamlItems (indent : Nat) : List Document → String
  | [] => ""
  | item :: rest => onNextLine (yamlItem indent item) (yamlItems indent rest)

/-- Fields of a record at an indentation, each on a line of its own. -/
def yamlFields (indent : Nat) : List (String × Document) → String
  | [] => ""
  | (key, value) :: rest =>
    onNextLine (pad indent ++ key ++ ":" ++ yamlValue indent value) (yamlFields indent rest)

end

/-- A document as YAML; a record's fields begin at the left edge. -/
def toYaml : Document → String
  | .record fields => yamlFields 0 fields
  | document => onNextLine (yamlItem 0 document) ""

end JavaGraph.Document
