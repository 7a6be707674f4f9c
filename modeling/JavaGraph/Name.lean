import JavaGraph.Text.Identifier
/-!
# Qualified names

A qualified name is a chain of segments. A `.` goes from a package to its member, a `$` from a
type to a type nested in it. Every segment is an identifier, or, directly behind a `$`, a number
that an identifier may follow: anonymous and local types are numbered within their outer type.

`QualifiedName.parse` checks a text and reports its leftmost fault; a `QualifiedName` carries the
proof that there is none.
-/

namespace JavaGraph

/-- Why a text is no qualified name. -/
inductive NameError where
  /-- The text is empty. -/
  | empty
  /-- A segment of the name is empty. -/
  | emptySegment (name : String)
  /-- A segment of the name is neither an identifier nor a number behind a `$`. -/
  | invalidSegment (name : String) (segment : String)
deriving DecidableEq, Repr

/-- The wording of a fault in a name. -/
def NameError.message : NameError → String
  | .empty => "qualified name is empty"
  | .emptySegment name => s!"qualified name `{name}` has an empty segment"
  | .invalidSegment name segment => s!"`{segment}` in `{name}` is not a valid identifier"

namespace Name

/-- Whether a character ends a segment. -/
def isSeparator (c : Char) : Bool := c == '.' || c == '$'

/-- Whether characters form a Java identifier. -/
def isIdentifier : List Char → Bool
  | [] => false
  | c :: cs =>
    (c == '_' || c == '$' || Text.isXidStart c) && cs.all fun d => d == '$' || Text.isXidContinue d

/-- Whether characters form the number of an anonymous or local type, with or without its name. -/
def isNumbered (cs : List Char) : Bool :=
  let rest := cs.dropWhile Char.isDigit
  rest.length < cs.length && (rest.isEmpty || isIdentifier rest)

/-- A piece of a name between two separators. -/
structure Segment where
  /-- Whether the separator before it is a `$`. -/
  nested : Bool
  chars : List Char
deriving DecidableEq, Repr

/-- Put a character in front of the first segment. -/
def Segment.extendFirst (c : Char) : List Segment → List Segment
  | [] => []
  | segment :: rest => { segment with chars := c :: segment.chars } :: rest

/-- Cut characters at every separator. `nested` says whether a `$` stands before them. -/
def segments (nested : Bool) : List Char → List Segment
  | [] => [⟨nested, []⟩]
  | c :: cs =>
    if isSeparator c then ⟨nested, []⟩ :: segments (c == '$') cs
    else Segment.extendFirst c (segments nested cs)

/-- What is wrong with one segment of the name `text`. -/
def segmentFault? (text : String) (segment : Segment) : Option NameError :=
  if segment.chars.isEmpty then some (.emptySegment text)
  else if isIdentifier segment.chars || (segment.nested && isNumbered segment.chars) then none
  else some (.invalidSegment text (String.ofList segment.chars))

/-- What is wrong with a name: the fault of the leftmost faulty segment. -/
def fault? (text : String) : Option NameError :=
  if text.isEmpty then some .empty
  else (segments false text.toList).findSome? (segmentFault? text)

/-- A chain of segments is never empty. -/
theorem segments_ne_nil (nested : Bool) (cs : List Char) : segments nested cs ≠ [] := by
  induction cs generalizing nested with
  | nil => simp [segments]
  | cons c cs ih =>
    rw [segments]
    split
    · simp
    · cases h : segments nested cs with
      | nil => exact absurd h (ih nested)
      | cons s ss => simp [Segment.extendFirst]

end Name

/-- A well-formed qualified name. -/
structure QualifiedName where
  text : String
  faultless : Name.fault? text = none

namespace QualifiedName

/-- Two names are equal if their texts are. -/
@[ext] theorem ext {a b : QualifiedName} (h : a.text = b.text) : a = b := by
  cases a
  cases b
  cases h
  rfl

/-- Names are equal exactly if their texts are. -/
theorem text_inj {a b : QualifiedName} : a.text = b.text ↔ a = b :=
  ⟨ext, fun h => h ▸ rfl⟩

/-- Names are compared by their texts. -/
instance : DecidableEq QualifiedName := fun _ _ => decidable_of_iff _ text_inj

/-- A name is shown as its text. -/
instance : Repr QualifiedName where
  reprPrec name _ := repr name.text

/-- Check a text; the error is its leftmost fault. -/
def parse (text : String) : Except NameError QualifiedName :=
  match h : Name.fault? text with
  | some fault => .error fault
  | none => .ok ⟨text, h⟩

/-- The name of a type in a package; an empty package counts as none. -/
def inPackage (package : Option String) (name : String) : Except NameError QualifiedName :=
  match package with
  | none => parse name
  | some package => if package.isEmpty then parse name else parse (package ++ "." ++ name)

/-- The name of a type nested directly in the type `outer`. -/
def nested (outer : QualifiedName) (name : String) : Except NameError QualifiedName :=
  parse (outer.text ++ "$" ++ name)

/-- The last segment: `Entry` for `java.util.Map$Entry`. -/
def simpleName (name : QualifiedName) : String :=
  match (Name.segments false name.text.toList).getLast? with
  | none => ""
  | some segment => String.ofList segment.chars

/-- The text before the last `.` that no `$` precedes: `java.util` for `java.util.Map$Entry`. -/
def package (name : QualifiedName) : Option String :=
  let outermost := name.text.toList.takeWhile (· ≠ '$')
  match outermost.reverse.dropWhile (· ≠ '.') with
  | [] => none
  | _ :: reversed => some (String.ofList reversed.reverse)

/-- The display form for debugging. -/
def debug (name : QualifiedName) : String :=
  s!"QualifiedName({name.text})"

/-- Names in ascending order of their texts, each once. -/
def sorted (names : List QualifiedName) : List QualifiedName :=
  (names.mergeSort fun a b => decide (a.text ≤ b.text)).eraseDups

/-- A successful check returns the text it was given. -/
theorem text_of_parse {text : String} {name : QualifiedName} (h : parse text = .ok name) :
    name.text = text := by
  unfold parse at h
  split at h
  · simp at h
  · cases h
    rfl

/-- A text is accepted exactly if it has no fault. -/
theorem parse_eq_ok_iff {text : String} {name : QualifiedName} :
    parse text = .ok name ↔ name.text = text := by
  constructor
  · exact text_of_parse
  · rintro rfl
    unfold parse
    split
    · rename_i h
      rw [name.faultless] at h
      simp at h
    · rfl

/-- A text is refused exactly with its leftmost fault. -/
theorem parse_eq_error_iff {text : String} {fault : NameError} :
    parse text = .error fault ↔ Name.fault? text = some fault := by
  unfold parse
  split
  · rename_i h
    simp [h]
  · rename_i h
    simp [h]

end QualifiedName

end JavaGraph
