/-!
# Positions in a text

Offsets and columns count UTF-8 bytes. A `Position` is moved forward over the characters of a
text; a `LineIndex` answers for any offset from the starts of the lines. A `LineSpan` is the range
of lines that a declaration covers.
-/

namespace JavaGraph.Text

/-- The number of UTF-8 bytes of a list of characters. -/
def byteLength : List Char → Nat
  | [] => 0
  | c :: cs => c.utf8Size + byteLength cs

/-- No characters take no bytes. -/
@[simp] theorem byteLength_nil : byteLength [] = 0 := rfl

/-- The first character's bytes come on top of the bytes of the rest. -/
@[simp] theorem byteLength_cons (c : Char) (cs : List Char) :
    byteLength (c :: cs) = c.utf8Size + byteLength cs := rfl

/-- The byte length of a concatenation is the sum of the byte lengths. -/
@[simp] theorem byteLength_append (cs ds : List Char) :
    byteLength (cs ++ ds) = byteLength cs + byteLength ds := by
  induction cs with
  | nil => simp
  | cons c cs ih => simp [ih, Nat.add_assoc]

/-- A place between two characters of a text. -/
structure Position where
  /-- Bytes before this place. -/
  offset : Nat
  /-- Line number, from 1. -/
  line : Nat
  /-- Bytes since the start of the line. -/
  column : Nat
deriving DecidableEq, Repr

namespace Position

/-- The beginning of a text. -/
def start : Position := ⟨0, 1, 0⟩

/-- The place after one more character; a line feed begins the next line. -/
def step (p : Position) (c : Char) : Position :=
  if c = '\n' then ⟨p.offset + c.utf8Size, p.line + 1, 0⟩
  else ⟨p.offset + c.utf8Size, p.line, p.column + c.utf8Size⟩

/-- The place after some more characters. -/
def advance (p : Position) (cs : List Char) : Position :=
  cs.foldl step p

/-- Advancing over nothing stays in place. -/
@[simp] theorem advance_nil (p : Position) : p.advance [] = p := rfl

/-- Advancing goes one character at a time. -/
@[simp] theorem advance_cons (p : Position) (c : Char) (cs : List Char) :
    p.advance (c :: cs) = (p.step c).advance cs := rfl

/-- Advancing over a concatenation is advancing twice. -/
theorem advance_append (p : Position) (cs ds : List Char) :
    p.advance (cs ++ ds) = (p.advance cs).advance ds := by
  simp [advance]

/-- Advancing moves the offset by the bytes passed. -/
theorem offset_advance (p : Position) (cs : List Char) :
    (p.advance cs).offset = p.offset + byteLength cs := by
  induction cs generalizing p with
  | nil => simp
  | cons c cs ih =>
    rw [advance_cons, ih, byteLength_cons]
    unfold step
    split <;> simp only <;> omega

/-- Advancing moves the line by the line feeds passed. -/
theorem line_advance (p : Position) (cs : List Char) :
    (p.advance cs).line = p.line + cs.count '\n' := by
  induction cs generalizing p with
  | nil => simp
  | cons c cs ih =>
    rw [advance_cons, ih]
    unfold step
    split <;> rename_i hc
    · subst hc
      simp only [List.count_cons_self]
      omega
    · simp [hc]

end Position

/-- A line and a column, both counted from 0. -/
structure LineColumn where
  line : Nat
  column : Nat
deriving DecidableEq, Repr

/-- The text `LINE:COLUMN`, both counted from 1. -/
def LineColumn.render (p : LineColumn) : String :=
  s!"{p.line + 1}:{p.column + 1}"

/-- The offsets at which the lines of a text start, ascending from 0. -/
structure LineIndex where
  starts : List Nat
deriving DecidableEq, Repr

namespace LineIndex

/-- The offset after each line feed of `cs`, which begins at `offset`. -/
def startsAfter (offset : Nat) : List Char → List Nat
  | [] => []
  | c :: cs =>
    if c = '\n' then (offset + c.utf8Size) :: startsAfter (offset + c.utf8Size) cs
    else startsAfter (offset + c.utf8Size) cs

/-- The line starts of a text. -/
def ofText (text : String) : LineIndex :=
  ⟨0 :: startsAfter 0 text.toList⟩

/-- The number of lines. -/
def size (index : LineIndex) : Nat := index.starts.length

/-- Whether there are no lines. -/
def isEmpty (index : LineIndex) : Bool := index.starts.isEmpty

/-- The line and column of an offset: the last line that starts at or before it, and the distance
from there. Offsets past the end count on from the last line. -/
def locate (index : LineIndex) (offset : Nat) : LineColumn :=
  let before := index.starts.takeWhile (· ≤ offset)
  ⟨before.length - 1, offset - before.getLast?.getD 0⟩

end LineIndex

/-- A closed range of lines, counted from 1. -/
structure LineSpan where
  first : Nat
  last : Nat
deriving DecidableEq, Repr

namespace LineSpan

/-- The span between two lines, whichever order they come in. -/
def between (a b : Nat) : LineSpan := ⟨min a b, max a b⟩

/-- The number of lines covered. -/
def lineCount (span : LineSpan) : Nat := span.last - span.first + 1

/-- Whether a line is covered. -/
def contains (span : LineSpan) (line : Nat) : Bool :=
  span.first ≤ line && line ≤ span.last

/-- The bounds of a span between two lines are in order. -/
theorem first_le_last (a b : Nat) : (between a b).first ≤ (between a b).last := by
  simp only [between]
  omega

end LineSpan

end JavaGraph.Text
