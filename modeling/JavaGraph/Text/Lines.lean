/-!
# Lines of a text

A line ends at a line feed or at the end of the text. The line feed, and one carriage return
directly before it, are not part of the line; nothing after the last line feed is no line.
-/

namespace JavaGraph.Text

/-- A line without one carriage return at its end. -/
private def dropCarriageReturn (line : List Char) : List Char :=
  if line.getLast? = some '\r' then line.dropLast else line

/-- The lines of `cs`, where `current` is what the first line holds so far. -/
private def linesFrom (current : List Char) : List Char → List (List Char)
  | [] => if current.isEmpty then [] else [current]
  | c :: cs =>
    if c = '\n' then dropCarriageReturn current :: linesFrom [] cs
    else linesFrom (current ++ [c]) cs

/-- The lines of a text, without their terminators. -/
def lines (text : String) : List String :=
  (linesFrom [] text.toList).map String.ofList

variable {line : List Char}

/-- A line feed ends the line that is held. -/
private theorem linesFrom_lineFeed (h : '\n' ∉ line) (current rest : List Char) :
    linesFrom current (line ++ '\n' :: rest) =
      dropCarriageReturn (current ++ line) :: linesFrom [] rest := by
  induction line generalizing current with
  | nil => rw [List.nil_append, linesFrom, if_pos rfl, List.append_nil]
  | cons c line ih =>
    obtain ⟨hc, hline⟩ := List.ne_and_not_mem_of_not_mem_cons h
    rw [List.cons_append, linesFrom, if_neg (Ne.symm hc), ih hline, List.append_assoc,
      List.singleton_append]

/-- Without a line feed all is in the line that is held. -/
private theorem linesFrom_last (h : '\n' ∉ line) (current : List Char) :
    linesFrom current line = if (current ++ line).isEmpty then [] else [current ++ line] := by
  induction line generalizing current with
  | nil => rw [linesFrom, List.append_nil]
  | cons c line ih =>
    obtain ⟨hc, hline⟩ := List.ne_and_not_mem_of_not_mem_cons h
    rw [linesFrom, if_neg (Ne.symm hc), ih hline, List.append_assoc, List.singleton_append]

/-- A text without characters has no lines. -/
theorem lines_empty : lines "" = [] := rfl

/-- What no line feed ends is a line, with all its characters. -/
theorem lines_last (h : '\n' ∉ line) (hne : line ≠ []) :
    lines (String.ofList line) = [String.ofList line] := by
  have hempty : line.isEmpty = false := by simpa using hne
  rw [lines, String.toList_ofList, linesFrom_last h, List.nil_append, hempty]
  rfl

/-- A line feed ends a line. -/
theorem lines_lineFeed (h : '\n' ∉ line) (hr : line.getLast? ≠ some '\r') (rest : List Char) :
    lines (String.ofList (line ++ '\n' :: rest)) =
      String.ofList line :: lines (String.ofList rest) := by
  rw [lines, String.toList_ofList, linesFrom_lineFeed h, List.nil_append, dropCarriageReturn,
    if_neg hr, List.map_cons, lines, String.toList_ofList]

/-- A carriage return before the line feed is part of the terminator. -/
theorem lines_carriageReturn (h : '\n' ∉ line) (rest : List Char) :
    lines (String.ofList (line ++ '\r' :: '\n' :: rest)) =
      String.ofList line :: lines (String.ofList rest) := by
  have hr : '\n' ∉ line ++ ['\r'] := by simpa using h
  have hsplit : line ++ '\r' :: '\n' :: rest = (line ++ ['\r']) ++ '\n' :: rest := by simp
  rw [lines, String.toList_ofList, hsplit, linesFrom_lineFeed hr, List.nil_append,
    dropCarriageReturn, if_pos (by simp), List.map_cons, List.dropLast_concat, lines,
    String.toList_ofList]

end JavaGraph.Text
