/-!
# Paths

A path is a text with a `/` between its parts. An empty part or a `.` stays where it is, and `..`
goes one directory up.
-/

namespace JavaGraph.Path

/-- The parts of a path, empty ones included. -/
def partsOf : List Char → List (List Char)
  | [] => [[]]
  | c :: cs =>
    if c = '/' then [] :: partsOf cs
    else
      match partsOf cs with
      | [] => [[c]]
      | part :: rest => (c :: part) :: rest

/-- A path has at least one part. -/
theorem partsOf_ne_nil (cs : List Char) : partsOf cs ≠ [] := by
  induction cs with
  | nil => simp [partsOf]
  | cons c cs ih =>
    rw [partsOf]
    split
    · simp
    · split <;> simp

/-- The parts of a path, with a `/` between them, are the path. -/
theorem intercalate_partsOf (cs : List Char) : ['/'].intercalate (partsOf cs) = cs := by
  induction cs with
  | nil => simp [partsOf]
  | cons c cs ih =>
    cases h : partsOf cs with
    | nil => exact absurd h (partsOf_ne_nil cs)
    | cons part rest =>
      rw [h] at ih
      rw [partsOf]
      split
      · rename_i hc
        rw [h, hc, List.intercalate_cons_cons, ih]
        rfl
      · rw [h]
        cases rest with
        | nil => simpa using ih
        | cons next rest => simpa [List.intercalate_cons_cons] using ih

/-- The parts of a path, empty ones included. -/
def parts (path : String) : List String := (partsOf path.toList).map String.ofList

/-- The path of something in a directory. -/
def join (directory name : String) : String :=
  if directory.toList.getLast? = some '/' then directory ++ name else directory ++ "/" ++ name

/-- Whether a part of a path stays where it is. -/
def isStay (part : String) : Bool := part = "" || part = "."

/-- The last part of a path that names something. -/
def fileName? (path : String) : Option String :=
  ((parts path).filter (!isStay ·)).getLast?.filter (· ≠ "..")

/-- The extension of a file name: what is behind its last dot, if there is something before it. -/
def extensionOf? (name : String) : Option String :=
  let reversed := name.toList.reverse
  match reversed.dropWhile (· ≠ '.') with
  | [] | [_] => none
  | _ => some (String.ofList (reversed.takeWhile (· ≠ '.')).reverse)

/-- The extension of the file that a path names. -/
def extension? (path : String) : Option String := (fileName? path).bind extensionOf?

/-- Whether a file or directory is hidden by its name. -/
def isHidden (name : String) : Bool := name.toList.head? = some '.'

end JavaGraph.Path
