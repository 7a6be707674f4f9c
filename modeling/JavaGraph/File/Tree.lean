import JavaGraph.File.Path
import JavaGraph.Text.Utf8
/-!
# Trees of files

A tree of files is what can be read: files with their bytes, in directories. Paths are followed
from its root. The entries of a directory stand in the order of their names, and `FileTree.files`
lists files in the order of the tree.
-/

namespace JavaGraph

/-- A file or a directory. -/
inductive FileTree where
  | file (bytes : List UInt8)
  | directory (entries : List (String × FileTree))

/-- Why a path cannot be read. -/
inductive PathFault where
  /-- Nothing has this path. -/
  | missing
  /-- The path goes through a file as if it were a directory. -/
  | notADirectory
  /-- The path is that of a directory. -/
  | isADirectory
deriving DecidableEq, Repr

/-- The wording of a fault. -/
def PathFault.message : PathFault → String
  | .missing => "No such file or directory (os error 2)"
  | .notADirectory => "Not a directory (os error 20)"
  | .isADirectory => "Is a directory (os error 21)"

namespace FileTree

/-- The entry with a name. -/
def named? (name : String) : List (String × FileTree) → Option FileTree
  | [] => none
  | (n, tree) :: rest => if n = name then some tree else named? name rest

/-- The entries with an entry put in its place, in the order of names. -/
def putEntry (name : String) (tree : FileTree) :
    List (String × FileTree) → List (String × FileTree)
  | [] => [(name, tree)]
  | (n, t) :: rest =>
    if n = name then (name, tree) :: rest
    else if name < n then (name, tree) :: (n, t) :: rest
    else (n, t) :: putEntry name tree rest

/-- An entry that was put is found under its name, and under other names what was there. -/
theorem named?_putEntry (entries : List (String × FileTree)) (name n : String) (tree : FileTree) :
    named? n (putEntry name tree entries) = if name = n then some tree else named? n entries := by
  induction entries with
  | nil => rfl
  | cons entry rest ih =>
    obtain ⟨m, t⟩ := entry
    rw [putEntry]
    split
    · rename_i h
      subst h
      simp only [named?]
      split <;> rfl
    · rename_i h
      split
      · rfl
      · simp only [named?, ih]
        split
        · rename_i hm
          subst hm
          rw [if_neg (Ne.symm h)]
        · rfl

/-- The tree with a file, or with a directory if there are no bytes, put at some parts of a path.
Directories on the way are made as needed, and those that are there stay. -/
def put (bytes : Option (List UInt8)) : List String → FileTree → FileTree
  | [], tree =>
    match bytes, tree with
    | some bytes, _ => .file bytes
    | none, .directory entries => .directory entries
    | none, .file _ => .directory []
  | name :: rest, tree =>
    let entries := match tree with
      | .directory entries => entries
      | .file _ => []
    let inner := (named? name entries).getD (.directory [])
    .directory (putEntry name (put bytes rest inner) entries)

/-- The tree of some files. A path without bytes is that of a directory. -/
def ofPaths (paths : List (String × Option (List UInt8))) : FileTree :=
  paths.foldl
    (fun tree (path, bytes) => tree.put bytes ((Path.parts path).filter (!Path.isStay ·)))
    (.directory [])

/-- What the parts of a path lead to from a place in the tree; `above` are the directories around
that place, innermost first. -/
def follow (above : List FileTree) : FileTree → List String → Except PathFault FileTree
  | here, [] => .ok here
  | .file _, _ :: _ => .error .notADirectory
  | .directory entries, part :: rest =>
    if Path.isStay part then follow above (.directory entries) rest
    else if part = ".." then
      match above with
      | [] => .error .missing
      | outer :: above => follow above outer rest
    else
      match named? part entries with
      | none => .error .missing
      | some inner => follow (.directory entries :: above) inner rest
termination_by _ parts => parts.length

/-- What a path leads to. A path that is empty or begins with `/` leads nowhere in the tree. -/
def find (tree : FileTree) (path : String) : Except PathFault FileTree :=
  if (Path.parts path).head? = some "" then .error .missing else follow [] tree (Path.parts path)

/-- The bytes of the file with a path. -/
def read (tree : FileTree) (path : String) : Except PathFault (List UInt8) :=
  match tree.find path with
  | .ok (.file bytes) => .ok bytes
  | .ok (.directory _) => .error .isADirectory
  | .error fault => .error fault

mutual

/-- The paths of the files below a place that has the path `place`; what is hidden by its name is
left out. -/
def files (place : String) : FileTree → List String
  | .file _ => [place]
  | .directory entries => filesIn place entries

/-- The paths of the files below entries of a directory with the path `place`. -/
def filesIn (place : String) : List (String × FileTree) → List String
  | [] => []
  | (name, tree) :: rest =>
    (if Path.isHidden name then [] else files (Path.join place name) tree) ++ filesIn place rest

end

end FileTree

end JavaGraph
