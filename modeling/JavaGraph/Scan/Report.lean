import JavaGraph.Scan.Diagnostic
/-!
# Reports

What the scan of a file gives, and the identifiers of the files' paths.
-/

namespace JavaGraph

/-- The known paths. A path gets its identifier when it is first seen and keeps it. -/
structure FileSet where
  paths : List String := []
  /-- No path is known twice. -/
  nodup : paths.Nodup := by exact List.nodup_nil

namespace FileSet

/-- The file set with a path in it. -/
def insert (files : FileSet) (path : String) : FileSet :=
  if h : path ∈ files.paths then files
  else
    { paths := files.paths ++ [path]
      nodup := by
        rw [List.nodup_append]
        refine ⟨files.nodup, by simp, ?_⟩
        intro a ha b hb
        rw [List.mem_singleton.1 hb]
        exact fun hab => h (hab ▸ ha) }

/-- The identifier of a path, and the file set that knows it. -/
def idOf (files : FileSet) (path : String) : FileId × FileSet :=
  (⟨files.paths.idxOf path⟩, files.insert path)

/-- The path with an identifier. -/
def path? (files : FileSet) (file : FileId) : Option String := files.paths[file.index]?

/-- The number of known paths. -/
def size (files : FileSet) : Nat := files.paths.length

/-- The identifier of a path leads back to it. -/
theorem path?_idOf (files : FileSet) (path : String) :
    (files.idOf path).2.path? (files.idOf path).1 = some path := by
  unfold idOf insert path?
  split
  · rename_i h
    simp [List.idxOf_lt_length_of_mem h]
  · rename_i h
    simp [List.idxOf_eq_length h]

end FileSet

/-- What the scan of a source file gives. -/
structure UnitReport where
  unit : UnitId
  file : FileId
  path : String
  /-- Whether the unit existed already and was left as it was. -/
  rescanned : Bool
  mayNotCompile : Bool
  /-- The types that the unit declares, each before those within it. -/
  declaredTypes : List TypeId
  diagnostics : List Diagnostic
deriving DecidableEq, Repr

namespace UnitReport

/-- Whether there are errors in the file. -/
def hasErrors (report : UnitReport) : Bool := Diagnostic.anyError report.diagnostics

/-- The report with the remark that bytes of the file were replaced. -/
def noteLossyDecoding (report : UnitReport) : UnitReport :=
  { report with diagnostics := report.diagnostics ++ [.lossyDecoding report.file] }

end UnitReport

end JavaGraph
