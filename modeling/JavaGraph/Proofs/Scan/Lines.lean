import JavaGraph.Proofs.Graph.Nesting
import JavaGraph.Proofs.Scope.Operations
import JavaGraph.Scan.Project
/-!
# The lines of plain texts

The lines of all text files are in one arena, in the order they were recorded. Each file lists its
own, and each line says where it stands and which line is behind it: the lines of a file are a chain,
however the calls that record texts are mixed. Read along the chains, a graph is a list of paths
with texts, and every call is an operation on that list.
-/

namespace JavaGraph

/-- A path with the lines of a text. -/
structure PlainText where
  path : String
  lines : List String := []
deriving DecidableEq, Repr

namespace Graph

/-- The lines of every file are numbered in the order of its list, and lead to the line behind them
there; and no line is outside the list of its file. -/
structure Chained (graph : Graph) : Prop where
  listed : ∀ {file : TextFileId} {node : TextFile} {number : Nat} {id : LineId},
    graph.textFiles.get? file = some node → node.lines[number]? = some id →
      ∃ line, graph.lines.get? id = some line ∧ line.file = file ∧ line.number = number ∧
        line.next = node.lines[number + 1]?
  owned : ∀ {id : LineId} {line : Line}, graph.lines.get? id = some line →
    ∃ node, graph.textFiles.get? line.file = some node ∧ id ∈ node.lines

/-- A line stands at a place of the list of a file. -/
def ListsAt (graph : Graph) (file : TextFileId) (number : Nat) (id : LineId) : Prop :=
  ∃ node, graph.textFiles.get? file = some node ∧ node.lines[number]? = some id

/-- The text of a file, along its list. -/
def textOf (graph : Graph) (file : TextFile) : PlainText where
  path := file.path
  lines := file.lines.filterMap fun id => (graph.lines.get? id).map (·.text)

/-- The texts of all files. -/
def texts (graph : Graph) : List PlainText :=
  graph.textFiles.toList.map graph.textOf

variable {graph : Graph} {file : TextFileId} {node : TextFile} {id : LineId} {line : Line}
  {number : Nat} {path text : String}

/-- Each line stands at one place, the one that it names. -/
theorem Chained.listsAt_iff (h : graph.Chained) (hl : graph.lines.get? id = some line) :
    graph.ListsAt file number id ↔ file = line.file ∧ number = line.number := by
  constructor
  · rintro ⟨node, hn, hid⟩
    obtain ⟨other, ho, hf, hnumber, -⟩ := h.listed hn hid
    cases hl.symm.trans ho
    exact ⟨hf.symm, hnumber.symm⟩
  · rintro ⟨rfl, rfl⟩
    obtain ⟨node, hn, hm⟩ := h.owned hl
    obtain ⟨number, hid⟩ := List.mem_iff_getElem?.1 hm
    obtain ⟨other, ho, -, hnumber, -⟩ := h.listed hn hid
    cases hl.symm.trans ho
    exact ⟨node, hn, hnumber ▸ hid⟩

/-- The lines that a file lists exist. -/
theorem Chained.known (h : graph.Chained) (hn : graph.textFiles.get? file = some node)
    (hm : id ∈ node.lines) : ∃ line, graph.lines.get? id = some line ∧ line.file = file := by
  obtain ⟨number, hid⟩ := List.mem_iff_getElem?.1 hm
  obtain ⟨line, hl, hf, -⟩ := h.listed hn hid
  exact ⟨line, hl, hf⟩

/-- A listed line is the last one if no line is behind it. -/
theorem Chained.getLast?_eq_iff (h : graph.Chained) (hn : graph.textFiles.get? file = some node)
    (hid : node.lines[number]? = some id) :
    node.lines.getLast? = some id ↔ number + 1 = node.lines.length := by
  obtain ⟨hlt, -⟩ := List.getElem?_eq_some_iff.1 hid
  rw [List.getLast?_eq_getElem?]
  constructor
  · intro hlast
    obtain ⟨line, hl, -, hnumber, -⟩ := h.listed hn hid
    obtain ⟨line', hl', -, hnumber', -⟩ := h.listed hn hlast
    cases hl.symm.trans hl'
    omega
  · intro hlength
    rw [← hlength, Nat.add_sub_cancel, hid]

theorem chained_empty : ({} : Graph).Chained where
  listed h := by cases h
  owned h := by cases h

/-- The text of a file is found under its identifier. -/
theorem getElem?_texts (graph : Graph) (index : Nat) :
    graph.texts[index]? = (graph.textFiles.get? ⟨index⟩).map graph.textOf := by
  simp [texts, Arena.toList, Arena.get?]

theorem length_texts (graph : Graph) : graph.texts.length = graph.textFiles.size := by
  simp [texts, Arena.toList, Arena.size]

/-! ### New files -/

/-- A graph with one more text file. -/
def withTextFile (graph : Graph) (path : String) : Graph :=
  { graph with textFiles := graph.textFiles.push { path } }

theorem addTextFile_run (graph : Graph) (path : String) :
    addTextFile path graph = (.ok graph.textFiles.nextId, graph.withTextFile path) := rfl

/-- A new file lists no lines. -/
theorem Chained.withTextFile (h : graph.Chained) (path : String) :
    (graph.withTextFile path).Chained where
  listed := by
    intro file node number id hn hid
    rw [Graph.withTextFile, Arena.get?_push] at hn
    split at hn
    · cases hn
      cases hid
    · exact h.listed hn hid
  owned := by
    intro id line hl
    obtain ⟨node, hn, hm⟩ := h.owned hl
    refine ⟨node, ?_, hm⟩
    rw [Graph.withTextFile, Arena.get?_push, if_neg (Arena.ne_nextId hn), hn]

/-- A new file has an empty text. -/
theorem texts_withTextFile (graph : Graph) (path : String) :
    (graph.withTextFile path).texts = graph.texts ++ [⟨path, []⟩] := by
  have htextOf : (graph.withTextFile path).textOf = graph.textOf := rfl
  rw [texts, htextOf]
  simp [texts, withTextFile, Arena.toList, Arena.push, textOf]

/-! ### New lines -/

/-- A graph with one more line in a file: it is the last of the list, and the line that was last
leads to it. -/
def withTextLine (graph : Graph) (file : TextFileId) (node : TextFile) (text : String) : Graph :=
  let new : Line := { file, number := node.lines.length, text }
  let lines := graph.lines.push new
  { graph with
    textFiles := graph.textFiles.modify file fun node =>
      { node with lines := node.lines ++ [graph.lines.nextId] }
    lines := match node.lines.getLast? with
      | none => lines
      | some last => lines.modify last fun line => { line with next := some graph.lines.nextId } }

/-- A line comes to a known file. -/
theorem Chained.addLine_run (h : graph.Chained) (hn : graph.textFiles.get? file = some node)
    (text : String) :
    addLine file text graph = (.ok graph.lines.nextId, graph.withTextLine file node text) := by
  unfold addLine withTextLine
  rw [Action.read_bind, checkTextFile_bind hn, Action.bind_of_ok (updateTextFile_known _ hn),
    Action.change_bind]
  cases hlast : node.lines.getLast? with
  | none => rfl
  | some last =>
    obtain ⟨line, hl, -⟩ := h.known hn (List.mem_of_mem_getLast? hlast)
    have hpushed : (graph.lines.push { file, number := node.lines.length, text }).get? last =
        some line := by
      rw [Arena.get?_push, if_neg (Arena.ne_nextId hl), hl]
    simp only [updateLine, Action.tryChange, Arena.update_of_get? _ hpushed, Bind.bind,
      Except.bind, pure, Except.pure]

/-- A line does not come to an unknown file. -/
theorem addLine_unknown (hn : graph.textFiles.get? file = none) (text : String) :
    addLine file text graph = (.error (.unknownId .textFile file.index), graph) := by
  unfold addLine
  rw [Action.read_bind, Action.bind_of_error]
  simp [Action.check, Arena.get, hn]

/-- Besides the new line, the one that was last is another. -/
theorem Chained.get?_lines_withTextLine (h : graph.Chained)
    (hn : graph.textFiles.get? file = some node) (text : String) (id : LineId) :
    (graph.withTextLine file node text).lines.get? id =
      if id = graph.lines.nextId then some { file, number := node.lines.length, text }
      else (graph.lines.get? id).map fun line =>
        if node.lines.getLast? = some id then { line with next := some graph.lines.nextId }
        else line := by
  unfold withTextLine
  cases hlast : node.lines.getLast? with
  | none => simp [Arena.get?_push]
  | some last =>
    obtain ⟨line, hl, -⟩ := h.known hn (List.mem_of_mem_getLast? hlast)
    have hne := Arena.ne_nextId hl
    simp only [Arena.get?_modify, Arena.get?_push, Option.some.injEq]
    by_cases hid : id = last
    · rw [if_pos hid, if_neg (hid ▸ hne), if_neg (hid ▸ hne)]
      simp [hid]
    · simp [hid, Ne.symm hid]

/-- The file lists the new line behind the others, and other files are as they were. -/
theorem get?_textFiles_withTextLine (hn : graph.textFiles.get? file = some node) (text : String)
    (other : TextFileId) :
    (graph.withTextLine file node text).textFiles.get? other =
      if other = file then some { node with lines := node.lines ++ [graph.lines.nextId] }
      else graph.textFiles.get? other := by
  rw [withTextLine, Arena.get?_modify]
  split
  · next he => rw [he, hn, Option.map_some]
  · rfl

/-- In the list of its file the new line is the last, and the others lead where they led, but for
the one that was last. -/
private theorem Chained.listed_self (h : graph.Chained)
    (hn : graph.textFiles.get? file = some node) (text : String)
    (hid : (node.lines ++ [graph.lines.nextId])[number]? = some id) :
    ∃ line, (graph.withTextLine file node text).lines.get? id = some line ∧ line.file = file ∧
      line.number = number ∧ line.next = (node.lines ++ [graph.lines.nextId])[number + 1]? := by
  rw [h.get?_lines_withTextLine hn]
  rcases Nat.lt_trichotomy number node.lines.length with hlt | rfl | hgt
  · rw [List.getElem?_append_left hlt] at hid
    obtain ⟨line, hl, hf, hnumber, hnext⟩ := h.listed hn hid
    rw [if_neg (Arena.ne_nextId hl), hl]
    have hlast := h.getLast?_eq_iff hn hid
    refine ⟨_, rfl, ?_, ?_, ?_⟩
    · split <;> exact hf
    · split <;> exact hnumber
    · split
      · next hid' => simp [hlast.1 hid']
      · next hid' =>
        have hbehind : number + 1 < node.lines.length := by
          have hne := mt hlast.2 hid'
          omega
        rw [List.getElem?_append_left hbehind, hnext]
  · rw [List.getElem?_concat_length] at hid
    cases hid
    exact ⟨_, if_pos rfl, rfl, rfl, by simp⟩
  · rw [List.getElem?_eq_none (by rw [List.length_append]; exact hgt)] at hid
    cases hid

/-- The lines of other files are as they were. -/
private theorem Chained.get?_lines_other (h : graph.Chained)
    (hn : graph.textFiles.get? file = some node) (text : String)
    (hl : graph.lines.get? id = some line) (hf : line.file ≠ file) :
    (graph.withTextLine file node text).lines.get? id = some line := by
  have hlast : node.lines.getLast? ≠ some id := by
    intro hlast
    obtain ⟨line', hl', hf'⟩ := h.known hn (List.mem_of_mem_getLast? hlast)
    cases hl.symm.trans hl'
    exact hf hf'
  rw [h.get?_lines_withTextLine hn, if_neg (Arena.ne_nextId hl), hl, Option.map_some,
    if_neg hlast]

/-- A line that comes to the end of a chain leaves a chain, and all other chains as they are. -/
theorem Chained.withTextLine (h : graph.Chained) (hn : graph.textFiles.get? file = some node)
    (text : String) : (graph.withTextLine file node text).Chained where
  listed := by
    intro other node' number id hn' hid
    rw [get?_textFiles_withTextLine hn] at hn'
    by_cases hother : other = file
    · rw [if_pos hother] at hn'
      cases hn'
      subst hother
      exact h.listed_self hn text hid
    · rw [if_neg hother] at hn'
      obtain ⟨line, hl, hf, hrest⟩ := h.listed hn' hid
      exact ⟨line, h.get?_lines_other hn text hl (hf ▸ hother), hf, hrest⟩
  owned := by
    intro id line hl
    rw [h.get?_lines_withTextLine hn] at hl
    by_cases hid : id = graph.lines.nextId
    · rw [if_pos hid] at hl
      cases hl
      exact ⟨_, (get?_textFiles_withTextLine hn ..).trans (if_pos rfl), by simp [hid]⟩
    · rw [if_neg hid] at hl
      obtain ⟨old, hold, rfl⟩ := Option.map_eq_some_iff.1 hl
      obtain ⟨node', hn', hm⟩ := h.owned hold
      have hfile : (if node.lines.getLast? = some id then
          { old with next := some graph.lines.nextId } else old).file = old.file := by
        split <;> rfl
      rw [hfile]
      simp only [get?_textFiles_withTextLine hn]
      by_cases hf : old.file = file
      · rw [hf, hn] at hn'
        cases hn'
        exact ⟨_, if_pos hf, List.mem_append_left _ hm⟩
      · exact ⟨node', by rw [if_neg hf, hn'], hm⟩

/-- What the lines that are listed say is as it was. -/
private theorem Chained.said_withTextLine (h : graph.Chained)
    (hn : graph.textFiles.get? file = some node) (text : String) {other : TextFileId}
    {node' : TextFile} (hn' : graph.textFiles.get? other = some node') :
    (node'.lines.filterMap fun id =>
        ((graph.withTextLine file node text).lines.get? id).map (·.text)) =
      node'.lines.filterMap fun id => (graph.lines.get? id).map (·.text) := by
  refine List.filterMap_congr fun id hm => ?_
  obtain ⟨line, hl, -⟩ := h.known hn' hm
  rw [h.get?_lines_withTextLine hn, if_neg (Arena.ne_nextId hl), Option.map_map]
  congr 1
  funext line
  simp only [Function.comp]
  split <;> rfl

/-- A line comes to the end of one text. -/
theorem Chained.texts_withTextLine (h : graph.Chained)
    (hn : graph.textFiles.get? file = some node) (text : String) :
    (graph.withTextLine file node text).texts =
      graph.texts.modify file.index fun written =>
        { written with lines := written.lines ++ [text] } := by
  apply List.ext_getElem?
  intro index
  rw [getElem?_texts, List.getElem?_modify, getElem?_texts, get?_textFiles_withTextLine hn]
  by_cases hindex : (⟨index⟩ : TextFileId) = file
  · subst hindex
    rw [if_pos rfl, hn]
    simp only [Option.map_some, if_true, textOf, List.filterMap_append,
      h.said_withTextLine hn text hn]
    rw [List.filterMap_cons, h.get?_lines_withTextLine hn, if_pos rfl]
    rfl
  · have hne : file.index ≠ index := fun he => hindex (by rw [← he])
    rw [if_neg hindex]
    simp only [if_neg hne, id_map']
    cases hother : graph.textFiles.get? ⟨index⟩ with
    | none => rfl
    | some other => simp only [Option.map_some, textOf, h.said_withTextLine hn text hother]

/-- Lines come to the end of one text, in their order. -/
theorem Chained.addLines_run (texts : List String) (file : TextFileId) :
    ∀ {graph : Graph} {node : TextFile}, graph.Chained →
      graph.textFiles.get? file = some node →
      ∃ after, (Action.forEach texts fun text => discard (addLine file text)) graph =
          (.ok (), after) ∧
        after.Chained ∧ after.texts = graph.texts.modify file.index fun written =>
          { written with lines := written.lines ++ texts } := by
  induction texts with
  | nil =>
    intro graph node h _
    refine ⟨graph, rfl, h, ?_⟩
    simp only [List.append_nil]
    exact (List.modify_id ..).symm
  | cons text texts ih =>
    intro graph node h hn
    have hself := (get?_textFiles_withTextLine hn text file).trans (if_pos rfl)
    obtain ⟨after, hrun, hafter, htexts⟩ := ih (h.withTextLine hn text) hself
    refine ⟨after, ?_, hafter, ?_⟩
    · have hdiscard : (discard (addLine file text) : GraphAction Unit) graph =
          (.ok (), graph.withTextLine file node text) :=
        Action.bind_of_ok (h.addLine_run hn text)
      rw [Action.forEach, Action.bind_of_ok hdiscard, hrun]
    · rw [htexts, h.texts_withTextLine hn, List.modify_modify_eq]
      simp [Function.comp_def]

/-- A text is recorded as a new file with its lines. -/
theorem Chained.recordText_run (h : graph.Chained) (path : String) (texts : List String) :
    ∃ after, (do
        let file ← addTextFile path
        Action.forEach texts fun text => discard (addLine file text)
        return file : GraphAction TextFileId) graph = (.ok graph.textFiles.nextId, after) ∧
      after.Chained ∧ after.texts = graph.texts ++ [⟨path, texts⟩] := by
  have hself : (graph.withTextFile path).textFiles.get? graph.textFiles.nextId = some { path } :=
    (Arena.get?_push ..).trans (if_pos rfl)
  obtain ⟨after, hrun, hafter, htexts⟩ :=
    addLines_run texts graph.textFiles.nextId (h.withTextFile path) hself
  refine ⟨after, ?_, hafter, ?_⟩
  · rw [Action.bind_of_ok (addTextFile_run ..), Action.bind_of_ok hrun]
    rfl
  · have hindex : graph.textFiles.nextId.index = graph.texts.length := (length_texts _).symm
    rw [htexts, texts_withTextFile, hindex]
    simp [List.modify_eq_take_cons_drop]

end Graph

/-! ### Calls -/

/-- One call that records plain text. -/
inductive TextCall where
  | addTextFile (path : String)
  | addLine (file : TextFileId) (text : String)
  | scanText (path text : String)
deriving DecidableEq, Repr

namespace TextCall

/-- What a call does to a project. -/
def run : TextCall → ProjectAction Unit
  | .addTextFile path => discard (Project.onGraph (Graph.addTextFile path))
  | .addLine file text => discard (Project.onGraph (Graph.addLine file text))
  | .scanText path text => discard (Project.scanText path text)

/-- What a call is for. -/
def write (texts : List PlainText) : TextCall → List PlainText
  | .addTextFile path => texts ++ [⟨path, []⟩]
  | .addLine file text =>
    texts.modify file.index fun written => { written with lines := written.lines ++ [text] }
  | .scanText path text => texts ++ [⟨path, Text.lines text⟩]

/-- Why a call is refused, if it is. -/
def fault? (texts : List PlainText) : TextCall → Option GraphError
  | .addLine file _ =>
    match texts[file.index]? with
    | some _ => none
    | none => some (.unknownId .textFile file.index)
  | _ => none

/-- The project behind some calls. -/
def runAll (project : Project) (calls : List TextCall) : Project :=
  calls.foldl (fun project call => (call.run project).2) project

variable {project : Project} {call : TextCall}

/-- An action on the graph of a project leaves everything else of it as it is. -/
theorem onGraph_run {α : Type} {action : GraphAction α} {value : α} {after : Graph}
    (h : action project.store.graph = (.ok value, after)) :
    (discard (Project.onGraph action) : ProjectAction Unit) project =
      (.ok (), { project with store := { project.store with graph := after } }) := by
  have hrun : Project.onGraph action project =
      (.ok value, { project with store := { project.store with graph := after } }) := by
    unfold Project.onGraph Action.within
    rw [Store.onGraph_run h]
  exact Action.bind_of_ok hrun

/-- A file has a text if it is known. -/
theorem fault?_addLine (graph : Graph) (file : TextFileId) (text : String) :
    (addLine file text).fault? graph.texts =
      match graph.textFiles.get? file with
      | some _ => none
      | none => some (.unknownId .textFile file.index) := by
  rw [fault?, Graph.getElem?_texts]
  cases graph.textFiles.get? file <;> rfl

/-- A call that is not refused does what it is for. -/
theorem run_of_fault?_eq_none (h : project.store.graph.Chained)
    (hc : call.fault? project.store.graph.texts = none) :
    ∃ after, call.run project = (.ok (), after) ∧ after.store.graph.Chained ∧
      after.store.graph.texts = call.write project.store.graph.texts := by
  cases call with
  | addTextFile path =>
    exact ⟨_, onGraph_run (Graph.addTextFile_run ..), h.withTextFile path,
      Graph.texts_withTextFile ..⟩
  | addLine file text =>
    rw [fault?_addLine] at hc
    cases hn : project.store.graph.textFiles.get? file with
    | none =>
      rw [hn] at hc
      cases hc
    | some node =>
      exact ⟨_, onGraph_run (h.addLine_run hn text), h.withTextLine hn text,
        h.texts_withTextLine hn text⟩
  | scanText path text =>
    obtain ⟨after, hrun, hafter, htexts⟩ := h.recordText_run path (Text.lines text)
    -- the path is noted first, and that leaves the store
    exact ⟨_, @onGraph_run { project with files := (project.files.idOf path).2 } _ _ _ _ hrun,
      hafter, htexts⟩

/-- A refused call leaves the project as it is, and is for nothing. -/
theorem run_of_fault?_eq_some {error : GraphError}
    (hc : call.fault? project.store.graph.texts = some error) :
    call.run project = (.error error, project) ∧
      call.write project.store.graph.texts = project.store.graph.texts := by
  cases call with
  | addTextFile path => cases hc
  | scanText path text => cases hc
  | addLine file text =>
    rw [fault?_addLine] at hc
    cases hn : project.store.graph.textFiles.get? file with
    | some node =>
      rw [hn] at hc
      cases hc
    | none =>
      rw [hn] at hc
      cases hc
      constructor
      · refine Action.bind_of_error ?_
        unfold Project.onGraph Action.within
        rw [Store.onGraph_run (Graph.addLine_unknown hn text)]
      · have htexts : project.store.graph.texts[file.index]? = none := by
          rw [Graph.getElem?_texts, hn, Option.map_none]
        exact List.modify_eq_self (List.getElem?_eq_none_iff.1 htexts)

/-- Every call leaves chains, and does what it is for. -/
theorem chained_run (h : project.store.graph.Chained) (call : TextCall) :
    (call.run project).2.store.graph.Chained ∧
      (call.run project).2.store.graph.texts = call.write project.store.graph.texts := by
  cases hc : call.fault? project.store.graph.texts with
  | none =>
    obtain ⟨after, hrun, hafter, htexts⟩ := run_of_fault?_eq_none h hc
    rw [hrun]
    exact ⟨hafter, htexts⟩
  | some error =>
    obtain ⟨hrun, hwrite⟩ := run_of_fault?_eq_some hc
    rw [hrun, hwrite]
    exact ⟨h, rfl⟩

/-- A run of calls leaves chains, and does what the calls are for one after another. -/
theorem chained_runAll (h : project.store.graph.Chained) (calls : List TextCall) :
    (runAll project calls).store.graph.Chained ∧
      (runAll project calls).store.graph.texts =
        calls.foldl write project.store.graph.texts := by
  induction calls generalizing project with
  | nil => exact ⟨h, rfl⟩
  | cons call calls ih =>
    obtain ⟨hchained, htexts⟩ := chained_run h call
    rw [List.foldl_cons, ← htexts]
    exact ih hchained

end TextCall

/-- However calls that record plain text are mixed: the lines of each file are numbered and linked
in the order of its list; each line stands at exactly one place, that which it names; the texts are
those that the calls are for; and a call is refused, without effect, if its file is unknown. -/
theorem plainTexts_run (calls : List TextCall) :
    let project := TextCall.runAll {} calls
    let texts := calls.foldl TextCall.write []
    project.store.graph.Chained ∧
      (∀ id line, project.store.graph.lines.get? id = some line → ∀ file number,
        project.store.graph.ListsAt file number id ↔ file = line.file ∧ number = line.number) ∧
      project.store.graph.texts = texts ∧
      ∀ call : TextCall,
        (call.fault? texts = none → (call.run project).1 = .ok ()) ∧
          ∀ error ∈ call.fault? texts, call.run project = (.error error, project) := by
  intro project texts
  obtain ⟨hchained, htexts⟩ := @TextCall.chained_runAll {} Graph.chained_empty calls
  refine ⟨hchained, fun id line hl file number => hchained.listsAt_iff hl, htexts, fun call => ?_⟩
  rw [show texts = project.store.graph.texts from htexts.symm]
  constructor
  · intro hc
    obtain ⟨after, hrun, -⟩ := TextCall.run_of_fault?_eq_none hchained hc
    rw [hrun]
  · exact fun error hc => (TextCall.run_of_fault?_eq_some hc).1

end JavaGraph
