import JavaGraph.Text.Position
/-!
# Slices of a text by byte offsets

A slice keeps the characters whose bytes lie between two offsets. Offsets that come from the
tokens of a text fall on character boundaries, so nothing is cut in two.
-/

namespace JavaGraph.Text

/-- The characters left after `count` bytes. -/
def dropBytes : Nat → List Char → List Char
  | _, [] => []
  | 0, cs => cs
  | count + 1, c :: cs => dropBytes (count + 1 - c.utf8Size) cs

/-- The characters within the first `count` bytes. -/
def takeBytes : Nat → List Char → List Char
  | _, [] => []
  | 0, _ => []
  | count + 1, c :: cs => c :: takeBytes (count + 1 - c.utf8Size) cs

/-- The text between two byte offsets; nothing if they are reversed. -/
def slice (text : String) (start stop : Nat) : String :=
  String.ofList (takeBytes (stop - start) (dropBytes start text.toList))

private theorem utf8Size_eq_succ (c : Char) : ∃ n, c.utf8Size = n + 1 :=
  ⟨c.utf8Size - 1, by have := c.utf8Size_pos; omega⟩

/-- Dropping the bytes of what comes first leaves what comes second. -/
theorem dropBytes_append (cs ds : List Char) : dropBytes (byteLength cs) (cs ++ ds) = ds := by
  induction cs with
  | nil => cases ds <;> simp [dropBytes]
  | cons c cs ih =>
    obtain ⟨n, hn⟩ := utf8Size_eq_succ c
    have hsum : n + 1 + byteLength cs = n + byteLength cs + 1 := by omega
    have hrest : n + byteLength cs + 1 - (n + 1) = byteLength cs := by omega
    rw [byteLength_cons, hn, hsum, List.cons_append, dropBytes, hn, hrest, ih]

/-- Taking the bytes of what comes first gives what comes first. -/
theorem takeBytes_append (cs ds : List Char) : takeBytes (byteLength cs) (cs ++ ds) = cs := by
  induction cs with
  | nil => cases ds <;> simp [takeBytes]
  | cons c cs ih =>
    obtain ⟨n, hn⟩ := utf8Size_eq_succ c
    have hsum : n + 1 + byteLength cs = n + byteLength cs + 1 := by omega
    have hrest : n + byteLength cs + 1 - (n + 1) = byteLength cs := by omega
    rw [byteLength_cons, hn, hsum, List.cons_append, takeBytes, hn, hrest, ih]

/-- The slice between the byte lengths of two beginnings of a text is what lies between them. -/
theorem slice_append (before middle after : List Char) :
    slice (String.ofList (before ++ middle ++ after)) (byteLength before)
      (byteLength before + byteLength middle) = String.ofList middle := by
  unfold slice
  rw [String.toList_ofList, List.append_assoc, dropBytes_append, Nat.add_sub_cancel_left,
    takeBytes_append]

end JavaGraph.Text
