/-!
# UTF-8 with replacement of malformed bytes

Bytes are read as UTF-8. Where they are malformed, each maximal subpart of a sequence that no
character begins with is read as one replacement character.
-/

namespace JavaGraph.Text

/-- The character that stands for bytes that are not UTF-8. -/
def replacement : Char := '\uFFFD'

/-- What a lead byte of a sequence of several bytes announces. -/
structure Lead where
  /-- How many bytes follow. -/
  count : Nat
  /-- The least value of the first byte that follows. -/
  low : Nat
  /-- The greatest value of the first byte that follows. -/
  high : Nat
  /-- The lead byte's share of the code point. -/
  bits : Nat

/-- The announcement of a lead byte; none for a byte that begins no longer sequence. -/
def Lead.ofByte? (byte : Nat) : Option Lead :=
  if 0xC2 ≤ byte ∧ byte ≤ 0xDF then some ⟨1, 0x80, 0xBF, byte - 0xC0⟩
  else if byte = 0xE0 then some ⟨2, 0xA0, 0xBF, 0⟩
  else if byte = 0xED then some ⟨2, 0x80, 0x9F, byte - 0xE0⟩
  else if 0xE1 ≤ byte ∧ byte ≤ 0xEF then some ⟨2, 0x80, 0xBF, byte - 0xE0⟩
  else if byte = 0xF0 then some ⟨3, 0x90, 0xBF, 0⟩
  else if 0xF1 ≤ byte ∧ byte ≤ 0xF3 then some ⟨3, 0x80, 0xBF, byte - 0xF0⟩
  else if byte = 0xF4 then some ⟨3, 0x80, 0x8F, byte - 0xF0⟩
  else none

/-- The bytes at the front that continue a sequence, at most `count` of them; the first lies
between `low` and `high`. -/
def continuation : (count low high : Nat) → List UInt8 → List UInt8
  | 0, _, _, _ => []
  | _ + 1, _, _, [] => []
  | count + 1, low, high, byte :: bytes =>
    if low ≤ byte.toNat ∧ byte.toNat ≤ high then byte :: continuation count 0x80 0xBF bytes else []

/-- The code point of a sequence from the lead byte's share and the bytes that follow. -/
def codePoint (bits : Nat) (following : List UInt8) : Nat :=
  following.foldl (fun code byte => code * 0x40 + (byte.toNat - 0x80)) bits

/-- The characters of a byte sequence; none for each malformed subpart. -/
def decode? : List UInt8 → List (Option Char)
  | [] => []
  | byte :: bytes =>
    if byte < 0x80 then some (Char.ofNat byte.toNat) :: decode? bytes
    else
      match Lead.ofByte? byte.toNat with
      | none => none :: decode? bytes
      | some lead =>
        let following := continuation lead.count lead.low lead.high bytes
        if following.length = lead.count then
          some (Char.ofNat (codePoint lead.bits following)) :: decode? (bytes.drop lead.count)
        else none :: decode? (bytes.drop following.length)
termination_by bytes => bytes.length
decreasing_by all_goals simp only [List.length_cons, List.length_drop]; omega

/-- A text read from bytes. -/
structure Decoded where
  text : String
  /-- Whether some bytes were malformed and are replaced. -/
  lossy : Bool

/-- Read bytes as UTF-8, replacing what is malformed. -/
def decode (bytes : List UInt8) : Decoded :=
  let characters := decode? bytes
  ⟨String.ofList (characters.map (·.getD replacement)), characters.any (·.isNone)⟩

end JavaGraph.Text
