import JavaGraph.Text.Utf8
/-!
# Which bytes are UTF-8

Bytes are UTF-8 if they are the encodings of characters, one after the other. Reading gives these
characters back, and it replaces nothing exactly where the bytes are UTF-8.
-/

namespace JavaGraph.Text

/-- The bytes are the encodings of some characters. -/
def IsUtf8 (bytes : List UInt8) : Prop := ∃ cs : List Char, bytes = cs.flatMap String.utf8EncodeChar

/-! ### Sequences of bytes -/

/-- A byte between the bounds continues a sequence. -/
private theorem continuation_cons {low high : Nat} {byte : UInt8} (h : low ≤ byte.toNat)
    (h' : byte.toNat ≤ high) (count : Nat) (bytes : List UInt8) :
    continuation (count + 1) low high (byte :: bytes) =
      byte :: continuation count 0x80 0xBF bytes :=
  if_pos ⟨h, h'⟩

/-- A sequence that goes on as long as announced begins with a byte between the bounds. -/
private theorem exists_of_continuation {count low high : Nat} {bytes : List UInt8}
    (h : (continuation (count + 1) low high bytes).length = count + 1) :
    ∃ byte rest, bytes = byte :: rest ∧ low ≤ byte.toNat ∧ byte.toNat ≤ high ∧
      (continuation count 0x80 0xBF rest).length = count := by
  cases bytes with
  | nil => cases h
  | cons byte rest =>
    rw [continuation] at h
    split at h
    · next hb => exact ⟨byte, rest, rfl, hb.1, hb.2, Nat.succ.inj h⟩
    · cases h

private theorem ofByte?_two {n : Nat} (h : 0xC2 ≤ n) (h' : n ≤ 0xDF) :
    Lead.ofByte? n = some ⟨1, 0x80, 0xBF, n - 0xC0⟩ :=
  if_pos ⟨h, h'⟩

private theorem ofByte?_three {n : Nat} (h : 0xE0 ≤ n) (h' : n ≤ 0xEF) : Lead.ofByte? n =
    some ⟨2, if n = 0xE0 then 0xA0 else 0x80, if n = 0xED then 0x9F else 0xBF, n - 0xE0⟩ := by
  unfold Lead.ofByte?
  rw [if_neg (by omega)]
  by_cases h0 : n = 0xE0
  · simp [h0]
  · by_cases hD : n = 0xED
    · simp [hD]
    · rw [if_neg h0, if_neg hD, if_pos (by omega), if_neg h0, if_neg hD]

private theorem ofByte?_four {n : Nat} (h : 0xF0 ≤ n) (h' : n ≤ 0xF4) : Lead.ofByte? n =
    some ⟨3, if n = 0xF0 then 0x90 else 0x80, if n = 0xF4 then 0x8F else 0xBF, n - 0xF0⟩ := by
  unfold Lead.ofByte?
  rw [if_neg (by omega), if_neg (by omega), if_neg (by omega), if_neg (by omega)]
  by_cases h0 : n = 0xF0
  · simp [h0]
  · by_cases h4 : n = 0xF4
    · simp [h4]
    · rw [if_neg h0, if_pos (by omega), if_neg h0, if_neg h4]

/-- The other bytes begin no longer sequence. -/
private theorem lead_cases {n : Nat} {lead : Lead} (h : Lead.ofByte? n = some lead) :
    0xC2 ≤ n ∧ n ≤ 0xDF ∨ 0xE0 ≤ n ∧ n ≤ 0xEF ∨ 0xF0 ≤ n ∧ n ≤ 0xF4 := by
  unfold Lead.ofByte? at h
  grind

/-! ### Reading what was written -/

private theorem toNat_byte {n : Nat} (h : n < 256) : (UInt8.ofNat n).toNat = n :=
  UInt8.toNat_ofNat_of_lt' h

/-- A sequence is read that is as long as its lead byte announces. -/
private theorem decode?_lead {byte : UInt8} {lead : Lead} (hb : 0x80 ≤ byte.toNat)
    (hl : Lead.ofByte? byte.toNat = some lead) (following : List UInt8) {rest : List UInt8}
    (hf : continuation lead.count lead.low lead.high (following ++ rest) = following)
    (hc : following.length = lead.count) :
    decode? (byte :: (following ++ rest)) =
      some (Char.ofNat (codePoint lead.bits following)) :: decode? rest := by
  have hbyte : ¬ byte < 0x80 := by
    rw [UInt8.lt_iff_toNat_lt]
    exact Nat.not_lt.2 hb
  rw [decode?, if_neg hbyte, hl]
  simp only [hf, hc, if_true]
  rw [← hc, List.drop_left]

/-- Two bytes that share out a code point are read as its character. -/
private theorem decode?_two {v : Nat} {b₀ b₁ : UInt8} (h0 : b₀.toNat = v / 64 % 32 + 192)
    (h1 : b₁.toNat = v % 64 + 128) (hv : 0x80 ≤ v) (hv' : v < 0x800) (rest : List UInt8) :
    decode? ([b₀, b₁] ++ rest) = some (Char.ofNat v) :: decode? rest := by
  have hl := ofByte?_two (n := b₀.toNat) (by omega) (by omega)
  have hcode : codePoint (b₀.toNat - 0xC0) [b₁] = v := by
    simp only [codePoint, List.foldl_cons, List.foldl_nil]
    omega
  refine (decode?_lead (by omega) hl [b₁] ?_ rfl).trans (by rw [hcode])
  exact continuation_cons (by dsimp only; omega) (by dsimp only; omega) 0 rest

/-- Three bytes that share out a code point are read as its character. -/
private theorem decode?_three {v : Nat} {b₀ b₁ b₂ : UInt8}
    (h0 : b₀.toNat = v / 4096 % 16 + 224) (h1 : b₁.toNat = v / 64 % 64 + 128)
    (h2 : b₂.toNat = v % 64 + 128) (hv : 0x800 ≤ v) (hv' : v < 0x10000)
    (hsurrogate : v < 0xD800 ∨ 0xDFFF < v) (rest : List UInt8) :
    decode? ([b₀, b₁, b₂] ++ rest) = some (Char.ofNat v) :: decode? rest := by
  have hl := ofByte?_three (n := b₀.toNat) (by omega) (by omega)
  have hcode : codePoint (b₀.toNat - 0xE0) [b₁, b₂] = v := by
    simp only [codePoint, List.foldl_cons, List.foldl_nil]
    omega
  refine (decode?_lead (by omega) hl [b₁, b₂] ?_ rfl).trans (by rw [hcode])
  refine (continuation_cons ?_ ?_ 1 _).trans
    (congrArg _ (continuation_cons (by omega) (by omega) 0 rest)) <;>
    (dsimp only; split <;> omega)

/-- Four bytes that share out a code point are read as its character. -/
private theorem decode?_four {v : Nat} {b₀ b₁ b₂ b₃ : UInt8}
    (h0 : b₀.toNat = v / 262144 % 8 + 240) (h1 : b₁.toNat = v / 4096 % 64 + 128)
    (h2 : b₂.toNat = v / 64 % 64 + 128) (h3 : b₃.toNat = v % 64 + 128) (hv : 0x10000 ≤ v)
    (hv' : v < 0x110000) (rest : List UInt8) :
    decode? ([b₀, b₁, b₂, b₃] ++ rest) = some (Char.ofNat v) :: decode? rest := by
  have hl := ofByte?_four (n := b₀.toNat) (by omega) (by omega)
  have hcode : codePoint (b₀.toNat - 0xF0) [b₁, b₂, b₃] = v := by
    simp only [codePoint, List.foldl_cons, List.foldl_nil]
    omega
  refine (decode?_lead (by omega) hl [b₁, b₂, b₃] ?_ rfl).trans (by rw [hcode])
  refine (continuation_cons ?_ ?_ 2 _).trans
    (congrArg _ ((continuation_cons (by omega) (by omega) 1 _).trans
      (congrArg _ (continuation_cons (by omega) (by omega) 0 rest)))) <;>
    (dsimp only; split <;> omega)

/-- A character is read back from its bytes. -/
theorem decode?_encode (c : Char) (rest : List UInt8) :
    decode? (String.utf8EncodeChar c ++ rest) = some c :: decode? rest := by
  have hv : c.val.toNat < 0xD800 ∨ 0xDFFF < c.val.toNat ∧ c.val.toNat < 0x110000 := c.valid
  have hc : Char.ofNat c.val.toNat = c := Char.ofNat_toNat c
  unfold String.utf8EncodeChar
  generalize c.val.toNat = v at hv hc
  subst hc
  dsimp only
  have hnext (n : Nat) : (UInt8.ofNat (n % 64 + 128)).toNat = n % 64 + 128 := toNat_byte (by omega)
  split
  · have hlt : UInt8.ofNat v < 0x80 := by
      rw [UInt8.lt_iff_toNat_lt, toNat_byte (by omega)]
      exact Nat.lt_succ_of_le ‹_›
    rw [List.singleton_append, decode?, if_pos hlt, toNat_byte (by omega)]
  split
  · exact decode?_two (toNat_byte (by omega)) (hnext _) (by omega) (by omega) rest
  split
  · exact decode?_three (toNat_byte (by omega)) (hnext _) (hnext _) (by omega) (by omega)
      (by omega) rest
  · exact decode?_four (toNat_byte (by omega)) (hnext _) (hnext _) (hnext _) (by omega) (by omega)
      rest

/-- Characters are read back from their bytes. -/
theorem decode?_flatMap_encode (cs : List Char) :
    decode? (cs.flatMap String.utf8EncodeChar) = cs.map some := by
  induction cs with
  | nil => simp [decode?]
  | cons c cs ih => rw [List.flatMap_cons, decode?_encode, ih, List.map_cons]

/-! ### Writing what was read -/

private theorem ofNat_byte (byte : UInt8) {n : Nat} (h : n = byte.toNat) : UInt8.ofNat n = byte := by
  rw [h, UInt8.ofNat_toNat]

private theorem val_ofNat {n : Nat} (h : n < 0xD800 ∨ 0xDFFF < n ∧ n < 0x110000) :
    (Char.ofNat n).val.toNat = n := by
  have hv : n.isValidChar := h
  rw [Char.ofNat, dif_pos hv]
  rfl

/-- What two bytes stand for is encoded as them. -/
private theorem encode_two {b₀ b₁ : UInt8} (h : 0xC2 ≤ b₀.toNat) (h' : b₀.toNat ≤ 0xDF)
    (h1 : 0x80 ≤ b₁.toNat) (h1' : b₁.toNat ≤ 0xBF) :
    String.utf8EncodeChar (Char.ofNat ((b₀.toNat - 0xC0) * 64 + (b₁.toNat - 0x80))) =
      [b₀, b₁] := by
  unfold String.utf8EncodeChar
  rw [val_ofNat (by omega)]
  dsimp only
  rw [if_neg (by omega), if_pos (by omega), ofNat_byte b₀ (by omega), ofNat_byte b₁ (by omega)]

/-- What three bytes stand for is encoded as them, but for overlong sequences and surrogates. -/
private theorem encode_three {b₀ b₁ b₂ : UInt8} (h : 0xE0 ≤ b₀.toNat) (h' : b₀.toNat ≤ 0xEF)
    (h1 : 0x80 ≤ b₁.toNat) (h1' : b₁.toNat ≤ 0xBF) (hlow : b₀.toNat = 0xE0 → 0xA0 ≤ b₁.toNat)
    (hsurrogate : b₀.toNat = 0xED → b₁.toNat ≤ 0x9F) (h2 : 0x80 ≤ b₂.toNat)
    (h2' : b₂.toNat ≤ 0xBF) :
    String.utf8EncodeChar (Char.ofNat ((b₀.toNat - 0xE0) * 4096 + (b₁.toNat - 0x80) * 64 +
      (b₂.toNat - 0x80))) = [b₀, b₁, b₂] := by
  unfold String.utf8EncodeChar
  rw [val_ofNat (by omega)]
  dsimp only
  rw [if_neg (by omega), if_neg (by omega), if_pos (by omega),
    ofNat_byte b₀ (by omega), ofNat_byte b₁ (by omega), ofNat_byte b₂ (by omega)]

/-- What four bytes stand for is encoded as them, but for overlong sequences and what is no code
point. -/
private theorem encode_four {b₀ b₁ b₂ b₃ : UInt8} (h : 0xF0 ≤ b₀.toNat) (h' : b₀.toNat ≤ 0xF4)
    (h1 : 0x80 ≤ b₁.toNat) (h1' : b₁.toNat ≤ 0xBF) (hlow : b₀.toNat = 0xF0 → 0x90 ≤ b₁.toNat)
    (hhigh : b₀.toNat = 0xF4 → b₁.toNat ≤ 0x8F) (h2 : 0x80 ≤ b₂.toNat) (h2' : b₂.toNat ≤ 0xBF)
    (h3 : 0x80 ≤ b₃.toNat) (h3' : b₃.toNat ≤ 0xBF) :
    String.utf8EncodeChar (Char.ofNat ((b₀.toNat - 0xF0) * 262144 + (b₁.toNat - 0x80) * 4096 +
      (b₂.toNat - 0x80) * 64 + (b₃.toNat - 0x80))) = [b₀, b₁, b₂, b₃] := by
  unfold String.utf8EncodeChar
  rw [val_ofNat (by omega)]
  dsimp only
  rw [if_neg (by omega), if_neg (by omega), if_neg (by omega),
    ofNat_byte b₀ (by omega), ofNat_byte b₁ (by omega), ofNat_byte b₂ (by omega),
    ofNat_byte b₃ (by omega)]

/-- A sequence that is as long as announced is the encoding of a character. -/
private theorem exists_encode {b₀ : UInt8} {lead : Lead} {bytes : List UInt8}
    (hl : Lead.ofByte? b₀.toNat = some lead)
    (hf : (continuation lead.count lead.low lead.high bytes).length = lead.count) :
    ∃ c, b₀ :: bytes = String.utf8EncodeChar c ++ bytes.drop lead.count := by
  rcases lead_cases hl with ⟨h, h'⟩ | ⟨h, h'⟩ | ⟨h, h'⟩
  · rw [ofByte?_two h h'] at hl
    cases hl
    obtain ⟨b₁, rest, rfl, h1, h1', -⟩ := exists_of_continuation hf
    exact ⟨_, congrArg (· ++ rest) (encode_two h h' h1 h1').symm⟩
  · rw [ofByte?_three h h'] at hl
    cases hl
    obtain ⟨b₁, rest, rfl, h1, h1', hf⟩ := exists_of_continuation hf
    obtain ⟨b₂, rest, rfl, h2, h2', -⟩ := exists_of_continuation hf
    dsimp only at h1 h1'
    have hsecond : 0x80 ≤ b₁.toNat ∧ b₁.toNat ≤ 0xBF ∧ (b₀.toNat = 0xE0 → 0xA0 ≤ b₁.toNat) ∧
        (b₀.toNat = 0xED → b₁.toNat ≤ 0x9F) := by
      split at h1 <;> split at h1' <;> omega
    obtain ⟨h1, h1', hlow, hsurrogate⟩ := hsecond
    exact ⟨_, congrArg (· ++ rest) (encode_three h h' h1 h1' hlow hsurrogate h2 h2').symm⟩
  · rw [ofByte?_four h h'] at hl
    cases hl
    obtain ⟨b₁, rest, rfl, h1, h1', hf⟩ := exists_of_continuation hf
    obtain ⟨b₂, rest, rfl, h2, h2', hf⟩ := exists_of_continuation hf
    obtain ⟨b₃, rest, rfl, h3, h3', -⟩ := exists_of_continuation hf
    dsimp only at h1 h1'
    have hsecond : 0x80 ≤ b₁.toNat ∧ b₁.toNat ≤ 0xBF ∧ (b₀.toNat = 0xF0 → 0x90 ≤ b₁.toNat) ∧
        (b₀.toNat = 0xF4 → b₁.toNat ≤ 0x8F) := by
      split at h1 <;> split at h1' <;> omega
    obtain ⟨h1, h1', hlow, hhigh⟩ := hsecond
    exact ⟨_, congrArg (· ++ rest) (encode_four h h' h1 h1' hlow hhigh h2 h2' h3 h3').symm⟩

/-- One more character in front. -/
private theorem IsUtf8.cons {bytes : List UInt8} (h : IsUtf8 bytes) (c : Char) :
    IsUtf8 (String.utf8EncodeChar c ++ bytes) := by
  obtain ⟨cs, rfl⟩ := h
  exact ⟨c :: cs, rfl⟩

/-- Bytes of which nothing is malformed are UTF-8. -/
theorem isUtf8_of_decode? (bytes : List UInt8) (h : none ∉ decode? bytes) : IsUtf8 bytes := by
  fun_induction decode? bytes with
  | case1 => exact ⟨[], rfl⟩
  | case2 byte bytes hb ih =>
    have hascii : byte.toNat < 0x80 := UInt8.lt_iff_toNat_lt.1 hb
    have hencode : String.utf8EncodeChar (Char.ofNat byte.toNat) = [byte] := by
      unfold String.utf8EncodeChar
      rw [val_ofNat (by omega)]
      dsimp only
      rw [if_pos (by omega), UInt8.ofNat_toNat]
    have hutf := (ih fun hm => h (List.mem_cons_of_mem _ hm)).cons (Char.ofNat byte.toNat)
    rwa [hencode] at hutf
  | case3 => exact absurd (List.mem_cons_self ..) h
  | case4 byte bytes hb lead hl following hf ih =>
    obtain ⟨c, hc⟩ := exists_encode hl hf
    rw [hc]
    exact (ih fun hm => h (List.mem_cons_of_mem _ hm)).cons c
  | case5 => exact absurd (List.mem_cons_self ..) h

/-- What is written in UTF-8 is read as it was written. -/
theorem decode_encode (cs : List Char) :
    decode (cs.flatMap String.utf8EncodeChar) = ⟨String.ofList cs, false⟩ := by
  simp only [decode, decode?_flatMap_encode]
  congr 1
  · simp [Function.comp_def]
  · simp

/-- Nothing is replaced exactly where the bytes are UTF-8. -/
theorem lossy_decode_eq_false_iff (bytes : List UInt8) :
    (decode bytes).lossy = false ↔ IsUtf8 bytes := by
  constructor
  · intro h
    refine isUtf8_of_decode? bytes fun hm => ?_
    have hany : (decode bytes).lossy = true := List.any_eq_true.2 ⟨none, hm, rfl⟩
    rw [hany] at h
    cases h
  · rintro ⟨cs, rfl⟩
    rw [decode_encode]

instance (bytes : List UInt8) : Decidable (IsUtf8 bytes) :=
  decidable_of_iff _ (lossy_decode_eq_false_iff bytes)

end JavaGraph.Text
