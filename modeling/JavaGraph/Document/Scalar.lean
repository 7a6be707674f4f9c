import JavaGraph.Document.Json
/-!
# Texts as YAML scalars

A text is written plain if it then reads as the same text. It is quoted if it would read as
another value (`true`, `null`, a number), if it holds what has a meaning in YAML, or if blanks or
line ends would be lost; a text of several lines is written as a literal block where that is
possible.
-/

namespace JavaGraph.Document

/-! ### Texts that read as other values -/

/-- The words that stand for no value, for truth values, and for special numbers. -/
def reservedWords : List String :=
  ["null", "Null", "NULL", "~",
   "true", "True", "TRUE", "false", "False", "FALSE",
   ".inf", ".Inf", ".INF", "+.inf", "+.Inf", "+.INF", "-.inf", "-.Inf", "-.INF",
   ".nan", ".NaN", ".NAN"]

/-- The value of a digit in a base of up to 16. -/
def digitValue? (base : Nat) (c : Char) : Option Nat :=
  let value :=
    if c.isDigit then some (c.toNat - 48)
    else if 'a' ≤ c ∧ c ≤ 'f' then some (c.toNat - 87)
    else if 'A' ≤ c ∧ c ≤ 'F' then some (c.toNat - 55)
    else none
  value.filter (· < base)

/-- The number written with digits of a base; at least one is needed. -/
def numeral? (base : Nat) (cs : List Char) : Option Nat :=
  if cs.isEmpty then none
  else cs.foldlM (fun n c => (digitValue? base c).map (n * base + ·)) 0

/-- Whether characters are a numeral with a marked base, up to a greatest value. -/
def isMarkedInteger (greatest : Nat) (cs : List Char) : Bool :=
  match cs with
  | '0' :: 'x' :: digits => (numeral? 16 digits).any (· ≤ greatest)
  | '0' :: 'o' :: digits => (numeral? 8 digits).any (· ≤ greatest)
  | '0' :: 'b' :: digits => (numeral? 2 digits).any (· ≤ greatest)
  | _ => false

/-- The parts of a decimal number: digits before the point, digits behind it, and exponent. -/
structure DecimalParts where
  whole : List Char
  fraction : List Char
  exponent : Int

/-- The exponent that characters denote; none of them is an exponent of 0. -/
def exponent? (cs : List Char) : Option Int :=
  match cs with
  | [] => some 0
  | e :: rest =>
    if e = 'e' ∨ e = 'E' then
      match rest with
      | '-' :: digits => (numeral? 10 digits).map fun n => -(n : Int)
      | '+' :: digits => (numeral? 10 digits).map fun n => (n : Int)
      | digits => (numeral? 10 digits).map fun n => (n : Int)
    else none

/-- The parts of a decimal number without a sign. -/
def decimalParts? (cs : List Char) : Option DecimalParts :=
  let whole := cs.takeWhile Char.isDigit
  let (fraction, rest) :=
    match cs.dropWhile Char.isDigit with
    | '.' :: rest => (rest.takeWhile Char.isDigit, rest.dropWhile Char.isDigit)
    | rest => ([], rest)
  if whole.isEmpty && fraction.isEmpty then none
  else (exponent? rest).map fun exponent => ⟨whole, fraction, exponent⟩

/-- Whether a decimal number is below what double precision rounds to infinity. -/
def DecimalParts.isFinite (parts : DecimalParts) : Bool :=
  let digits := (parts.whole ++ parts.fraction).dropWhile (· == '0')
  let exponent := parts.exponent - parts.fraction.length
  let magnitude : Int := digits.length + exponent
  if digits.isEmpty ∨ magnitude < 300 then true
  else if 320 < magnitude then false
  else
    let value := (numeral? 10 digits).getD 0
    let bound := Nat.pow 2 1024 - Nat.pow 2 970
    if 0 ≤ exponent then value * Nat.pow 10 exponent.toNat < bound
    else value < bound * Nat.pow 10 (-exponent).toNat

/-- Whether characters without a sign are a finite decimal number. -/
def isDecimal (cs : List Char) : Bool :=
  (decimalParts? cs).any DecimalParts.isFinite

/-- Whether characters are a number, with a sign or without. -/
def isNumber (cs : List Char) : Bool :=
  match cs with
  | '-' :: rest => isMarkedInteger (Nat.pow 2 127) rest || isDecimal rest
  | '+' :: rest => isMarkedInteger (Nat.pow 2 128 - 1) rest || isDecimal rest
  | rest => isMarkedInteger (Nat.pow 2 128 - 1) rest || isDecimal rest

/-- Whether characters are digits with a zero in front, which some readers take for octal. -/
def isZeroPadded (cs : List Char) : Bool :=
  let digits := match cs with
    | '-' :: rest => rest
    | '+' :: rest => rest
    | rest => rest
  match digits with
  | '0' :: d :: rest => (d :: rest).all Char.isDigit
  | _ => false

/-- Whether a text written plain would read as something else than this text. -/
def readsAsOther (text : String) : Bool :=
  text.isEmpty || reservedWords.contains text || isNumber text.toList || isZeroPadded text.toList

/-! ### Texts that plain style cannot hold -/

/-- Characters that end a line. -/
def isBreak (c : Char) : Bool :=
  c == '\r' || c == '\n' || c == '\u0085' || c == '\u2028' || c == '\u2029'

/-- Blanks and tabs, line ends, and the end of the text. -/
def isBlankOrEnd (c : Option Char) : Bool :=
  match c with
  | none => true
  | some c => c == ' ' || c == '\t' || c == '\x00' || isBreak c

/-- Characters that are written as they are. -/
def isPrintable (c : Char) : Bool :=
  let n := c.toNat
  n == 0x0A || (0x20 ≤ n && n ≤ 0x7E) ||
    (0xA0 ≤ n && n != 0xFEFF && n != 0xFFFE && n != 0xFFFF)

/-- Characters that mean something at the beginning of a scalar. -/
def startIndicators : List Char :=
  ['#', ',', '[', ']', '\x7b', '\x7d', '&', '*', '!', '|', '>', '\'', '"', '%', '@', '\x60']

/-- Whether the first character, before `next`, means something in YAML. -/
def startsIndicator (c : Char) (next : Option Char) : Bool :=
  startIndicators.contains c || ((c == '?' || c == ':' || c == '-') && isBlankOrEnd next)

/-- Whether some later character means something in YAML: a `:` before a blank or a `#` behind
one. `previous` is the character before the list. -/
def holdsIndicator (previous : Char) : List Char → Bool
  | [] => false
  | c :: rest =>
    (c == ':' && isBlankOrEnd rest.head?) || (c == '#' && isBlankOrEnd (some previous)) ||
      holdsIndicator c rest

/-- Whether a text holds something that has a meaning in YAML where it stands. -/
def hasIndicator (cs : List Char) : Bool :=
  match cs with
  | [] => false
  | c :: rest =>
    ['-', '-', '-'].isPrefixOf cs || ['.', '.', '.'].isPrefixOf cs ||
      startsIndicator c rest.head? || holdsIndicator c rest

/-- Whether two neighbours in a text satisfy `p`. -/
def hasNeighbours (p : Char → Char → Bool) : List Char → Bool
  | c :: d :: rest => p c d || hasNeighbours p (d :: rest)
  | _ => false

/-- The ways to write a text. -/
inductive ScalarStyle where
  | plain | singleQuoted | doubleQuoted | literal
deriving DecidableEq, Repr

/-- Whether quotes and blocks would lose something: a blank before a line end, or a character
that has to be written by its number. -/
def needsEscapes (cs : List Char) : Bool :=
  !cs.all isPrintable || hasNeighbours (fun c d => c == ' ' && isBreak d) cs

/-- Whether blanks or line ends stand at the edges of a text. -/
def hasBlankEdge (cs : List Char) : Bool :=
  let isEdge (c : Char) := c == ' ' || isBreak c
  cs.head?.any isEdge || cs.getLast?.any isEdge

/-- Between quotes, a text of several lines loses a blank behind a line end. -/
def singleOrDouble (cs : List Char) : ScalarStyle :=
  if needsEscapes cs || hasNeighbours (fun c d => isBreak c && d == ' ') cs then .doubleQuoted
  else .singleQuoted

/-- How a text is written. -/
def scalarStyle (text : String) : ScalarStyle :=
  let cs := text.toList
  if readsAsOther text then .singleQuoted
  else if cs.contains '\n' then
    if needsEscapes cs || cs.getLast? == some ' ' then .doubleQuoted else .literal
  else if needsEscapes cs || hasBlankEdge cs || cs.any isBreak || hasIndicator cs then
    singleOrDouble cs
  else .plain

/-! ### Writing -/

/-- A character between double quotes. -/
def escapeDouble (c : Char) : List Char :=
  let n := c.toNat
  if c = '"' then ['\\', '"']
  else if c = '\\' then ['\\', '\\']
  else if n = 0x00 then ['\\', '0']
  else if n = 0x07 then ['\\', 'a']
  else if n = 0x08 then ['\\', 'b']
  else if n = 0x09 then ['\\', 't']
  else if n = 0x0A then ['\\', 'n']
  else if n = 0x0B then ['\\', 'v']
  else if n = 0x0C then ['\\', 'f']
  else if n = 0x0D then ['\\', 'r']
  else if n = 0x1B then ['\\', 'e']
  else if n = 0x85 then ['\\', 'N']
  else if n = 0x2028 then ['\\', 'L']
  else if n = 0x2029 then ['\\', 'P']
  else if isPrintable c then [c]
  else if n ≤ 0xFF then ['\\', 'x'] ++ hexDigits false 2 n
  else if n ≤ 0xFFFF then ['\\', 'u'] ++ hexDigits false 4 n
  else ['\\', 'U'] ++ hexDigits false 8 n

/-- A text between double quotes. -/
def doubleQuoted (cs : List Char) : String :=
  String.ofList ('"' :: cs.flatMap escapeDouble ++ ['"'])

/-- Characters of which every line after a line end is indented. -/
def indentLines (indent : Nat) (escape : Char → List Char) : (afterBreak : Bool) → List Char →
    List Char
  | _, [] => []
  | afterBreak, c :: rest =>
    if isBreak c then c :: indentLines indent escape true rest
    else
      (if afterBreak then List.replicate indent ' ' else []) ++ escape c ++
        indentLines indent escape false rest

/-- A text between single quotes. -/
def singleQuoted (indent : Nat) (cs : List Char) : String :=
  let escape (c : Char) := if c = '\'' then ['\'', '\''] else [c]
  let closing := if cs.getLast?.any isBreak then List.replicate indent ' ' else []
  String.ofList ('\'' :: indentLines indent escape false cs ++ closing ++ ['\''])

/-- What follows the bar of a literal block: whether its first line needs a stated indentation,
and what becomes of line ends behind the text. -/
def literalHints (cs : List Char) : String :=
  let indentation := if cs.head?.any fun c => c == ' ' || isBreak c then "2" else ""
  let chomping := match cs.reverse with
    | [] => "-"
    | c :: rest =>
      if !isBreak c then "-"
      else match rest with
        | [] => "+"
        | d :: _ => if isBreak d then "+" else ""
  indentation ++ chomping

/-- A text as a literal block. -/
def literalBlock (indent : Nat) (cs : List Char) : String :=
  "|" ++ literalHints cs ++ "\n" ++ String.ofList (indentLines indent (fun c => [c]) true cs)

/-- A text as a scalar within something indented by `indent`. -/
def yamlText (indent : Nat) (text : String) : String :=
  match scalarStyle text with
  | .plain => text
  | .singleQuoted => singleQuoted (indent + 2) text.toList
  | .doubleQuoted => doubleQuoted text.toList
  | .literal => literalBlock (indent + 2) text.toList

end JavaGraph.Document
