/-!
# Texts as bytes

The bytes of a text in UTF-8, and the text that bytes stand for. Reading goes through the bytes once
and gives the characters that it finds, with a mark for each malformed part: a byte that begins no
character, or the longest beginning of a character that does not go on. Surrogates and characters
that are longer than they have to be are malformed as well. `decode?` refuses malformed parts, and
`decodeLossy` puts the replacement character in their place.
-/

namespace StaticSite.Text

def encode (s : String) : List UInt8 := s.toList.flatMap String.utf8EncodeChar

/-- A character of which the first bytes have been read: how many bytes are missing, the bounds of
the next one, and the bits so far. -/
structure Unfinished where
  missing : Nat
  low : UInt8
  high : UInt8
  bits : Nat

/-- What a byte begins that is no character on its own. The bounds of the second byte leave out
surrogates, numbers beyond the last character, and spellings that are too long. -/
def Unfinished.begin? (b : UInt8) : Option Unfinished :=
  if 0xC2 ≤ b ∧ b ≤ 0xDF then some ⟨1, 0x80, 0xBF, b.toNat - 0xC0⟩
  else if 0xE0 ≤ b ∧ b ≤ 0xEF then
    some ⟨2, if b = 0xE0 then 0xA0 else 0x80, if b = 0xED then 0x9F else 0xBF, b.toNat - 0xE0⟩
  else if 0xF0 ≤ b ∧ b ≤ 0xF4 then
    some ⟨3, if b = 0xF0 then 0x90 else 0x80, if b = 0xF4 then 0x8F else 0xBF, b.toNat - 0xF0⟩
  else none

abbrev Found := Option Char

def firstByte (b : UInt8) : List Found × Option Unfinished :=
  if b < 0x80 then ([some (Char.ofNat b.toNat)], none)
  else
    match Unfinished.begin? b with
    | none => ([none], none)
    | some u => ([], some u)

/-- What a byte gives inside a character, and the character that goes on after it. A byte that does
not belong there is taken for a first one. -/
def Unfinished.nextByte (u : Unfinished) (b : UInt8) : List Found × Option Unfinished :=
  if u.low ≤ b ∧ b ≤ u.high then
    let bits := u.bits * 64 + (b.toNat - 0x80)
    if u.missing = 1 then ([some (Char.ofNat bits)], none)
    else ([], some ⟨u.missing - 1, 0x80, 0xBF, bits⟩)
  else
    -- What was read so far is one malformed part.
    let (found, u) := firstByte b
    (none :: found, u)

def findChars : Option Unfinished → List UInt8 → List Found
  | none, [] => []
  | some _, [] => [none]
  | none, b :: rest =>
    let (found, u) := firstByte b
    found ++ findChars u rest
  | some u, b :: rest =>
    let (found, u) := u.nextByte b
    found ++ findChars u rest

def decode? (bytes : List UInt8) : Option String :=
  ((findChars none bytes).mapM id).map String.ofList

/-- The text that bytes stand for, with a replacement character for each malformed part. -/
def decodeLossy (bytes : List UInt8) : String :=
  String.ofList ((findChars none bytes).map fun c => c.getD '\ufffd')

end StaticSite.Text
