/-!
# Lossy reading of UTF-8

Bytes are read as UTF-8; each maximal part of an ill-formed sequence becomes one replacement
character U+FFFD.  A lead byte is followed by continuation bytes, and the first of these is further
limited after `E0`, `ED`, `F0` and `F4`, which keeps out long forms, surrogates and numbers above
U+10FFFF.
-/

namespace RouteDispatch
namespace Text

/-- What a lead byte asks for: its own bits, the range of the next byte, and how many
continuation bytes follow in all. -/
structure LeadByte where
  bits : Nat
  low : Nat
  high : Nat
  count : Nat

/-- The lead byte `b`, or `none` when no sequence starts with `b`. -/
def leadByte? (b : Nat) : Option LeadByte :=
  if b < 0x80 then some ⟨b, 0, 0, 0⟩
  else if 0xC2 ≤ b ∧ b ≤ 0xDF then some ⟨b - 0xC0, 0x80, 0xBF, 1⟩
  else if b = 0xE0 then some ⟨b - 0xE0, 0xA0, 0xBF, 2⟩
  else if b = 0xED then some ⟨b - 0xE0, 0x80, 0x9F, 2⟩
  else if 0xE1 ≤ b ∧ b ≤ 0xEF then some ⟨b - 0xE0, 0x80, 0xBF, 2⟩
  else if b = 0xF0 then some ⟨b - 0xF0, 0x90, 0xBF, 3⟩
  else if b = 0xF4 then some ⟨b - 0xF0, 0x80, 0x8F, 3⟩
  else if 0xF1 ≤ b ∧ b ≤ 0xF3 then some ⟨b - 0xF0, 0x80, 0xBF, 3⟩
  else none

def replacement : Char := '\uFFFD'

/-- Where a reader stands inside a sequence: the bits so far, the range of the next byte, and how
many bytes are missing. -/
structure Utf8State where
  bits : Nat
  low : Nat
  high : Nat
  missing : Nat

/-- Reads a byte at the start of a sequence. -/
def utf8Start (b : Nat) : List Char × Option Utf8State :=
  match leadByte? b with
  | none => ([replacement], none)
  | some lead =>
    if lead.count = 0 then ([Char.ofNat lead.bits], none)
    else ([], some ⟨lead.bits, lead.low, lead.high, lead.count⟩)

/-- Reads a byte inside a sequence.  A byte that cannot continue it ends the ill-formed part and
starts a new sequence. -/
def utf8Continue (s : Utf8State) (b : Nat) : List Char × Option Utf8State :=
  if s.low ≤ b ∧ b ≤ s.high then
    let bits := s.bits * 64 + (b - 0x80)
    if s.missing = 1 then ([Char.ofNat bits], none)
    else ([], some ⟨bits, 0x80, 0xBF, s.missing - 1⟩)
  else
    let (out, next) := utf8Start b
    (replacement :: out, next)

/-- Reads the remaining bytes from the given state. -/
def utf8Chars : Option Utf8State → List UInt8 → List Char
  | none, [] => []
  | some _, [] => [replacement]
  | none, b :: rest =>
    let (out, next) := utf8Start b.toNat
    out ++ utf8Chars next rest
  | some s, b :: rest =>
    let (out, next) := utf8Continue s b.toNat
    out ++ utf8Chars next rest

/-- The text of some bytes, with U+FFFD for every maximal ill-formed part. -/
def ofUtf8Lossy (bytes : List UInt8) : String :=
  String.ofList (utf8Chars none bytes)

def utf8Bytes (s : String) : List UInt8 :=
  s.toUTF8.toList

end Text
end RouteDispatch
