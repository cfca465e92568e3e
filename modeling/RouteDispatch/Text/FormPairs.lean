import RouteDispatch.Text.Hexadecimal
import RouteDispatch.Text.Utf8

/-!
# Form-encoded pairs

The format `application/x-www-form-urlencoded`: pieces are separated by `&`, a piece is cut at its
first `=`, a plus sign stands for a space, and a percent sign with two hexadecimal digits stands for
a byte.  A percent sign with anything else after it stands for itself, so every input is read.
-/

namespace RouteDispatch
namespace Text

/-- The fields of a byte sequence between the bytes equal to `sep`. -/
def splitBytes (sep : UInt8) : List UInt8 → List (List UInt8)
  | [] => [[]]
  | b :: rest =>
    if b = sep then [] :: splitBytes sep rest
    else
      match splitBytes sep rest with
      | [] => [[b]]
      | field :: fields => (b :: field) :: fields

/-- The bytes before the first `sep` and the bytes after it; nothing follows when there is none. -/
def cutBytes (sep : UInt8) : List UInt8 → List UInt8 × List UInt8
  | [] => ([], [])
  | b :: rest =>
    if b = sep then ([], rest)
    else
      let (before, after) := cutBytes sep rest
      (b :: before, after)

/-- The byte that three bytes stand for when they are a percent sign and two hexadecimal digits. -/
def percentByte? (b x y : UInt8) : Option UInt8 :=
  match hexValue? (Char.ofNat x.toNat), hexValue? (Char.ofNat y.toNat) with
  | some hi, some lo => if b = 0x25 then some (UInt8.ofNat (16 * hi + lo)) else none
  | _, _ => none

/-- The byte that a single byte stands for: a plus sign is a space. -/
def plainByte (b : UInt8) : UInt8 :=
  if b = 0x2B then 0x20 else b

/-- Undoes the encoding of one name or value. -/
def decodePercent : List UInt8 → List UInt8
  | [] => []
  | [b] => [plainByte b]
  | [b, x] => [plainByte b, plainByte x]
  | b :: x :: y :: rest =>
    match percentByte? b x y with
    | some byte => byte :: decodePercent rest
    | none => plainByte b :: decodePercent (x :: y :: rest)

def formPair (piece : List UInt8) : String × String :=
  let (name, value) := cutBytes 0x3D piece
  (ofUtf8Lossy (decodePercent name), ofUtf8Lossy (decodePercent value))

/-- The pairs of a query string or form body, in the order they are written. -/
def formPairs (input : List UInt8) : List (String × String) :=
  ((splitBytes 0x26 input).filter fun piece => !piece.isEmpty).map formPair

end Text
end RouteDispatch
