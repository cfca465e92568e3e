import RouteDispatch.Text.Hexadecimal
import RouteDispatch.Text.Printable

/-!
# Quoted text

The diagnostic form of a text: it stands between double quotes, a quote and a backslash get a
backslash, the commonest control characters have letters, and every other character that cannot be
shown is written by its number.
-/

namespace RouteDispatch
namespace Text

/-- A character as it stands inside quotes. -/
def quotedChar (c : Char) : List Char :=
  if c = '"' then ['\\', '"']
  else if c = '\\' then ['\\', '\\']
  else if c = '\n' then ['\\', 'n']
  else if c = '\r' then ['\\', 'r']
  else if c = '\t' then ['\\', 't']
  else if c.toNat = 0 then ['\\', '0']
  else if isPrintable c then [c]
  else ['\\', 'u', '\x7b'] ++ hexShort c.toNat ++ ['\x7d']

/-- A text between double quotes, with what cannot be shown escaped. -/
def quoted (s : String) : String :=
  String.ofList ('"' :: s.toList.flatMap quotedChar ++ ['"'])

end Text
end RouteDispatch
