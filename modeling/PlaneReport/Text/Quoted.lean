import PlaneReport.Text.Hidden

/-!
# Quoted texts

`quoted` shows a text between double quotes so that it can be read on a terminal: quotes,
backslashes and line ends are escaped, and characters without a visible form are named by their
code point.
-/

namespace PlaneReport
namespace Text

/-- Lower-case hexadecimal digits without leading zeros. -/
def hexadecimal (n : Nat) : List Char :=
  Nat.toDigits 16 n

/-- How one character stands inside a quoted text; `quote` is the quote that needs an escape. -/
def escapeChar (quote : Char) (c : Char) : List Char :=
  if c.toNat = 0 then ['\\', '0']
  else if c = '\t' then ['\\', 't']
  else if c = '\r' then ['\\', 'r']
  else if c = '\n' then ['\\', 'n']
  else if c = '\\' then ['\\', '\\']
  else if c = quote then ['\\', c]
  else if isHidden c then ['\\', 'u', '\x7b'] ++ hexadecimal c.toNat ++ ['\x7d']
  else [c]

def quotedChars (text : List Char) : List Char :=
  '"' :: (text.flatMap (escapeChar '"') ++ ['"'])

/-- A text between double quotes, with escapes. -/
def quoted (text : String) : String :=
  String.ofList (quotedChars text.toList)

end Text
end PlaneReport
