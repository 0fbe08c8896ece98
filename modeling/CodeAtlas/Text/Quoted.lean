import CodeAtlas.Text.CharClass

/-!
Quoted texts: a text between single quotes, or between double quotes when it holds a single quote
and no double one. Backslashes, the chosen quote and what does not print are escaped.
-/

namespace CodeAtlas.Text

/-- A number in hexadecimal with `width` digits at least. -/
def hexDigits (width n : Nat) : List Char :=
  let digits := Nat.toDigits 16 n
  List.replicate (width - digits.length) '0' ++ digits

/-- One character inside the given quotes. -/
def quotedChar (quote c : Char) : List Char :=
  if c == quote || c == '\\' then ['\\', c]
  else if c == '\t' then ['\\', 't']
  else if c == '\n' then ['\\', 'n']
  else if c == '\r' then ['\\', 'r']
  else if isPrintable c then [c]
  else if c.val < 0x100 then '\\' :: 'x' :: hexDigits 2 c.toNat
  else if c.val < 0x10000 then '\\' :: 'u' :: hexDigits 4 c.toNat
  else '\\' :: 'U' :: hexDigits 8 c.toNat

/-- The quote a text is put in. -/
def quoteFor (text : List Char) : Char :=
  if text.contains '\x27' && !text.contains '\x22' then '\x22' else '\x27'

/-- A text in quotes. -/
def quoted (s : String) : String :=
  let text := s.toList
  let quote := quoteFor text
  String.ofList (quote :: text.flatMap (quotedChar quote) ++ [quote])

end CodeAtlas.Text
