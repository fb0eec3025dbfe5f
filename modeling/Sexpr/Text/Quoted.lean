import Sexpr.Text.Printable

/-! Quoted text: quotes around a text, and escapes for what could be misread. -/

namespace Sexpr

/-- A lower-case hexadecimal numeral, padded with zeros to a width. -/
def hexadecimal (width value : Nat) : List Char :=
  let digits := Nat.toDigits 16 value
  List.replicate (width - digits.length) '0' ++ digits

/-- The escape that names a character by its code point. -/
def codePointEscape (char : Char) : List Char :=
  let code := char.toNat
  if code < 0x100 then '\\' :: 'x' :: hexadecimal 2 code
  else if code < 0x10000 then '\\' :: 'u' :: hexadecimal 4 code
  else '\\' :: 'U' :: hexadecimal 8 code

/-- A character as it is written between the given quotes. -/
def quotedChar (quote char : Char) : List Char :=
  -- Only the quotes in use need an escape, and the other ones do not.
  if char = quote || char = '\\' then ['\\', char]
  else if char = '\n' then ['\\', 'n']
  else if char = '\r' then ['\\', 'r']
  else if char = '\t' then ['\\', 't']
  else if isPrintable char then [char]
  else codePointEscape char

/-- The quotes for a text: double ones where that saves escaping a single one. -/
def quoteFor (chars : List Char) : Char :=
  if chars.contains '\'' && !chars.contains '"' then '"' else '\''

/-- A text in quotes. -/
def quoted (text : String) : String :=
  let chars := text.toList
  let quote := quoteFor chars
  String.ofList (quote :: chars.flatMap (quotedChar quote) ++ [quote])

end Sexpr
