import ShaderLift.Text.Character

/-!
# Quoted text

Messages show names and paths between quotes.  The quote is the apostrophe,
unless the text holds an apostrophe and no double quote.  The quote in use, the
backslash and every unprintable character are escaped.
-/

namespace ShaderLift
namespace Text

/-- The lower-case digits of a number in base sixteen, at least `width` of
them. -/
def hexDigits (width code : Nat) : List Char :=
  let digits := Nat.toDigits 16 code
  List.replicate (width - digits.length) '0' ++ digits

/-- The escape of an unprintable character: two, four or eight digits. -/
def escapeCode (c : Char) : List Char :=
  let n := c.toNat
  if n < 0x100 then '\\' :: 'x' :: hexDigits 2 n
  else if n < 0x10000 then '\\' :: 'u' :: hexDigits 4 n
  else '\\' :: 'U' :: hexDigits 8 n

/-- How a character is written between the given quotes. -/
def quoteChar (quote c : Char) : List Char :=
  if c = quote || c = '\\' then ['\\', c]
  else if c = '\n' then ['\\', 'n']
  else if c = '\r' then ['\\', 'r']
  else if c = '\t' then ['\\', 't']
  else if isPrintable c then [c]
  else escapeCode c

/-- How a byte is written between the given quotes. -/
def quoteByte (quote : Char) (byte : UInt8) : List Char :=
  if byte.toNat < 0x80 then quoteChar quote (Char.ofNat byte.toNat)
  else '\\' :: 'x' :: hexDigits 2 byte.toNat

/-- The quote that a text is written with. -/
def quoteFor (text : List Char) : Char :=
  if text.contains '\'' && !text.contains '"' then '"' else '\''

/-- A text between quotes. -/
def quoted (text : String) : String :=
  let chars := text.toList
  let quote := quoteFor chars
  String.ofList (quote :: chars.flatMap (quoteChar quote) ++ [quote])

/-- Bytes between quotes. -/
def quotedBytes (bytes : List UInt8) : String :=
  let quote := quoteFor (bytes.map fun byte => Char.ofNat byte.toNat)
  String.ofList (quote :: bytes.flatMap (quoteByte quote) ++ [quote])

end Text
end ShaderLift
