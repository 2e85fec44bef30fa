import NativeBindings.Text.Hex
import NativeBindings.Text.Printable

/-!
Quoted texts, as messages show them. Single quotes, unless the text holds a single quote and no
double one; the backslash, the quote and whatever is not printable are escaped.
-/
namespace NativeBindings.Text

def singleQuote : Char := '\x27'

def doubleQuote : Char := '\x22'

/-- The quote that a text is put in. -/
def quoteOf (s : List Char) : Char :=
  if s.contains singleQuote && !s.contains doubleQuote then doubleQuote else singleQuote

def quotedChar (quote c : Char) : List Char :=
  if c = quote || c = '\\' then ['\\', c]
  else if c = '\t' then ['\\', 't']
  else if c = '\n' then ['\\', 'n']
  else if c = '\r' then ['\\', 'r']
  else if c.toNat < 0x20 || c.toNat = 0x7F then '\\' :: 'x' :: hex 2 c.toNat
  else if c.toNat < 0x7F || isPrintable c then [c]
  else if c.toNat ≤ 0xFF then '\\' :: 'x' :: hex 2 c.toNat
  else if c.toNat ≤ 0xFFFF then '\\' :: 'u' :: hex 4 c.toNat
  else '\\' :: 'U' :: hex 8 c.toNat

def quotedChars (s : List Char) : List Char :=
  let quote := quoteOf s
  quote :: s.flatMap (quotedChar quote) ++ [quote]

def quoted (s : String) : String := String.ofList (quotedChars s.toList)

end NativeBindings.Text
