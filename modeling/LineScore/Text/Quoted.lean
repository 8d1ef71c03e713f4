import LineScore.Text.Loose
import LineScore.Text.Printable

/-! Quoted text for messages. The quote is a single one unless the text holds single quotes and no
double ones; the quote itself, the backslash and every character without a glyph are escaped. -/

namespace LineScore.Text

/-- One character as it stands between `quote`s. -/
def quotedChar (quote c : Char) : List Char :=
  if c = quote || c = '\x5c' then ['\x5c', c]
  else if c = '\n' then ['\x5c', 'n']
  else if c = '\r' then ['\x5c', 'r']
  else if c = '\t' then ['\x5c', 't']
  else if isPrintable c then [c]
  else escapeCode c.toNat

/-- The quote that needs the fewest escapes, a single one when in doubt. -/
def quoteFor (text : List Char) : Char :=
  if text.contains '\x27' && !text.contains '\x22' then '\x22' else '\x27'

/-- A code point as it stands between `quote`s. -/
def quotedPoint (quote : Char) : CodePoint → List Char
  | .char c => quotedChar quote c
  | half => half.shown

def quoted (text : LooseText) : String :=
  let quote := quoteFor text.chars
  String.ofList (quote :: text.points.flatMap (quotedPoint quote) ++ [quote])

end LineScore.Text
