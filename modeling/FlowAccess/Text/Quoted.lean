import FlowAccess.Text.Glyph
import FlowAccess.Text.Hex

/-!
# Quoted text

How a message quotes a string: between double quotes, with a backslash before a quote and a
backslash, letters for the common controls, and a code point in braces for a character that has no
glyph of its own. A single quote stands for itself.
-/

namespace FlowAccess.Text.Quoted

def escape (c : Char) : List Char :=
  if c = '"' then ['\\', '"']
  else if c = '\\' then ['\\', '\\']
  else if c = '\n' then ['\\', 'n']
  else if c = '\r' then ['\\', 'r']
  else if c = '\t' then ['\\', 't']
  else if c = '\x00' then ['\\', '0']
  else if isGlyphless c then ['\\', 'u', '\x7b'] ++ Hex.ofNat c.toNat ++ ['\x7d']
  else [c]

/-- A string as a message quotes it. -/
def quote (s : String) : String :=
  String.ofList ('"' :: s.toList.flatMap escape ++ ['"'])

end FlowAccess.Text.Quoted
