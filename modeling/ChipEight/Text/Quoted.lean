import ChipEight.Text.Graphic

/-!
# Quoted text

A quoted text stands between double quotes and holds no character that a terminal would not show:
quotes and backslashes follow a backslash, and a character without a glyph of its own is named by
its short escape or by its code point.
-/

namespace ChipEight.Text

def codePointEscape (c : Char) : List Char :=
  ['\\', 'u', '\x7b'] ++ Nat.toDigits 16 c.toNat ++ ['\x7d']

def escape (c : Char) : List Char :=
  if c = '"' ∨ c = '\\' then ['\\', c]
  else if c = '\x00' then ['\\', '0']
  else if c = '\t' then ['\\', 't']
  else if c = '\n' then ['\\', 'n']
  else if c = '\r' then ['\\', 'r']
  else if isGraphic c then [c]
  else codePointEscape c

def quoted (text : List Char) : String :=
  String.ofList ('"' :: (text.flatMap escape ++ ['"']))

end ChipEight.Text
