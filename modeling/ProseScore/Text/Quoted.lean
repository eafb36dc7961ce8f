import ProseScore.Text.Unprintable

/-!
# Quoted text

A text between quotation marks, with escapes for the mark itself, the backslash
and every character that is not shown as it is.
-/

namespace ProseScore.Quoted

/-- A code point as an escape with lower-case hexadecimal digits. -/
def codePoint (n : Nat) : Text :=
  ['\\', 'u', '\x7b'] ++ Nat.toDigits 16 n ++ ['\x7d']

def escape (mark c : Char) : Text :=
  if c = '\x00' then ['\\', '0']
  else if c = '\t' then ['\\', 't']
  else if c = '\n' then ['\\', 'n']
  else if c = '\r' then ['\\', 'r']
  else if c = '\\' ∨ c = mark then ['\\', c]
  else if isPrintable c then [c]
  else codePoint c.toNat

def encode (mark : Char) (s : Text) : Text :=
  mark :: s.flatMap (escape mark) ++ [mark]

def text (s : Text) : Text :=
  encode '"' s

def char (c : Char) : Text :=
  encode '\'' [c]

end ProseScore.Quoted
