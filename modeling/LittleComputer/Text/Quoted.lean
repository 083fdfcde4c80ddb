import LittleComputer.Numeral
import LittleComputer.Text.Printable

/-! # Quoted text

A text between quotes in which every character shows: the quote, the backslash and characters that
are not printable are escaped. Apostrophes serve as quotes unless the text has one and no double
quote. -/

namespace LittleComputer.Text
set_option autoImplicit false

def apostrophe : Char := Char.ofNat 0x27

def quoteMark (text : Text) : Char :=
  if text.contains apostrophe && !text.contains '"' then '"' else apostrophe

/-- A code point in lower-case hexadecimal with zeros in front up to a width. -/
def escapeCode (width : Nat) (c : Char) : Text :=
  (Numeral.padded 16 width c.toNat).map Char.toLower

/-- A character as it stands between the given quotes. -/
def quotedChar (mark c : Char) : Text :=
  if c = mark ∨ c = '\\' then ['\\', c]
  else if c = '\n' then ['\\', 'n']
  else if c = '\r' then ['\\', 'r']
  else if c = '\t' then ['\\', 't']
  else if isPrintable c then [c]
  else if c.toNat < 0x100 then '\\' :: 'x' :: escapeCode 2 c
  else if c.toNat < 0x10000 then '\\' :: 'u' :: escapeCode 4 c
  else '\\' :: 'U' :: escapeCode 8 c

/-- The text between quotes. -/
def quoted (text : Text) : Text :=
  let mark := quoteMark text
  mark :: (text.flatMap (quotedChar mark) ++ [mark])

end LittleComputer.Text
