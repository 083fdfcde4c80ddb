import LittleComputer.Mnemonic

/-! # Classes of words

The kind of a word, tried in the order register, immediate, number, operator. All else is a label,
so a label may hold characters such as `/` and `-`. -/

namespace LittleComputer
set_option autoImplicit false

namespace Lexeme

/-- A decimal digit of ASCII. -/
def isDecimal (c : Char) : Bool :=
  '0' ≤ c && c ≤ '9'

/-- A hexadecimal digit of ASCII, in either case. -/
def isHexadecimal (c : Char) : Bool :=
  isDecimal c || ('A' ≤ c && c ≤ 'F') || ('a' ≤ c && c ≤ 'f')

/-- One or more digits behind an optional sign. -/
def isNumeral (isDigit : Char → Bool) (word : Text) : Bool :=
  let digits :=
    match word with
    | '+' :: rest => rest
    | '-' :: rest => rest
    | rest => rest
  !digits.isEmpty && digits.all isDigit

/-- The letter R and a digit from zero to seven. -/
def isRegister : Text → Bool
  | [letter, digit] => (letter == 'R' || letter == 'r') && '0' ≤ digit && digit ≤ '7'
  | _ => false

/-- A hexadecimal numeral behind `x`, or a decimal numeral behind `#`. -/
def isImmediate : Text → Bool
  | 'x' :: numeral => isNumeral isHexadecimal numeral
  | 'X' :: numeral => isNumeral isHexadecimal numeral
  | '#' :: numeral => isNumeral isDecimal numeral
  | _ => false

def isNumber (word : Text) : Bool :=
  isNumeral isDecimal word

end Lexeme

def TokenKind.ofWord (word : Text) : TokenKind :=
  if Lexeme.isRegister word then .register
  else if Lexeme.isImmediate word then .immediate
  else if Lexeme.isNumber word then .number
  else if (Mnemonic.ofSpelling? word).isSome then .operator
  else .label

end LittleComputer
