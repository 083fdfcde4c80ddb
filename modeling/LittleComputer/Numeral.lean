import LittleComputer.Text

/-! # Numerals

Writing and reading whole numbers.

* `Numeral.digits`: the digits of a natural number in a base, most significant first.
* `Numeral.signed`: the digits of an integer behind an optional minus.
* `Numeral.address`: the four-place hexadecimal form of an address.
* `Numeral.read`: the value of a numeral, which may stand between blanks, carry a sign, group its
  digits with single underscores and use the decimal digits of any script.
* `Word.bits`: a machine word as binary digits; `Word.lines` writes one word a line.

Decimal numerals of more than `Numeral.limit` digits are neither read nor written. -/

namespace LittleComputer
set_option autoImplicit false

namespace Text

/-- The zeros of all runs of decimal digits. Unicode's decimal digits come in runs of ten, from zero
to nine in the order of the code points. -/
def digitZeros : List Nat :=
  [0x30, 0x660, 0x6F0, 0x7C0, 0x966, 0x9E6, 0xA66, 0xAE6, 0xB66, 0xBE6, 0xC66, 0xCE6, 0xD66,
    0xDE6, 0xE50, 0xED0, 0xF20, 0x1040, 0x1090, 0x17E0, 0x1810, 0x1946, 0x19D0, 0x1A80, 0x1A90,
    0x1B50, 0x1BB0, 0x1C40, 0x1C50, 0xA620, 0xA8D0, 0xA900, 0xA9D0, 0xA9F0, 0xAA50, 0xABF0, 0xFF10,
    0x104A0, 0x10D30, 0x11066, 0x110F0, 0x11136, 0x111D0, 0x112F0, 0x11450, 0x114D0, 0x11650,
    0x116C0, 0x11730, 0x118E0, 0x11950, 0x11C50, 0x11D50, 0x11DA0, 0x16A60, 0x16AC0, 0x16B50,
    0x1D7CE, 0x1D7D8, 0x1D7E2, 0x1D7EC, 0x1D7F6, 0x1E140, 0x1E2F0, 0x1E950, 0x1FBF0]

/-- The value of a decimal digit, in any script. -/
def decimalDigit? (c : Char) : Option Nat :=
  (digitZeros.find? fun start => start ≤ c.toNat && c.toNat ≤ start + 9).map (c.toNat - ·)

end Text

namespace Numeral

/-- The most digits a decimal numeral may have. -/
def limit : Nat := 4300

/-! ## Writing -/

/-- The digit of a value below sixteen; those above nine are capital letters. -/
def digitChar (value : Nat) : Char :=
  if value < 10 then Char.ofNat (0x30 + value) else Char.ofNat (0x37 + value)

/-- The digits of a number, most significant first. A base below two has a single digit. -/
def digits (base n : Nat) : Text :=
  if n < base ∨ base < 2 then [digitChar n]
  else digits base (n / base) ++ [digitChar (n % base)]
termination_by n
decreasing_by exact Nat.div_lt_self (by omega) (by omega)

def decimal (n : Nat) : Text :=
  digits 10 n

/-- An integer in a base, with a minus when it is negative. -/
def signed (base : Nat) (n : Int) : Text :=
  if n < 0 then '-' :: digits base n.natAbs else digits base n.natAbs

def integer (n : Int) : Text :=
  signed 10 n

/-- The digits of a number with zeros in front up to a width. -/
def padded (base width n : Nat) : Text :=
  List.leftpad width '0' (digits base n)

/-- An address in hexadecimal: at least four places, of which a minus takes one. -/
def address (n : Int) : Text :=
  if n < 0 then '-' :: padded 16 3 n.natAbs else padded 16 4 n.natAbs

/-- True when the decimal form of an integer has more digits than allowed. -/
def exceedsLimit (n : Int) : Bool :=
  Nat.pow 10 limit ≤ n.natAbs

/-! ## Reading -/

/-- Why a text has no value as a numeral. -/
inductive Defect where
  | malformed
  | tooLong (digits : Nat)
  deriving DecidableEq, Repr

/-- The value of an ASCII digit or letter, where letters count from ten. -/
def asciiDigit? (c : Char) : Option Nat :=
  if '0' ≤ c ∧ c ≤ '9' then some (c.toNat - 0x30)
  else if 'A' ≤ c ∧ c ≤ 'Z' then some (c.toNat - 0x37)
  else if 'a' ≤ c ∧ c ≤ 'z' then some (c.toNat - 0x57)
  else none

def digitValue? (base : Nat) (c : Char) : Option Nat :=
  (if c.toNat < 128 then asciiDigit? c else Text.decimalDigit? c).filter (· < base)

/-- The values of the digits of a numeral without sign. There is at least one digit, and between
two of them may stand one underscore. -/
def digitValues? (base : Nat) : Text → Option (List Nat)
  | [] => none
  | c :: rest =>
    match digitValue? base c with
    | none => none
    | some value =>
      match rest with
      | [] => some [value]
      | '_' :: more => (digitValues? base more).map (value :: ·)
      | more => (digitValues? base more).map (value :: ·)

/-- The number written by digits of the given values, most significant first. -/
def value (base : Nat) (values : List Nat) : Nat :=
  values.foldl (fun total digit => total * base + digit) 0

/-- The blanks that may stand around a numeral: within ASCII only tab to carriage return and the
space, otherwise all white space. -/
def isPadding (c : Char) : Bool :=
  if c.toNat < 128 then (9 ≤ c.toNat && c.toNat ≤ 13) || c == ' ' else Text.isBlank c

/-- The text without padding on either side. -/
def trim (text : Text) : Text :=
  ((text.dropWhile isPadding).reverse.dropWhile isPadding).reverse

/-- The sign of a numeral, true for a minus, and what follows it. -/
def takeSign : Text → Bool × Text
  | '-' :: rest => (true, rest)
  | '+' :: rest => (false, rest)
  | rest => (false, rest)

/-- A hexadecimal numeral without the mark `0x` and one underscore behind that. The zero of the mark
may be of any script, like the digits. -/
def dropMark : Text → Text
  | zero :: x :: rest =>
    if Text.decimalDigit? zero = some 0 ∧ (x = 'x' ∨ x = 'X') then
      match rest with
      | '_' :: more => more
      | more => more
    else zero :: x :: rest
  | text => text

/-- The value of a numeral in base ten or sixteen. -/
def read (base : Nat) (text : Text) : Except Defect Int :=
  let (negative, unsigned) := takeSign (trim text)
  match digitValues? base (if base = 16 then dropMark unsigned else unsigned) with
  | none => .error .malformed
  | some values =>
    if base = 10 ∧ limit < values.length then .error (.tooLong values.length)
    else .ok (if negative then -(value base values : Int) else value base values)

end Numeral

/-! ## Words -/

/-- A machine word. -/
abbrev Word := BitVec 16

/-- The bits of a vector as binary digits, most significant first. -/
def binaryDigits {width : Nat} (bits : BitVec width) : Text :=
  (List.range width).map fun place => if bits.getMsbD place then '1' else '0'

namespace Word

/-- A word as sixteen binary digits. -/
def bits (word : Word) : Text :=
  binaryDigits word

/-- The low sixteen bits of an integer in two's complement. -/
def ofInteger (n : Int) : Word :=
  BitVec.ofInt 16 n

def lines (words : List Word) : Text :=
  Text.unlines (words.map Word.bits)

end Word

end LittleComputer
