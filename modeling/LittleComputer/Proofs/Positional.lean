import LittleComputer.Proofs.LetterCase
import LittleComputer.Proofs.Numerals
import Mathlib.Tactic

/-! # Literals as positional numerals

What a numeral denotes is said here without the reader: a sign, digits of a base, and the sum of the
digits by powers of the base. Words of this form are exactly those that the lexer takes for numbers,
and their value is the integer that they denote.

* `Numeral.IsDigitFor`: the characters of a digit.
* `Numeral.Denotes`: a text with a count of digits that denotes an integer.
* `Numeral.denotes_iff`: the literals are the texts that denote.
* `Numeral.denotes_spelled`: the ways of writing an integer, with signs, zeros and small letters.
* `literals_exact`: the values of literal words, and the literal words of all values.
-/

namespace LittleComputer
set_option autoImplicit false

namespace Numeral
open Lexeme

/-! ## Signs and digits -/

/-- What stands in front of the digits. -/
inductive Sign where
  | none
  | plus
  | minus
  deriving DecidableEq

def Sign.text : Sign → Text
  | none => []
  | plus => ['+']
  | minus => ['-']

def Sign.apply : Sign → Nat → Int
  | minus, n => -n
  | _, n => n

/-- The character stands for a digit of the base; a letter may be capital or small. -/
def IsDigitFor (base v : Nat) (c : Char) : Prop :=
  v < base ∧ ("0123456789ABCDEF".toList[v]? = some c ∨ "0123456789abcdef".toList[v]? = some c)

/-- The text is a sign and at least one digit, `places` digits in all, and denotes `n`: the digits
are counted by the powers of the base, and the sum gets the sign. -/
def Denotes (base places : Nat) (n : Int) (text : Text) : Prop :=
  ∃ (sign : Sign) (values : List Nat) (digits : Text), text = sign.text ++ digits ∧
    List.Forall₂ (IsDigitFor base) values digits ∧ digits.length = places ∧ 0 < places ∧
    n = sign.apply (Nat.ofDigits base values.reverse)

section Digits
variable {base v : Nat} {c d : Char}

theorem isDigit_of_isDigitFor (hbase : IsBase base) (h : IsDigitFor base v c) :
    IsDigit base c ∧ digit c = v := by
  have hcapital : ∀ v < 16, "0123456789ABCDEF".toList[v]?.all fun c =>
      isHexadecimal c ∧ (v < 10 → isDecimal c) ∧ digit c = v := by
    decide
  have hsmall : ∀ v < 16, "0123456789abcdef".toList[v]?.all fun c =>
      isHexadecimal c ∧ (v < 10 → isDecimal c) ∧ digit c = v := by
    decide
  obtain ⟨hv, hc⟩ := h
  have hvalue : v < 16 := by rcases hbase with rfl | rfl <;> omega
  have hfacts : isHexadecimal c ∧ (v < 10 → isDecimal c) ∧ digit c = v := by
    rcases hc with hc | hc
    · simpa only [hc, Option.all_some, decide_eq_true_eq] using hcapital v hvalue
    · simpa only [hc, Option.all_some, decide_eq_true_eq] using hsmall v hvalue
  obtain ⟨hhexadecimal, hdecimal, hdigit⟩ := hfacts
  rcases hbase with rfl | rfl
  · exact ⟨.decimal (hdecimal hv), hdigit⟩
  · exact ⟨.hexadecimal hhexadecimal, hdigit⟩

theorem isDigitFor_digit (h : IsDigit base c) : IsDigitFor base (digit c) c := by
  have hall : ∀ k < 128, isHexadecimal (Char.ofNat k) = true →
      "0123456789ABCDEF".toList[digit (Char.ofNat k)]? = some (Char.ofNat k) ∨
        "0123456789abcdef".toList[digit (Char.ofNat k)]? = some (Char.ofNat k) := by
    decide
  have hascii : c.toNat < 128 := by
    have := isHexadecimal_iff.1 h.isHexadecimal
    omega
  have hc := hall c.toNat hascii
  rw [Char.ofNat_toNat] at hc
  exact ⟨h.asciiDigit?.2, hc h.isHexadecimal⟩

theorem isDigit_of_sameLetter (h : SameLetter c d) (hc : IsDigit base c) : IsDigit base d := by
  cases hc with
  | decimal hc => exact .decimal (h.isDecimal_eq.trans hc)
  | hexadecimal hc => exact .hexadecimal (h.isHexadecimal_eq.trans hc)

theorem forall₂_isDigitFor {text letters : Text} (h : SameLetters text letters)
    (hdigits : ∀ c ∈ text, IsDigit base c) :
    List.Forall₂ (IsDigitFor base) (text.map digit) letters := by
  induction h with
  | nil => exact .nil
  | @cons c d text letters hletter _ ih =>
    have hd := isDigitFor_digit (isDigit_of_sameLetter hletter (hdigits c List.mem_cons_self))
    rw [hletter.digit_eq] at hd
    exact .cons hd (ih fun e he => hdigits e (List.mem_cons_of_mem c he))

theorem map_digit_of_forall₂ (hbase : IsBase base) {values : List Nat} {digits : Text}
    (h : List.Forall₂ (IsDigitFor base) values digits) :
    (∀ c ∈ digits, IsDigit base c) ∧ digits.map digit = values := by
  induction h with
  | nil => simp
  | @cons v c values digits hc _ ih =>
    obtain ⟨hdigit, hvalue⟩ := isDigit_of_isDigitFor hbase hc
    exact ⟨List.forall_mem_cons.2 ⟨hdigit, ih.1⟩, by rw [List.map_cons, hvalue, ih.2]⟩

end Digits

/-! ## Literals -/

section Literals
variable {base places : Nat} {n : Int} {text : Text}

theorem takeSign_append {digits : Text} (h : ∀ c ∈ digits, IsDigit base c) (sign : Sign) :
    takeSign (sign.text ++ digits) = (decide (sign = .minus), digits) := by
  cases sign with
  | none => exact takeSign_of_isDigit h
  | plus => rfl
  | minus => rfl

theorem exists_sign (text : Text) :
    ∃ sign : Sign, text = sign.text ++ (takeSign text).2 ∧
      ∀ m : Nat, sign.apply m = if (takeSign text).1 then -(m : Int) else m := by
  unfold takeSign
  split
  · exact ⟨.minus, rfl, fun _ => rfl⟩
  · exact ⟨.plus, rfl, fun _ => rfl⟩
  · exact ⟨.none, rfl, fun _ => rfl⟩

theorem denotes_iff (hbase : IsBase base) :
    Denotes base places n text ↔
      IsLiteral base text ∧ (takeSign text).2.length = places ∧ denoted base text = n := by
  constructor
  · rintro ⟨sign, values, digits, rfl, hdigits, hlength, hpos, rfl⟩
    obtain ⟨hall, rfl⟩ := map_digit_of_forall₂ hbase hdigits
    rw [IsLiteral, denoted, takeSign_append hall, ← value_eq_ofDigits]
    refine ⟨⟨List.ne_nil_of_length_pos (hlength ▸ hpos), hall⟩, hlength, ?_⟩
    cases sign <;> rfl
  · rintro ⟨hliteral, rfl, rfl⟩
    obtain ⟨sign, htext, hsign⟩ := exists_sign text
    refine ⟨sign, _, _, htext, forall₂_isDigitFor (.refl _) hliteral.2, rfl,
      List.length_pos_of_ne_nil hliteral.1, ?_⟩
    rw [hsign, ← value_eq_ofDigits]
    rfl

theorem Denotes.readNumeral (h : Denotes base places n text) (hbase : IsBase base)
    (hlimit : base = 10 → places ≤ limit) : Token.readNumeral base text = .ok n := by
  obtain ⟨hliteral, rfl, rfl⟩ := (denotes_iff hbase).1 h
  have hshort : ¬ (base = 10 ∧ limit < (takeSign text).2.length) := by
    rintro ⟨hten, hlong⟩
    exact absurd (hlimit hten) (by omega)
  rw [Token.readNumeral, read_isLiteral hliteral, if_neg hshort]
  rfl

/-- **The ways to write an integer.** The sign is one that the integer can have, any number of
zeros may follow it, and the letters may be small. -/
theorem denotes_spelled (hbase : IsBase base) {sign : Sign} (hsign : sign.apply n.natAbs = n)
    (zeros : Nat) {letters : Text} (hletters : SameLetters (digits base n.natAbs) letters) :
    Denotes base (zeros + (digits base n.natAbs).length) n
      (sign.text ++ (List.replicate zeros '0' ++ letters)) := by
  have hdigits := isDigit_of_mem_digits hbase n.natAbs
  have hzero : IsDigitFor base 0 '0' := ⟨hbase.pos, .inl rfl⟩
  refine ⟨sign, List.replicate zeros 0 ++ (digits base n.natAbs).map digit, _, rfl, ?_, ?_, ?_, ?_⟩
  · refine List.rel_append ?_ (forall₂_isDigitFor hletters hdigits)
    rw [List.forall₂_iff_get]
    simp [hzero]
  · rw [List.length_append, List.length_replicate, hletters.length_eq]
  · have hpos := List.length_pos_of_ne_nil (digits_ne_nil hbase n.natAbs)
    omega
  · rw [List.reverse_append, List.reverse_replicate, Nat.ofDigits_append_replicate_zero,
      ← value_eq_ofDigits, value_digits hbase, hsign]

end Literals

end Numeral

/-! ## Words -/

namespace Lexeme
open Numeral

/-- The characters in front of immediates, each with the base of what follows. -/
inductive IsMark : Nat → Char → Prop
  | small : IsMark 16 'x'
  | capital : IsMark 16 'X'
  | hash : IsMark 10 '#'

variable {base : Nat} {mark : Char} {word text : Text}

theorem IsMark.isBase (h : IsMark base mark) : IsBase base := by
  cases h with
  | small => exact .inr rfl
  | capital => exact .inr rfl
  | hash => exact .inl rfl

theorem isImmediate_of_isMark (h : IsMark base mark) (hliteral : IsLiteral base text) :
    isImmediate (mark :: text) = true := by
  cases h with
  | small => exact isNumeral_of_isLiteral (fun _ => IsDigit.isHexadecimal) hliteral
  | capital => exact isNumeral_of_isLiteral (fun _ => IsDigit.isHexadecimal) hliteral
  | hash => exact isNumeral_of_isLiteral (fun _ => IsDigit.isDecimal) hliteral

theorem exists_isMark (h : isImmediate word = true) :
    ∃ base mark text, word = mark :: text ∧ IsMark base mark ∧ IsLiteral base text := by
  unfold isImmediate at h
  split at h
  · exact ⟨_, _, _, rfl, .small, isLiteral_of_isNumeral (fun _ => .hexadecimal) h⟩
  · exact ⟨_, _, _, rfl, .capital, isLiteral_of_isNumeral (fun _ => .hexadecimal) h⟩
  · exact ⟨_, _, _, rfl, .hash, isLiteral_of_isNumeral (fun _ => .decimal) h⟩
  · cases h

theorem isNumber_iff : isNumber text = true ↔ IsLiteral 10 text :=
  ⟨isLiteral_of_isNumeral fun _ => .decimal, isNumeral_of_isLiteral fun _ => IsDigit.isDecimal⟩

end Lexeme

namespace Numeral.Denotes
open Lexeme

variable {base places : Nat} {n : Int} {mark : Char} {text : Text}

theorem ofWord_immediate (h : Denotes base places n text) (hmark : IsMark base mark) :
    TokenKind.ofWord (mark :: text) = .immediate := by
  have hliteral := ((denotes_iff hmark.isBase).1 h).1
  exact TokenKind.ofWord_of_isImmediate (isImmediate_of_isMark hmark hliteral)

theorem immediateValue (h : Denotes base places n text) (hmark : IsMark base mark)
    (hlimit : base = 10 → places ≤ limit) (location : Location) :
    Token.immediateValue ⟨.immediate, mark :: text, location⟩ = .ok n := by
  have hbase : (if mark = 'x' ∨ mark = 'X' then 16 else 10) = base := by
    cases hmark <;> rfl
  have hvalue : Token.immediateValue ⟨.immediate, mark :: text, location⟩ =
      Token.readNumeral (if mark = 'x' ∨ mark = 'X' then 16 else 10) text := rfl
  rw [hvalue, hbase, h.readNumeral hmark.isBase hlimit]

theorem ofWord_number (h : Denotes 10 places n text) : TokenKind.ofWord text = .number :=
  TokenKind.ofWord_of_isNumber (isNumber_iff.2 ((denotes_iff isBase_ten).1 h).1)

theorem numberValue (h : Denotes 10 places n text) (hlimit : places ≤ limit)
    (location : Location) : Token.numberValue ⟨.number, text, location⟩ = .ok n := by
  have hvalue : Token.numberValue ⟨.number, text, location⟩ = Token.readNumeral 10 text := rfl
  rw [hvalue, h.readNumeral isBase_ten fun _ => hlimit]

end Numeral.Denotes

/-- **Literals.** Every immediate is a mark and a numeral in the base of the mark, every number a
decimal numeral, and both have the value that the numeral denotes, unless it has too many decimal
digits. Conversely the numerals of every integer are literals with that value, whatever the sign
that it can have, the zeros in front and the case of the letters. -/
theorem literals_exact :
    (∀ word, TokenKind.ofWord word = .immediate → ∃ base mark numeral places n,
      word = mark :: numeral ∧ Lexeme.IsMark base mark ∧ Numeral.Denotes base places n numeral ∧
      ((base = 10 → places ≤ Numeral.limit) →
        ∀ location, Token.immediateValue ⟨.immediate, word, location⟩ = .ok n)) ∧
    (∀ word, TokenKind.ofWord word = .number → ∃ places n, Numeral.Denotes 10 places n word ∧
      (places ≤ Numeral.limit →
        ∀ location, Token.numberValue ⟨.number, word, location⟩ = .ok n)) ∧
    ∀ (n : Int) (sign : Numeral.Sign) (zeros : Nat), sign.apply n.natAbs = n →
      (∀ mark letters, Lexeme.IsMark 16 mark →
        SameLetters (Numeral.digits 16 n.natAbs) letters →
        let word := mark :: (sign.text ++ (List.replicate zeros '0' ++ letters))
        TokenKind.ofWord word = .immediate ∧
          ∀ location, Token.immediateValue ⟨.immediate, word, location⟩ = .ok n) ∧
      let numeral := sign.text ++ (List.replicate zeros '0' ++ Numeral.digits 10 n.natAbs)
      TokenKind.ofWord ('#' :: numeral) = .immediate ∧ TokenKind.ofWord numeral = .number ∧
        (zeros + (Numeral.digits 10 n.natAbs).length ≤ Numeral.limit → ∀ location,
          Token.immediateValue ⟨.immediate, '#' :: numeral, location⟩ = .ok n ∧
          Token.numberValue ⟨.number, numeral, location⟩ = .ok n) := by
  refine ⟨?_, ?_, ?_⟩
  · intro word hword
    obtain ⟨base, mark, numeral, rfl, hmark, hliteral⟩ :=
      Lexeme.exists_isMark (TokenKind.isImmediate_of_ofWord hword)
    have hdenotes := (Numeral.denotes_iff hmark.isBase).2 ⟨hliteral, rfl, rfl⟩
    exact ⟨base, mark, numeral, _, _, rfl, hmark, hdenotes,
      hdenotes.immediateValue hmark⟩
  · intro word hword
    have hliteral := Lexeme.isNumber_iff.1 (TokenKind.isNumber_of_ofWord hword)
    have hdenotes := (Numeral.denotes_iff Numeral.isBase_ten).2 ⟨hliteral, rfl, rfl⟩
    exact ⟨_, _, hdenotes, hdenotes.numberValue⟩
  · intro n sign zeros hsign
    constructor
    · intro mark letters hmark hletters
      have hdenotes := Numeral.denotes_spelled hmark.isBase hsign zeros hletters
      exact ⟨hdenotes.ofWord_immediate hmark, hdenotes.immediateValue hmark (by omega)⟩
    · have hdenotes := Numeral.denotes_spelled Numeral.isBase_ten hsign zeros (SameLetters.refl _)
      refine ⟨hdenotes.ofWord_immediate .hash, hdenotes.ofWord_number, fun hlimit location => ?_⟩
      exact ⟨hdenotes.immediateValue .hash (fun _ => hlimit) location,
        hdenotes.numberValue hlimit location⟩

/-- A mark in front of an operator, a number with zeros, and letters of both cases. -/
theorem literals_exact_overlaps :
    (∃ places n, Numeral.Denotes 16 places n "ADD".toList ∧
      ∀ location, Token.immediateValue ⟨.immediate, "xADD".toList, location⟩ = .ok n) ∧
    (∃ places n, Numeral.Denotes 10 places n "-007".toList ∧
      ∀ location, Token.numberValue ⟨.number, "-007".toList, location⟩ = .ok n) ∧
    TokenKind.ofWord "X-0fAcE".toList = .immediate ∧
      ∀ location,
        Token.immediateValue ⟨.immediate, "X-0fAcE".toList, location⟩ = .ok (-0xFACE) := by
  obtain ⟨himmediate, hnumber, hspelled⟩ := literals_exact
  refine ⟨?_, ?_, ?_⟩
  · obtain ⟨base, mark, numeral, places, n, hword, hmark, hdenotes, hvalue⟩ :=
      himmediate "xADD".toList (by decide +kernel)
    obtain ⟨rfl, rfl⟩ := List.cons.inj hword
    cases hmark
    exact ⟨places, n, hdenotes, hvalue (by omega)⟩
  · obtain ⟨places, n, hdenotes, hvalue⟩ := hnumber "-007".toList (by decide +kernel)
    have hplaces : 3 = places := ((Numeral.denotes_iff Numeral.isBase_ten).1 hdenotes).2.1
    exact ⟨places, n, hdenotes, hvalue (hplaces ▸ by decide)⟩
  · have hdigits : SameLetters (Numeral.digits 16 (-0xFACE : Int).natAbs) "fAcE".toList := by
      decide +kernel
    exact (hspelled (-0xFACE) .minus 1 rfl).1 'X' _ .capital hdigits

end LittleComputer
