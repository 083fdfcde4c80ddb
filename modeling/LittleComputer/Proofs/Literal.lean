import LittleComputer.Token.Class
import LittleComputer.Token.Value
import Mathlib.Tactic

/-! # The values of numeric literals

A word that the lexer takes for a register, an immediate or a number has a value, unless it is a
decimal numeral of more than `Numeral.limit` digits.

* `Lexeme.IsDigit`: the digits of base ten and of base sixteen, and `Lexeme.digit` their values.
* `Numeral.read_isLiteral`: a literal is read as its sign and the number that its digits write.
* `Token.WithinLimits`: the literals whose values can be read and written.
-/

namespace LittleComputer
set_option autoImplicit false

/-! ## Digits -/

namespace Lexeme

theorem isDecimal_iff {c : Char} : isDecimal c = true ↔ 48 ≤ c.toNat ∧ c.toNat ≤ 57 := by
  simp only [isDecimal, Bool.and_eq_true, decide_eq_true_eq]
  rfl

theorem isHexadecimal_iff {c : Char} :
    isHexadecimal c = true ↔ (48 ≤ c.toNat ∧ c.toNat ≤ 57) ∨ (65 ≤ c.toNat ∧ c.toNat ≤ 70) ∨
      (97 ≤ c.toNat ∧ c.toNat ≤ 102) := by
  simp only [isHexadecimal, Bool.or_eq_true, Bool.and_eq_true, decide_eq_true_eq, isDecimal_iff,
    or_assoc]
  rfl

/-- The digits of a numeral in base ten or sixteen. -/
inductive IsDigit : Nat → Char → Prop
  | decimal {c : Char} (h : isDecimal c = true) : IsDigit 10 c
  | hexadecimal {c : Char} (h : isHexadecimal c = true) : IsDigit 16 c

/-- The value of a digit, where letters count from ten. -/
def digit (c : Char) : Nat :=
  (Numeral.asciiDigit? c).getD 0

theorem IsDigit.isHexadecimal {base : Nat} {c : Char} (h : IsDigit base c) :
    isHexadecimal c = true := by
  cases h with
  | decimal h => exact isHexadecimal_iff.2 (.inl (isDecimal_iff.1 h))
  | hexadecimal h => exact h

theorem IsDigit.isDecimal {c : Char} (h : IsDigit 10 c) : isDecimal c = true := by
  cases h with
  | decimal h => exact h

/-- No digit is a character of another sort. -/
theorem IsDigit.ne {base : Nat} {c d : Char} (h : IsDigit base c)
    (hd : Lexeme.isHexadecimal d = false) : c ≠ d := by
  rintro rfl
  rw [h.isHexadecimal] at hd
  exact Bool.noConfusion hd

theorem digit_decimal {c : Char} (h : 48 ≤ c.toNat ∧ c.toNat ≤ 57) :
    Numeral.asciiDigit? c = some (c.toNat - 0x30) := by
  have h1 : '0' ≤ c ∧ c ≤ '9' := h
  rw [Numeral.asciiDigit?, if_pos h1]

theorem digit_capital {c : Char} (h : 65 ≤ c.toNat ∧ c.toNat ≤ 90) :
    Numeral.asciiDigit? c = some (c.toNat - 0x37) := by
  have h1 : ¬ ('0' ≤ c ∧ c ≤ '9') := by
    intro hc
    have h9 : c.toNat ≤ 57 := hc.2
    omega
  have h2 : 'A' ≤ c ∧ c ≤ 'Z' := h
  rw [Numeral.asciiDigit?, if_neg h1, if_pos h2]

theorem digit_small {c : Char} (h : 97 ≤ c.toNat ∧ c.toNat ≤ 122) :
    Numeral.asciiDigit? c = some (c.toNat - 0x57) := by
  have h1 : ¬ ('0' ≤ c ∧ c ≤ '9') := by
    intro hc
    have h9 : c.toNat ≤ 57 := hc.2
    omega
  have h2 : ¬ ('A' ≤ c ∧ c ≤ 'Z') := by
    intro hc
    have hz : c.toNat ≤ 90 := hc.2
    omega
  have h3 : 'a' ≤ c ∧ c ≤ 'z' := h
  rw [Numeral.asciiDigit?, if_neg h1, if_neg h2, if_pos h3]

/-- A digit of a base has a value, and the value is below the base. -/
theorem IsDigit.asciiDigit? {base : Nat} {c : Char} (h : IsDigit base c) :
    Numeral.asciiDigit? c = some (digit c) ∧ digit c < base := by
  have key : ∃ value < base, Numeral.asciiDigit? c = some value := by
    cases h with
    | decimal h =>
      have hc := isDecimal_iff.1 h
      exact ⟨_, by omega, digit_decimal hc⟩
    | hexadecimal h =>
      rcases isHexadecimal_iff.1 h with hc | hc | hc
      · exact ⟨_, by omega, digit_decimal hc⟩
      · exact ⟨_, by omega, digit_capital ⟨hc.1, by omega⟩⟩
      · exact ⟨_, by omega, digit_small ⟨hc.1, by omega⟩⟩
  obtain ⟨value, hlt, hvalue⟩ := key
  rw [digit, hvalue]
  exact ⟨rfl, hlt⟩

theorem IsDigit.digitValue? {base : Nat} {c : Char} (h : IsDigit base c) :
    Numeral.digitValue? base c = some (digit c) := by
  have hascii : c.toNat < 128 := by
    have := isHexadecimal_iff.1 h.isHexadecimal
    omega
  obtain ⟨hvalue, hlt⟩ := h.asciiDigit?
  rw [Numeral.digitValue?, if_pos hascii, hvalue, Option.filter_some, if_pos (by simpa using hlt)]

theorem IsDigit.not_isPadding {base : Nat} {c : Char} (h : IsDigit base c) :
    Numeral.isPadding c = false := by
  have hc := isHexadecimal_iff.1 h.isHexadecimal
  have hspace : c ≠ ' ' := h.ne rfl
  rw [Numeral.isPadding, if_pos (by omega)]
  simp only [Bool.or_eq_false_iff, Bool.and_eq_false_iff, decide_eq_false_iff_not,
    beq_eq_false_iff_ne]
  exact ⟨by omega, hspace⟩

end Lexeme

/-! ## Numerals -/

namespace Numeral
open Lexeme

/-- A text that is an optional sign and at least one digit of the base. -/
def IsLiteral (base : Nat) (text : Text) : Prop :=
  (takeSign text).2 ≠ [] ∧ ∀ c ∈ (takeSign text).2, IsDigit base c

/-- The sign of a numeral times the number that its digits write. -/
def denoted (base : Nat) (text : Text) : Int :=
  let magnitude := value base ((takeSign text).2.map digit)
  if (takeSign text).1 then -(magnitude : Int) else magnitude

theorem isNumeral_eq (isDigit : Char → Bool) (text : Text) :
    isNumeral isDigit text = (!(takeSign text).2.isEmpty && (takeSign text).2.all isDigit) := by
  unfold isNumeral takeSign
  split
  · rfl
  · rfl
  · next hplus hminus =>
    split
    · exact absurd rfl (hminus _)
    · exact absurd rfl (hplus _)
    · rfl

theorem isLiteral_of_isNumeral {base : Nat} {isDigit : Char → Bool} {text : Text}
    (hdigit : ∀ c, isDigit c = true → IsDigit base c) (h : isNumeral isDigit text = true) :
    IsLiteral base text := by
  rw [isNumeral_eq, Bool.and_eq_true, List.all_eq_true] at h
  refine ⟨?_, fun c hc => hdigit c (h.2 c hc)⟩
  intro hnil
  rw [hnil] at h
  exact Bool.noConfusion h.1

theorem isNumeral_of_isLiteral {base : Nat} {isDigit : Char → Bool} {text : Text}
    (hdigit : ∀ c, IsDigit base c → isDigit c = true) (h : IsLiteral base text) :
    isNumeral isDigit text = true := by
  rw [isNumeral_eq, Bool.and_eq_true, List.all_eq_true]
  exact ⟨by simp [h.1], fun c hc => hdigit c (h.2 c hc)⟩

/-- A numeral consists of its sign and its digits. -/
theorem mem_of_mem_numeral {text : Text} {c : Char} (h : c ∈ text) :
    c = '-' ∨ c = '+' ∨ c ∈ (takeSign text).2 := by
  unfold takeSign
  split
  · rcases List.mem_cons.1 h with h | h
    · exact .inl h
    · exact .inr (.inr h)
  · rcases List.mem_cons.1 h with h | h
    · exact .inr (.inl h)
    · exact .inr (.inr h)
  · exact .inr (.inr h)

theorem dropWhile_of_forall_not {α : Type} {p : α → Bool} {l : List α} (h : ∀ a ∈ l, p a = false) :
    l.dropWhile p = l := by
  cases l with
  | nil => rfl
  | cons a l =>
    have ha : ¬ p a = true := by
      rw [h a List.mem_cons_self]
      exact Bool.noConfusion
    rw [List.dropWhile_cons_of_neg ha]

theorem trim_of_not_isPadding {text : Text} (h : ∀ c ∈ text, isPadding c = false) :
    trim text = text := by
  have hback : ∀ c ∈ text.reverse, isPadding c = false :=
    fun c hc => h c (List.mem_reverse.1 hc)
  rw [trim, dropWhile_of_forall_not h, dropWhile_of_forall_not hback, List.reverse_reverse]

theorem IsLiteral.trim {base : Nat} {text : Text} (h : IsLiteral base text) :
    trim text = text := by
  apply trim_of_not_isPadding
  intro c hc
  rcases mem_of_mem_numeral hc with rfl | rfl | hc
  · rfl
  · rfl
  · exact (h.2 c hc).not_isPadding

/-- The mark `0x` needs a letter that is no digit, so digits alone have no mark. -/
theorem dropMark_of_isDigit {base : Nat} {text : Text} (h : ∀ c ∈ text, IsDigit base c) :
    dropMark text = text := by
  unfold dropMark
  split
  · next zero x rest =>
    have hx := h x (by simp)
    have hmark : ¬ (Text.decimalDigit? zero = some 0 ∧ (x = 'x' ∨ x = 'X')) := by
      rintro ⟨-, rfl | rfl⟩
      · exact hx.ne rfl rfl
      · exact hx.ne rfl rfl
    rw [if_neg hmark]
  · rfl

theorem digitValues?_of_isDigit {base : Nat} {text : Text} (hne : text ≠ [])
    (h : ∀ c ∈ text, IsDigit base c) : digitValues? base text = some (text.map digit) := by
  induction text with
  | nil => exact absurd rfl hne
  | cons c rest ih =>
    have hc := (h c List.mem_cons_self).digitValue?
    have hrest : ∀ d ∈ rest, IsDigit base d := fun d hd => h d (List.mem_cons_of_mem c hd)
    unfold digitValues?
    simp only [hc]
    split
    · rfl
    · next more => exact absurd rfl ((hrest '_' List.mem_cons_self).ne rfl)
    · next hrest' _ =>
      rw [ih hrest' hrest]
      rfl

/-- **Reading a literal.** Only a decimal numeral of too many digits has no value. -/
theorem read_isLiteral {base : Nat} {text : Text} (h : IsLiteral base text) :
    read base text =
      if base = 10 ∧ limit < (takeSign text).2.length then
        .error (.tooLong (takeSign text).2.length)
      else .ok (denoted base text) := by
  have hmark : (if base = 16 then dropMark (takeSign text).2 else (takeSign text).2)
      = (takeSign text).2 := by
    split
    · exact dropMark_of_isDigit h.2
    · rfl
  unfold read
  simp only [h.trim, hmark, digitValues?_of_isDigit h.1 h.2, List.length_map]
  rfl

theorem foldl_lt {base : Nat} (values : List Nat) (h : ∀ v ∈ values, v < base) (total : Nat) :
    values.foldl (fun total digit => total * base + digit) total
      < (total + 1) * base ^ values.length := by
  induction values generalizing total with
  | nil => simp
  | cons v values ih =>
    have hv := h v List.mem_cons_self
    have hstep := ih (fun w hw => h w (List.mem_cons_of_mem v hw)) (total * base + v)
    have hle : (total * base + v + 1) * base ^ values.length
        ≤ (total + 1) * base * base ^ values.length := by
      apply Nat.mul_le_mul_right
      rw [Nat.succ_mul]
      omega
    rw [List.foldl_cons, List.length_cons, pow_succ', ← mul_assoc]
    exact lt_of_lt_of_le hstep hle

/-- A numeral of `n` digits denotes a number below the `n`-th power of its base. -/
theorem IsLiteral.natAbs_denoted_lt {base : Nat} {text : Text} (h : IsLiteral base text) :
    (denoted base text).natAbs < base ^ (takeSign text).2.length := by
  have hdigits : ∀ v ∈ (takeSign text).2.map digit, v < base := by
    intro v hv
    obtain ⟨c, hc, rfl⟩ := List.mem_map.1 hv
    exact (h.2 c hc).asciiDigit?.2
  have hlt := foldl_lt ((takeSign text).2.map digit) hdigits 0
  rw [zero_add, one_mul, List.length_map] at hlt
  have habs : (denoted base text).natAbs = value base ((takeSign text).2.map digit) := by
    unfold denoted
    split
    · rw [Int.natAbs_neg, Int.natAbs_natCast]
    · rw [Int.natAbs_natCast]
  rw [habs]
  exact hlt

end Numeral

/-! ## Tokens -/

namespace Token
open Numeral Lexeme

/-- The literals within the limits of numbers: a decimal one has at most `limit` digits, a
hexadecimal one is of a magnitude that as many decimal digits can write. -/
def WithinLimits (token : Token) : Prop :=
  if token.kind = .immediate then
    if token.content.head? = some 'x' ∨ token.content.head? = some 'X' then
      (denoted 16 token.content.tail).natAbs < 10 ^ limit
    else (takeSign token.content.tail).2.length ≤ limit
  else if token.kind = .number then (takeSign token.content).2.length ≤ limit
  else True

instance (token : Token) : Decidable token.WithinLimits :=
  inferInstanceAs (Decidable (ite _ (ite _ _ _) (ite _ _ _)))

theorem require_eq_ok {token : Token} {kind : TokenKind} (h : token.kind = kind) :
    token.require kind = .ok () := by
  rw [require, if_pos h]

theorem labelName_eq {token : Token} (h : token.kind = .label) :
    token.labelName = .ok token.content := by
  rw [labelName, require_eq_ok h]
  rfl

theorem stringText_eq {token : Token} (h : token.kind = .string) :
    token.stringText = .ok token.content.tail.dropLast := by
  rw [stringText, require_eq_ok h]
  rfl

theorem registerNumber_of_isRegister {token : Token} (hkind : token.kind = .register)
    (h : isRegister token.content = true) : ∃ number < 8, token.registerNumber = .ok number := by
  unfold isRegister at h
  split at h
  · next letter digit hcontent =>
    have hdigit : 48 ≤ digit.toNat ∧ digit.toNat ≤ 55 := by
      simp only [Bool.and_eq_true, decide_eq_true_eq] at h
      exact ⟨h.1.2, h.2⟩
    have hvalue : Text.decimalDigit? digit = some (digit.toNat - 0x30) := by
      rw [Text.decimalDigit?, Text.digitZeros, List.find?_cons_of_pos]
      · rfl
      · simp only [Bool.and_eq_true, decide_eq_true_eq]
        omega
    refine ⟨digit.toNat - 0x30, by omega, ?_⟩
    rw [registerNumber, require_eq_ok hkind, hcontent]
    simp only [bind, Except.bind, hvalue]
  · exact Bool.noConfusion h

/-- The value of a decimal literal, or the fault when it has too many digits. -/
theorem readNumeral_decimal {numeral : Text} (h : IsLiteral 10 numeral) :
    (readNumeral 10 numeral = .ok (denoted 10 numeral) ∧
        ((takeSign numeral).2.length ≤ limit → (denoted 10 numeral).natAbs < 10 ^ limit)) ∨
      ∃ fault, readNumeral 10 numeral = .error (.fault fault) ∧
        ¬ (takeSign numeral).2.length ≤ limit := by
  have hread := read_isLiteral h
  by_cases hlength : (takeSign numeral).2.length ≤ limit
  · rw [if_neg (by omega)] at hread
    refine .inl ⟨by rw [readNumeral, hread]; rfl, fun _ => ?_⟩
    exact lt_of_lt_of_le h.natAbs_denoted_lt (Nat.pow_le_pow_right (by decide) hlength)
  · rw [if_pos ⟨rfl, by omega⟩] at hread
    exact .inr ⟨_, by rw [readNumeral, hread]; rfl, hlength⟩

theorem readNumeral_hexadecimal {numeral : Text} (h : IsLiteral 16 numeral) :
    readNumeral 16 numeral = .ok (denoted 16 numeral) := by
  rw [readNumeral, read_isLiteral h]
  rfl

/-- An immediate is a hexadecimal literal behind `x` or a decimal one behind `#`. -/
theorem isImmediate_cases {content : Text} (h : isImmediate content = true) :
    ∃ mark numeral, content = mark :: numeral ∧
      ((mark = 'x' ∨ mark = 'X') ∧ IsLiteral 16 numeral ∨
        ¬ (mark = 'x' ∨ mark = 'X') ∧ IsLiteral 10 numeral) := by
  unfold isImmediate at h
  split at h
  · next numeral =>
    exact ⟨_, numeral, rfl, .inl ⟨.inl rfl, isLiteral_of_isNumeral (fun _ => .hexadecimal) h⟩⟩
  · next numeral =>
    exact ⟨_, numeral, rfl, .inl ⟨.inr rfl, isLiteral_of_isNumeral (fun _ => .hexadecimal) h⟩⟩
  · next numeral =>
    exact ⟨_, numeral, rfl, .inr ⟨by decide, isLiteral_of_isNumeral (fun _ => .decimal) h⟩⟩
  · exact Bool.noConfusion h

/-- **The value of an immediate.** It exists unless the literal breaks the limits; within them it
can be written again. -/
theorem immediateValue_outcome {token : Token} (hkind : token.kind = .immediate)
    (h : isImmediate token.content = true) :
    (∃ value, token.immediateValue = .ok value ∧
        (token.WithinLimits → value.natAbs < 10 ^ limit)) ∨
      ∃ fault, token.immediateValue = .error (.fault fault) ∧ ¬ token.WithinLimits := by
  obtain ⟨mark, numeral, hcontent, hcases⟩ := isImmediate_cases h
  have hvalue : token.immediateValue =
      readNumeral (if mark = 'x' ∨ mark = 'X' then 16 else 10) numeral := by
    rw [immediateValue, require_eq_ok hkind, hcontent]
    rfl
  have hlimits : token.WithinLimits ↔
      if mark = 'x' ∨ mark = 'X' then (denoted 16 numeral).natAbs < 10 ^ limit
      else (takeSign numeral).2.length ≤ limit := by
    rw [WithinLimits, if_pos hkind, hcontent]
    simp
  rcases hcases with ⟨hmark, hliteral⟩ | ⟨hmark, hliteral⟩
  · rw [if_pos hmark, readNumeral_hexadecimal hliteral] at hvalue
    rw [if_pos hmark] at hlimits
    exact .inl ⟨_, hvalue, hlimits.1⟩
  · rw [if_neg hmark] at hvalue hlimits
    rw [hvalue, hlimits]
    exact (readNumeral_decimal hliteral).imp_left fun hread => ⟨_, hread⟩

/-- **The value of a number.** It exists unless the literal breaks the limits. -/
theorem numberValue_outcome {token : Token} (hkind : token.kind = .number)
    (h : isNumber token.content = true) :
    (∃ value, token.numberValue = .ok value ∧
        (token.WithinLimits → value.natAbs < 10 ^ limit)) ∨
      ∃ fault, token.numberValue = .error (.fault fault) ∧ ¬ token.WithinLimits := by
  have hliteral : IsLiteral 10 token.content := isLiteral_of_isNumeral (fun _ => .decimal) h
  have hvalue : token.numberValue = readNumeral 10 token.content := by
    rw [numberValue, require_eq_ok hkind]
    rfl
  have hlimits : token.WithinLimits ↔ (takeSign token.content).2.length ≤ limit := by
    rw [WithinLimits, hkind]
    rfl
  rw [hvalue, hlimits]
  exact (readNumeral_decimal hliteral).imp_left fun hread => ⟨_, hread⟩

end Token

/-! ## Diagnostics that can be written -/

/-- Ordinary numbers are far below the limit. -/
theorem Numeral.ten_pow_le : 10 ^ 20 ≤ 10 ^ limit :=
  Nat.pow_le_pow_right (by decide) (by decide)

theorem Numeral.exceedsLimit_iff {n : Int} : exceedsLimit n = true ↔ 10 ^ limit ≤ n.natAbs := by
  -- a general exponent keeps the power from being computed
  have hpow : ∀ k, Nat.pow 10 k = 10 ^ k := fun _ => rfl
  simp only [exceedsLimit, hpow, decide_eq_true_eq]

/-- A diagnostic stays one when its field has bits and its integers are within the limit. -/
theorem Diagnostic.failure_eq {diagnostic : Diagnostic}
    (hfield : ∀ value, diagnostic.problem ≠ .fieldRange value 0)
    (h : ∀ n ∈ diagnostic.problem.integers, n.natAbs < 10 ^ Numeral.limit) :
    diagnostic.failure = .diagnostic diagnostic := by
  have hwritable : diagnostic.problem.integers.any Numeral.exceedsLimit = false := by
    rw [List.any_eq_false]
    intro n hn
    exact mt Numeral.exceedsLimit_iff.1 (h n hn).not_ge
  unfold Diagnostic.failure
  split
  · next heq => exact absurd heq (hfield _)
  · rw [hwritable]
    rfl

/-- A failure that is a diagnostic is the one that was reported. -/
theorem Diagnostic.eq_of_failure_eq {diagnostic reported : Diagnostic}
    (h : diagnostic.failure = .diagnostic reported) : reported = diagnostic := by
  unfold Diagnostic.failure at h
  split at h
  · cases h
  · split at h
    · cases h
    · exact (Failure.diagnostic.inj h).symm

end LittleComputer
