import LittleComputer.Proofs.Literal
import Mathlib.Tactic

/-! # Numbers that are written and read back

In base ten and in base sixteen, the digits of a number are digits of the base, and they write that
number. Behind its sign they make a literal, whose value is the integer.

* `Numeral.value_eq_ofDigits`: digits are counted by powers of the base.
* `Numeral.value_digits`: the value of the digits of a number.
* `Numeral.length_digits_le`: how many there are.
* `Numeral.Writes`: a text that writes a number with so many digits; `Numeral.writes_padded` and
  `Numeral.writes_bits` for the forms that renderings use.
* `Numeral.denoted_signed`: the value of a written integer.
* `Numeral.read_integer`: integers within the limit are read back from their decimal form.
-/

namespace LittleComputer.Numeral
set_option autoImplicit false
open Lexeme

variable {base : Nat}

/-! ## Digits -/

/-- The bases that literals are written in. -/
def IsBase (base : Nat) : Prop :=
  base = 10 ∨ base = 16

theorem isBase_ten : IsBase 10 :=
  .inl rfl

theorem IsBase.two_le (h : IsBase base) : 2 ≤ base := by
  rcases h with rfl | rfl <;> omega

theorem IsBase.pos (h : IsBase base) : 0 < base :=
  Nat.zero_lt_of_lt h.two_le

theorem IsBase.digitChar (h : IsBase base) {v : Nat} (hv : v < base) :
    IsDigit base (digitChar v) ∧ digit (digitChar v) = v := by
  have hdecimal : ∀ v < 10, isDecimal (Numeral.digitChar v) = true := by decide
  have hhexadecimal : ∀ v < 16,
      isHexadecimal (Numeral.digitChar v) = true ∧ digit (Numeral.digitChar v) = v := by
    decide
  rcases h with rfl | rfl
  · exact ⟨.decimal (hdecimal v hv), (hhexadecimal v (by omega)).2⟩
  · exact ⟨.hexadecimal (hhexadecimal v hv).1, (hhexadecimal v hv).2⟩

theorem digits_of_lt {n : Nat} (h : n < base) : digits base n = [digitChar n] := by
  rw [digits, if_pos (.inl h)]

theorem digits_of_le (hbase : IsBase base) {n : Nat} (h : base ≤ n) :
    digits base n = digits base (n / base) ++ [digitChar (n % base)] := by
  have := hbase.two_le
  rw [digits, if_neg (by omega)]

/-- What holds of the digits of small numbers and passes from a number to the number with one digit
more holds of the digits of all numbers. -/
theorem digits_induction {P : Nat → Text → Prop} (hbase : IsBase base)
    (hsmall : ∀ n < base, P n [digitChar n])
    (hstep : ∀ n ≥ base, P (n / base) (digits base (n / base)) →
      P n (digits base (n / base) ++ [digitChar (n % base)])) (n : Nat) :
    P n (digits base n) := by
  induction n using Nat.strongRecOn with
  | ind n ih =>
    by_cases hn : n < base
    · rw [digits_of_lt hn]
      exact hsmall n hn
    · have hle : base ≤ n := by omega
      have hlt : n / base < n := Nat.div_lt_self (hbase.pos.trans_le hle) hbase.two_le
      rw [digits_of_le hbase hle]
      exact hstep n hle (ih (n / base) hlt)

theorem isDigit_of_mem_digits (hbase : IsBase base) (n : Nat) :
    ∀ c ∈ digits base n, IsDigit base c := by
  refine digits_induction (P := fun _ text => ∀ c ∈ text, IsDigit base c) hbase ?_ ?_ n
  · intro n hn c hc
    rw [List.mem_singleton.1 hc]
    exact (hbase.digitChar hn).1
  · intro n _ ih c hc
    rcases List.mem_append.1 hc with hc | hc
    · exact ih c hc
    · rw [List.mem_singleton.1 hc]
      exact (hbase.digitChar (Nat.mod_lt n hbase.pos)).1

theorem digits_ne_nil (hbase : IsBase base) (n : Nat) : digits base n ≠ [] :=
  digits_induction (P := fun _ text => text ≠ []) hbase (fun _ _ => by simp) (fun _ _ _ => by simp) n

theorem value_concat (values : List Nat) (v : Nat) :
    value base (values ++ [v]) = value base values * base + v := by
  rw [value, List.foldl_append]
  rfl

/-- The digits stand for the powers of the base, the last one for the lowest. -/
theorem value_eq_ofDigits (values : List Nat) :
    value base values = Nat.ofDigits base values.reverse := by
  induction values using List.reverseRecOn with
  | nil => rfl
  | append_singleton values v ih =>
    rw [value_concat, ih, List.reverse_concat, Nat.ofDigits_cons, Nat.mul_comm, Nat.add_comm]

theorem value_digits (hbase : IsBase base) (n : Nat) :
    value base ((digits base n).map digit) = n := by
  refine digits_induction (P := fun n text => value base (text.map digit) = n) hbase ?_ ?_ n
  · intro n hn
    rw [List.map_singleton, (hbase.digitChar hn).2]
    simp [value]
  · intro n _ ih
    have hmod : n % base < base := Nat.mod_lt n hbase.pos
    rw [List.map_append, List.map_singleton, value_concat, ih, (hbase.digitChar hmod).2,
      Nat.mul_comm]
    exact Nat.div_add_mod n base

theorem length_digits_le (hbase : IsBase base) {n places : Nat} (hplaces : 0 < places)
    (h : n < base ^ places) : (digits base n).length ≤ places := by
  induction places generalizing n with
  | zero => omega
  | succ places ih =>
    by_cases hn : n < base
    · rw [digits_of_lt hn, List.length_singleton]
      omega
    · have hpos : 0 < places := by
        by_contra hzero
        rw [Nat.eq_zero_of_not_pos hzero, zero_add, pow_one] at h
        omega
      have hdiv : n / base < base ^ places := by
        rw [Nat.div_lt_iff_lt_mul hbase.pos, ← pow_succ]
        exact h
      rw [digits_of_le hbase (by omega), List.length_append, List.length_singleton]
      have := ih hpos hdiv
      omega

/-! ## A fixed count of digits -/

/-- The text writes a number with the given count of digits of a base. -/
def Writes (base places n : Nat) (text : Text) : Prop :=
  ∃ values : List Nat, text = values.map digitChar ∧ values.length = places ∧
    (∀ v ∈ values, v < base) ∧ value base values = n

theorem writes_nil : Writes base 0 0 [] :=
  ⟨[], rfl, rfl, by simp, rfl⟩

theorem Writes.concat {places n v : Nat} {text : Text} (h : Writes base places n text)
    (hv : v < base) : Writes base (places + 1) (n * base + v) (text ++ [digitChar v]) := by
  obtain ⟨values, rfl, rfl, hvalues, rfl⟩ := h
  refine ⟨values ++ [v], by rw [List.map_append, List.map_singleton],
    by rw [List.length_append, List.length_singleton], ?_, value_concat values v⟩
  intro w hw
  rcases List.mem_append.1 hw with hw | hw
  · exact hvalues w hw
  · exact List.mem_singleton.1 hw ▸ hv

theorem Writes.zeros {places n : Nat} {text : Text} (h : Writes base places n text)
    (hbase : 0 < base) (count : Nat) :
    Writes base (count + places) n (List.replicate count '0' ++ text) := by
  obtain ⟨values, rfl, rfl, hvalues, rfl⟩ := h
  refine ⟨List.replicate count 0 ++ values, ?_, by simp, ?_, ?_⟩
  · rw [List.map_append, List.map_replicate]
    rfl
  · intro v hv
    rcases List.mem_append.1 hv with hv | hv
    · exact (List.mem_replicate.1 hv).2 ▸ hbase
    · exact hvalues v hv
  · induction count with
    | zero => rfl
    | succ count ih =>
      have hzero : ∀ rest, value base (0 :: rest) = value base rest := fun rest => by simp [value]
      rw [List.replicate_succ, List.cons_append, hzero, ih]

theorem writes_digits (hbase : IsBase base) (n : Nat) :
    Writes base (digits base n).length n (digits base n) := by
  refine digits_induction (P := fun n text => Writes base text.length n text) hbase ?_ ?_ n
  · intro n hn
    have hone := writes_nil.concat hn
    rw [zero_mul, zero_add n] at hone
    exact hone
  · intro n _ ih
    have hmore := ih.concat (Nat.mod_lt n hbase.pos)
    rwa [Nat.div_add_mod' n base, ← List.length_singleton, ← List.length_append] at hmore

/-- Zeros in front, as many as the width asks for, if any. -/
theorem writes_leftpad (hbase : IsBase base) (width n : Nat) :
    ∃ places, Writes base places n (padded base width n) :=
  ⟨_, (writes_digits hbase n).zeros hbase.pos _⟩

theorem writes_padded (hbase : IsBase base) {places n : Nat} (hplaces : 0 < places)
    (h : n < base ^ places) : Writes base places n (padded base places n) := by
  have hlength := length_digits_le hbase hplaces h
  have hzeros := (writes_digits hbase n).zeros hbase.pos (places - (digits base n).length)
  rwa [Nat.sub_add_cancel hlength] at hzeros

/-- The first bits of a vector write the vector without the bits behind them. -/
theorem writes_first_bits {width : Nat} (bits : BitVec width) {count : Nat} (h : count ≤ width) :
    Writes 2 count (bits.toNat / 2 ^ (width - count))
      ((List.range count).map fun place => if bits.getMsbD place then '1' else '0') := by
  induction count with
  | zero =>
    rw [Nat.sub_zero, Nat.div_eq_of_lt bits.isLt]
    exact writes_nil
  | succ count ih =>
    have hbit : bits.getMsbD count = bits.toNat.testBit (width - (count + 1)) := by
      rw [BitVec.getMsbD_eq_getLsbD, BitVec.testBit_toNat, decide_eq_true (by omega), Bool.true_and,
        Nat.sub_sub, Nat.add_comm 1]
    have hdigit : (if bits.getMsbD count then '1' else '0') =
        digitChar (bits.getMsbD count).toNat := by
      cases bits.getMsbD count <;> rfl
    have hvalue : bits.toNat / 2 ^ (width - count) * 2 + (bits.getMsbD count).toNat =
        bits.toNat / 2 ^ (width - (count + 1)) := by
      have hpow : width - count = width - (count + 1) + 1 := by omega
      rw [hbit, Nat.toNat_testBit, hpow, pow_succ, ← Nat.div_div_eq_div_mul]
      exact Nat.div_add_mod' _ 2
    have hmore := (ih (by omega)).concat (Bool.toNat_lt (bits.getMsbD count))
    rw [hvalue, ← hdigit] at hmore
    rw [List.range_succ, List.map_append, List.map_singleton]
    exact hmore

theorem writes_bits (word : Word) : Writes 2 16 word.toNat word.bits := by
  have hall := writes_first_bits word (le_refl 16)
  rwa [Nat.sub_self, pow_zero, Nat.div_one] at hall

theorem Writes.not_isBlank {places n : Nat} {text : Text} (h : Writes base places n text)
    (hbase : base ≤ 16) : ∀ c ∈ text, Text.isBlank c = false := by
  have hdigit : ∀ v < 16, Text.isBlank (digitChar v) = false := by decide
  obtain ⟨values, rfl, -, hvalues, -⟩ := h
  intro c hc
  obtain ⟨v, hv, rfl⟩ := List.mem_map.1 hc
  exact hdigit v ((hvalues v hv).trans_le hbase)

/-- The digits can be read back. -/
theorem Writes.value_eq {places n : Nat} {text : Text} (h : Writes base places n text)
    (hbase : IsBase base) : value base (text.map digit) = n := by
  obtain ⟨values, rfl, -, hvalues, rfl⟩ := h
  have hdigits : ∀ v ∈ values, (digit ∘ digitChar) v = v :=
    fun v hv => (hbase.digitChar (hvalues v hv)).2
  rw [List.map_map, List.map_congr_left hdigits, List.map_id']

/-! ## Signs -/

theorem takeSign_of_isDigit {text : Text} (h : ∀ c ∈ text, IsDigit base c) :
    takeSign text = (false, text) := by
  unfold takeSign
  split
  · exact absurd rfl ((h '-' List.mem_cons_self).ne rfl)
  · exact absurd rfl ((h '+' List.mem_cons_self).ne rfl)
  · rfl

theorem takeSign_signed (hbase : IsBase base) (n : Int) :
    takeSign (signed base n) = (decide (n < 0), digits base n.natAbs) := by
  unfold signed
  split
  · next hn => simp [takeSign, hn]
  · next hn =>
    rw [takeSign_of_isDigit (isDigit_of_mem_digits hbase n.natAbs)]
    simp [hn]

theorem signed_isLiteral (hbase : IsBase base) (n : Int) : IsLiteral base (signed base n) := by
  rw [IsLiteral, takeSign_signed hbase]
  exact ⟨digits_ne_nil hbase n.natAbs, isDigit_of_mem_digits hbase n.natAbs⟩

theorem denoted_signed (hbase : IsBase base) (n : Int) : denoted base (signed base n) = n := by
  rw [denoted, takeSign_signed hbase]
  simp only [value_digits hbase, decide_eq_true_eq]
  split <;> omega

/-- An integer within the limit is read back from its decimal form. -/
theorem read_integer {n : Int} (h : n.natAbs < 10 ^ limit) : read 10 (integer n) = .ok n := by
  have hlength : (digits 10 n.natAbs).length ≤ limit := length_digits_le isBase_ten (by decide) h
  rw [integer, read_isLiteral (signed_isLiteral isBase_ten n), denoted_signed isBase_ten,
    takeSign_signed isBase_ten, if_neg]
  rintro ⟨-, hlong⟩
  exact absurd hlength (by simpa using hlong)

end LittleComputer.Numeral
