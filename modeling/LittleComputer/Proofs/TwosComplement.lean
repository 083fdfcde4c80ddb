import LittleComputer.Proofs.Operands
import Mathlib.Order.Bounds.Basic
import Mathlib.Tactic

/-! # Two's complement fields of every width

A field of `bits` bits holds the integers whose sign extension it can be. The patterns and these
integers correspond one to one, and a value that finds no pattern is reported together with the
bounds of the field.

* `signExtension`: the integer that a pattern stands for.
* `encodeField_eq_ok_iff`: a value is encoded as the pattern that stands for it.
* `isLeast_fieldMinimum`, `isGreatest_fieldMaximum`: the bounds that a report names.
* `field_exact`: which values are encoded, how, and what is said of the others.
* `unreported_value`: a value that no report can name.
-/

namespace LittleComputer
set_option autoImplicit false

/-- The integer that a pattern of so many bits stands for: its highest bit counts negative. -/
def signExtension (bits pattern : Nat) : Int :=
  if pattern.testBit (bits - 1) then (pattern : Int) - 2 ^ bits else pattern

theorem signExtension_toNat {bits : Nat} (field : BitVec bits) :
    signExtension bits field.toNat = field.toInt := by
  rw [signExtension, BitVec.testBit_toNat, ← BitVec.msb_eq_getLsbD_last,
    BitVec.toInt_eq_msb_cond]
  push_cast
  rfl

/-- The values that a field of so many bits holds. -/
def fieldValues (bits : Nat) (location : Option Location) : Set Int :=
  {value | ∃ field, encodeField value bits location = .ok field}

section Field
variable {bits : Nat} {location : Option Location} {value : Int}

theorem fieldMinimum_eq (bits : Nat) : fieldMinimum bits = -2 ^ (bits - 1) := by
  rw [fieldMinimum, Nat.pow_eq]
  push_cast
  rfl

theorem fieldMaximum_eq (bits : Nat) : fieldMaximum bits = 2 ^ (bits - 1) - 1 := by
  rw [fieldMaximum, Nat.pow_eq]
  push_cast
  rfl

/-! ## Values that fit -/

theorem toInt_range (field : BitVec bits) :
    fieldMinimum bits ≤ field.toInt ∧ field.toInt ≤ fieldMaximum bits := by
  have hlow := field.le_toInt
  have hhigh := field.toInt_lt
  rw [fieldMinimum_eq, fieldMaximum_eq]
  omega

/-- A value is encoded as the pattern that stands for it, and as no other. -/
theorem encodeField_eq_ok_iff (hbits : 1 ≤ bits) {field : BitVec bits} :
    encodeField value bits location = .ok field ↔ field.toInt = value := by
  have hne : bits ≠ 0 := by omega
  rw [encodeField, if_neg hne]
  constructor
  · intro h
    split_ifs at h with hrange
    rw [← Except.ok.inj h]
    exact toInt_ofInt_of_range hne hrange.1 hrange.2
  · rintro rfl
    rw [if_pos (toInt_range field), BitVec.ofInt_toInt]

theorem mem_fieldValues (hbits : 1 ≤ bits) :
    value ∈ fieldValues bits location ↔ fieldMinimum bits ≤ value ∧ value ≤ fieldMaximum bits := by
  constructor
  · rintro ⟨field, h⟩
    rw [← (encodeField_eq_ok_iff hbits).1 h]
    exact toInt_range field
  · rintro ⟨hlow, hhigh⟩
    have htoInt := toInt_ofInt_of_range (by omega) hlow hhigh
    exact ⟨_, (encodeField_eq_ok_iff hbits).2 htoInt⟩

theorem fieldMinimum_le_fieldMaximum (bits : Nat) : fieldMinimum bits ≤ fieldMaximum bits := by
  have hpos : (0 : Int) < 2 ^ (bits - 1) := by positivity
  rw [fieldMinimum_eq, fieldMaximum_eq]
  omega

theorem isLeast_fieldMinimum (hbits : 1 ≤ bits) :
    IsLeast (fieldValues bits location) (fieldMinimum bits) :=
  ⟨(mem_fieldValues hbits).2 ⟨le_rfl, fieldMinimum_le_fieldMaximum bits⟩,
    fun _ hvalue => ((mem_fieldValues hbits).1 hvalue).1⟩

theorem isGreatest_fieldMaximum (hbits : 1 ≤ bits) :
    IsGreatest (fieldValues bits location) (fieldMaximum bits) :=
  ⟨(mem_fieldValues hbits).2 ⟨fieldMinimum_le_fieldMaximum bits, le_rfl⟩,
    fun _ hvalue => ((mem_fieldValues hbits).1 hvalue).2⟩

/-- Every pattern stands for one value, which it encodes. -/
theorem existsUnique_value (hbits : 1 ≤ bits) {pattern : Nat} (hpattern : pattern < 2 ^ bits) :
    ∃! value : Int, ∃ field,
      encodeField value bits location = .ok field ∧ field.toNat = pattern := by
  have htoNat : (BitVec.ofNat bits pattern).toNat = pattern := by
    rw [BitVec.toNat_ofNat, Nat.mod_eq_of_lt hpattern]
  refine ⟨(BitVec.ofNat bits pattern).toInt, ⟨_, (encodeField_eq_ok_iff hbits).2 rfl, htoNat⟩, ?_⟩
  rintro value ⟨field, hfield, hsame⟩
  have heq : field = BitVec.ofNat bits pattern := BitVec.eq_of_toNat_eq (hsame.trans htoNat.symm)
  rw [← heq]
  exact ((encodeField_eq_ok_iff hbits).1 hfield).symm

/-! ## Values that do not fit -/

theorem encodeField_of_notMem (hbits : 1 ≤ bits) (h : value ∉ fieldValues bits location) :
    encodeField value bits location =
      .error (Diagnostic.plain (.fieldRange value bits) location).failure := by
  rw [mem_fieldValues hbits] at h
  rw [encodeField, if_neg (by omega), if_neg h]

/-- A value beyond a field is of greater magnitude than the width and the bounds of the field. -/
theorem natAbs_le_of_notMem (hbits : 1 ≤ bits) (h : value ∉ fieldValues bits location) :
    ∀ n ∈ (Problem.fieldRange value bits).integers, n.natAbs ≤ value.natAbs := by
  have hwidth : bits - 1 < 2 ^ (bits - 1) := Nat.lt_two_pow_self
  have hbeyond : 2 ^ (bits - 1) ≤ value.natAbs := by
    rw [mem_fieldValues hbits, fieldMinimum, fieldMaximum, Nat.pow_eq] at h
    omega
  have hminimum : (fieldMinimum bits).natAbs = 2 ^ (bits - 1) := by
    rw [fieldMinimum, Int.natAbs_neg, Int.natAbs_natCast, Nat.pow_eq]
  have hmaximum : (fieldMaximum bits).natAbs ≤ 2 ^ (bits - 1) := by
    rw [fieldMaximum, Nat.pow_eq]
    omega
  intro n hn
  simp only [Problem.integers, List.mem_cons, List.not_mem_nil, or_false] at hn
  rcases hn with rfl | rfl | rfl | rfl <;> omega

theorem encodeField_of_short (hbits : 1 ≤ bits) (h : value ∉ fieldValues bits location)
    (hshort : value.natAbs < 10 ^ Numeral.limit) :
    encodeField value bits location =
      .error (.diagnostic (.plain (.fieldRange value bits) location)) := by
  rw [encodeField_of_notMem hbits h, Diagnostic.failure_eq]
  · rintro other heq
    cases heq
    omega
  · intro n hn
    exact (natAbs_le_of_notMem hbits h n hn).trans_lt hshort

/-- The report itself would have to write the value. -/
theorem encodeField_of_long (hbits : 1 ≤ bits) (h : value ∉ fieldValues bits location)
    (hlong : 10 ^ Numeral.limit ≤ value.natAbs) :
    encodeField value bits location = .error (.fault .integerTooLong) := by
  have hexceeds : Numeral.exceedsLimit value = true := Numeral.exceedsLimit_iff.2 hlong
  obtain ⟨n, rfl⟩ := Nat.exists_eq_add_of_le' hbits
  rw [encodeField_of_notMem hbits h]
  simp [Diagnostic.failure, Diagnostic.plain, Problem.integers, hexceeds]

end Field

/-! ## All widths -/

/-- A report that a value is beyond its field: it gives value, width and place, and the bounds that
it names are the least and the greatest of the values that fit. -/
structure Diagnostic.RefusesValue (diagnostic : Diagnostic) (value : Int) (bits : Nat)
    (place : Option Location) : Prop where
  category : diagnostic.category = .fieldRange
  problem : diagnostic.problem = .fieldRange value bits
  location : diagnostic.location = place
  bounds : ∃ least greatest, IsLeast (fieldValues bits place) least ∧
    IsGreatest (fieldValues bits place) greatest ∧
    fieldMinimum bits = least ∧ fieldMaximum bits = greatest ∧
    diagnostic.hint = some ("a ".toList ++ Numeral.decimal bits ++ "-bit field holds ".toList ++
      Numeral.integer least ++ " to ".toList ++ Numeral.integer greatest)

/-- **Fields of every width.** Exactly the values from `-2 ^ (bits - 1)` to `2 ^ (bits - 1) - 1` are
encoded, each as a pattern of which it is the sign extension, and every pattern encodes one value.
Any other value is reported with the bounds of the field, as long as its decimal form is not longer
than the limit. -/
theorem field_exact {bits : Nat} (hbits : 1 ≤ bits) (location : Option Location) :
    (∀ value : Int, (∃ field, encodeField value bits location = .ok field) ↔
      -2 ^ (bits - 1) ≤ value ∧ value ≤ 2 ^ (bits - 1) - 1) ∧
    (∀ value field, encodeField value bits location = .ok field →
      field.toNat < 2 ^ bits ∧ signExtension bits field.toNat = value) ∧
    (∀ pattern < 2 ^ bits, ∃! value : Int, ∃ field,
      encodeField value bits location = .ok field ∧ field.toNat = pattern) ∧
    ∀ value : Int, ¬ (-2 ^ (bits - 1) ≤ value ∧ value ≤ 2 ^ (bits - 1) - 1) →
      (value.natAbs < 10 ^ Numeral.limit → ∃ diagnostic,
        encodeField value bits location = .error (.diagnostic diagnostic) ∧
        diagnostic.RefusesValue value bits location) ∧
      (10 ^ Numeral.limit ≤ value.natAbs →
        encodeField value bits location = .error (.fault .integerTooLong)) := by
  have hmem : ∀ value : Int, value ∈ fieldValues bits location ↔
      -2 ^ (bits - 1) ≤ value ∧ value ≤ 2 ^ (bits - 1) - 1 := by
    intro value
    rw [mem_fieldValues hbits, fieldMinimum_eq, fieldMaximum_eq]
  refine ⟨hmem, ?_, fun pattern => existsUnique_value hbits, ?_⟩
  · intro value field hfield
    rw [signExtension_toNat]
    exact ⟨field.isLt, (encodeField_eq_ok_iff hbits).1 hfield⟩
  · intro value hvalue
    rw [← hmem] at hvalue
    refine ⟨fun hshort => ⟨_, encodeField_of_short hbits hvalue hshort, rfl, rfl, rfl, ?_⟩,
      encodeField_of_long hbits hvalue⟩
    exact ⟨_, _, isLeast_fieldMinimum hbits, isGreatest_fieldMaximum hbits, rfl, rfl, rfl⟩

/-- A field of five bits at its lower bound and below it. -/
theorem field_exact_five :
    (∃ field, encodeField (-16) 5 none = .ok field ∧ signExtension 5 field.toNat = -16) ∧
      ∃ diagnostic, encodeField (-17) 5 none = .error (.diagnostic diagnostic) ∧
        diagnostic.RefusesValue (-17) 5 none := by
  have hbits : 1 ≤ 5 := by decide
  obtain ⟨hfits, hfield, -, hrefused⟩ := field_exact hbits none
  obtain ⟨field, h⟩ := (hfits (-16)).2 (by decide)
  have hpow := Numeral.ten_pow_le
  exact ⟨⟨field, h, (hfield (-16) field h).2⟩, (hrefused (-17) (by decide)).1 (by omega)⟩

/-- A value of 4335 digits does not fit a word, and there is no report about it. -/
theorem unreported_value :
    ¬ (-2 ^ 15 ≤ (16 ^ 3600 - 1 : Int) ∧ (16 ^ 3600 - 1 : Int) ≤ 2 ^ 15 - 1) ∧
      ¬ ∃ diagnostic, encodeField (16 ^ 3600 - 1) 16 none = .error (.diagnostic diagnostic) := by
  have hlimit : Numeral.limit = 43 * 100 := rfl
  have hplaces : 3600 = 36 * 100 := rfl
  have hlong : 10 ^ Numeral.limit < 16 ^ 3600 := by
    rw [hlimit, hplaces, Nat.pow_mul, Nat.pow_mul]
    exact Nat.pow_lt_pow_left (by decide) (by decide)
  have hpow := Numeral.ten_pow_le
  have hbeyond : ∀ n : Nat, 10 ^ Numeral.limit < n →
      ¬ (-2 ^ 15 ≤ (n - 1 : Int) ∧ (n - 1 : Int) ≤ 2 ^ 15 - 1) ∧
        encodeField (n - 1) 16 none = .error (.fault .integerTooLong) := by
    intro n hn
    have hvalue : (n - 1 : Int) ∉ fieldValues 16 none := by
      rw [mem_fieldValues (by decide), fieldMinimum_eq, fieldMaximum_eq]
      omega
    exact ⟨by omega, encodeField_of_long (by decide) hvalue (by omega)⟩
  have hvalue := hbeyond (16 ^ 3600) hlong
  rw [Nat.cast_pow, Nat.cast_ofNat] at hvalue
  refine ⟨hvalue.1, ?_⟩
  rintro ⟨diagnostic, h⟩
  rw [hvalue.2] at h
  cases h

end LittleComputer
