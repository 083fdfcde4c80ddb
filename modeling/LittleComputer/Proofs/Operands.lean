import LittleComputer.Proofs.Fields
import LittleComputer.Proofs.WellFormed
import Mathlib.Tactic

/-! # What the second walk asks of operands

An operator has at most one operand whose value is checked: an immediate or the distance to a
label has to fit a field, a string has to consist of characters of sixteen bits.

* `Mnemonic.checkedField?`: the width and the range of the checked field.
* `Token.Fits`, `Statement.Fits`: an operand, or every operand, satisfies what is asked of it.
* `Refusal`: the diagnostics about operands that do not.
* `FieldOutcome`: the checked operand becomes a field with its value, or is refused.
-/

namespace LittleComputer
set_option autoImplicit false

/-! ## Signatures and fields by format -/

/-- The operands of a format. -/
def Format.signature : Format → List OperandKind
  | operate => [.register, .register, .registerOrImmediate]
  | complement => [.register, .register]
  | branch | call => [.label]
  | base => [.register]
  | goBack | bare => []
  | vector | datum => [.immediate]
  | relative => [.register, .label]
  | indexed => [.register, .register, .immediate]
  | reserve => [.number]
  | characters => [.string]

/-- The width of a field and the values that it holds. -/
structure FieldLimits where
  bits : Nat
  least : Int
  greatest : Int

/-- The field whose value is checked. A trap vector has none: it is cut to its width. -/
def Mnemonic.checkedField? : Mnemonic → Option FieldLimits
  | add | and => some ⟨5, -16, 15⟩
  | ldr | str => some ⟨6, -32, 31⟩
  | br | brn | brz | brp | brnz | brzp | brnp | brnzp | ld | ldi | lea | st | sti =>
    some ⟨9, -256, 255⟩
  | jsr => some ⟨11, -1024, 1023⟩
  | fill => some ⟨16, -32768, 32767⟩
  | _ => none

/-- The field whose value a format checks. -/
def Format.checkedField? : Format → Option FieldLimits
  | operate => some ⟨5, -16, 15⟩
  | indexed => some ⟨6, -32, 31⟩
  | branch | relative => some ⟨9, -256, 255⟩
  | call => some ⟨11, -1024, 1023⟩
  | datum => some ⟨16, -32768, 32767⟩
  | _ => none

namespace Mnemonic

theorem signature_of_format? {mnemonic : Mnemonic} {format : Format}
    (h : mnemonic.format? = some format) : mnemonic.signature = format.signature := by
  cases mnemonic <;> cases h <;> rfl

theorem checkedField?_of_format? {mnemonic : Mnemonic} {format : Format}
    (h : mnemonic.format? = some format) : mnemonic.checkedField? = format.checkedField? := by
  cases mnemonic <;> cases h <;> rfl

/-- The conditions of a branch are those that its letters name. -/
theorem conditions_of_format? {mnemonic : Mnemonic} (h : mnemonic.format? = some .branch) :
    ∃ bits, bits.toNat = mnemonic.letterBits ∧ mnemonic.conditions = .ok bits := by
  cases mnemonic <;> cases h <;> exact ⟨_, by decide, rfl⟩

/-- Only the operators that bound a region and the trap aliases have no format. -/
theorem format?_isSome {mnemonic : Mnemonic} (halias : mnemonic.trapVector? = none)
    (horig : mnemonic ≠ .orig) (hfinish : mnemonic ≠ .finish) :
    ∃ format, mnemonic.format? = some format := by
  cases mnemonic <;> first | exact ⟨_, rfl⟩ | contradiction

theorem eq_fill_of_format? {mnemonic : Mnemonic} (h : mnemonic.format? = some .datum) :
    mnemonic = .fill := by
  cases mnemonic <;> first | rfl | cases h

theorem eq_blkw_of_format? {mnemonic : Mnemonic} (h : mnemonic.format? = some .reserve) :
    mnemonic = .blkw := by
  cases mnemonic <;> first | rfl | cases h

theorem eq_stringz_of_format? {mnemonic : Mnemonic} (h : mnemonic.format? = some .characters) :
    mnemonic = .stringz := by
  cases mnemonic <;> first | rfl | cases h

theorem ne_of_format? {mnemonic : Mnemonic} {format : Format} (h : mnemonic.format? = some format)
    (hreserve : format ≠ .reserve) (hcharacters : format ≠ .characters) :
    mnemonic ≠ .stringz ∧ mnemonic ≠ .blkw := by
  constructor
  · rintro rfl
    exact hcharacters (Option.some.inj h).symm
  · rintro rfl
    exact hreserve (Option.some.inj h).symm

end Mnemonic

/-- The values of a checked field are those that its width holds. -/
theorem fieldLimits_eq {mnemonic : Mnemonic} {field : FieldLimits}
    (h : mnemonic.checkedField? = some field) :
    field.bits ≠ 0 ∧ fieldMinimum field.bits = field.least ∧
      fieldMaximum field.bits = field.greatest := by
  cases mnemonic <;> cases h <;> decide

/-! ## What is asked of an operand -/

section Conditions
variable (table : SymbolTable) (address : Int)

/-- The value that an operand of a statement at `address` puts into a field: that of an immediate,
or the distance from the next address to a label. -/
inductive Token.Denotes (token : Token) : Int → Prop
  | immediate {value : Int} (hkind : token.kind = .immediate)
    (hvalue : token.immediateValue = .ok value) : Denotes token value
  | distance {target : Int} (hkind : token.kind = .label)
    (htarget : table.address? token.content = some target) :
    Denotes token (target - (address + 1))

/-- An operand satisfies what its operator asks: a label is defined, a value that is checked lies in
the range of its field, and the characters of a string have at most sixteen bits. -/
structure Token.Fits (mnemonic : Mnemonic) (token : Token) : Prop where
  defined : token.kind = .label → ∃ target, table.address? token.content = some target
  inRange : ∀ value field, token.Denotes table address value →
    mnemonic.checkedField? = some field → field.least ≤ value ∧ value ≤ field.greatest
  narrow : ∀ text, token.stringText = .ok text → ∀ c ∈ text, c.toNat ≤ 0xFFFF

/-- All operands of a statement at `address` satisfy what its operator asks. -/
def Statement.Fits (statement : Statement) : Prop :=
  ∀ token ∈ statement.operands, token.Fits table address statement.mnemonic

/-- The diagnostic about an operand of a statement at `address` that does not fit. -/
inductive Refusal (statement : Statement) : Diagnostic → Prop
  | undefined {token : Token} (htoken : token ∈ statement.operands) (hkind : token.kind = .label)
    (htarget : table.address? token.content = none) :
    Refusal statement (.plain (.undefinedLabel token.content (table.similar token.content))
      (some token.location))
  | range {token : Token} {value : Int} {field : FieldLimits} (htoken : token ∈ statement.operands)
    (hvalue : token.Denotes table address value)
    (hfield : statement.mnemonic.checkedField? = some field)
    (hrange : ¬ (field.least ≤ value ∧ value ≤ field.greatest)) :
    Refusal statement (.plain (.fieldRange value field.bits) (some token.location))
  | character {token : Token} {text narrow rest : Text} {c : Char}
    (htoken : token ∈ statement.operands) (htext : token.stringText = .ok text)
    (hsplit : text = narrow ++ c :: rest) (hnarrow : ∀ d ∈ narrow, d.toNat ≤ 0xFFFF)
    (hwide : ¬ c.toNat ≤ 0xFFFF) :
    Refusal statement (.plain (.wideCharacter c) (some token.location))

end Conditions

section Outcomes
variable {table : SymbolTable} {address : Int}

/-- Only statements that do not fit are refused. -/
theorem Refusal.not_fits {statement : Statement} {diagnostic : Diagnostic}
    (h : Refusal table address statement diagnostic) : ¬ statement.Fits table address := by
  intro hfits
  cases h with
  | undefined htoken hkind htarget =>
    obtain ⟨target, hdefined⟩ := (hfits _ htoken).defined hkind
    rw [htarget] at hdefined
    cases hdefined
  | range htoken hvalue hfield hrange => exact hrange ((hfits _ htoken).inRange _ _ hvalue hfield)
  | character htoken htext hsplit _ hwide =>
    exact hwide ((hfits _ htoken).narrow _ htext _ (by rw [hsplit]; simp))

/-! ## Operands without a condition -/

theorem Token.stringText_ne_ok {token : Token} {text : Text} (h : token.kind ≠ .string) :
    token.stringText ≠ .ok text := by
  rw [stringText, require, if_neg h]
  intro heq
  cases heq

theorem Token.fits_of_kind {mnemonic : Mnemonic} {token : Token}
    (h : token.kind = .register ∨ token.kind = .number) : token.Fits table address mnemonic := by
  have hlabel : token.kind ≠ .label := by rcases h with h | h <;> rw [h] <;> decide
  have himmediate : token.kind ≠ .immediate := by rcases h with h | h <;> rw [h] <;> decide
  have hstring : token.kind ≠ .string := by rcases h with h | h <;> rw [h] <;> decide
  refine ⟨fun hkind => absurd hkind hlabel, ?_, fun text htext => ?_⟩
  · intro value field hvalue
    cases hvalue with
    | immediate hkind => exact absurd hkind himmediate
    | distance hkind => exact absurd hkind hlabel
  · exact absurd htext (stringText_ne_ok hstring)

theorem Token.fits_of_unchecked {mnemonic : Mnemonic} {token : Token}
    (hkind : token.kind = .immediate) (h : mnemonic.checkedField? = none) :
    token.Fits table address mnemonic := by
  refine ⟨fun hlabel => ?_, fun value field _ hfield => ?_, fun text htext => ?_⟩
  · rw [hkind] at hlabel
    cases hlabel
  · rw [h] at hfield
    cases hfield
  · exact absurd htext (stringText_ne_ok (by rw [hkind]; decide))

/-! ## Operands with a condition -/

theorem Token.Denotes.immediateValue {token : Token} {value : Int}
    (h : token.Denotes table address value) (hkind : token.kind = .immediate) :
    token.immediateValue = .ok value := by
  cases h with
  | immediate _ hvalue => exact hvalue
  | distance hlabel =>
    rw [hkind] at hlabel
    cases hlabel

theorem Token.Denotes.address? {token : Token} {value : Int}
    (h : token.Denotes table address value) (hkind : token.kind = .label) :
    table.address? token.content = some (address + 1 + value) := by
  cases h with
  | immediate himmediate =>
    rw [hkind] at himmediate
    cases himmediate
  | distance _ htarget =>
    rw [htarget]
    exact congrArg some (by omega)

/-- What comes of the operand whose value is checked: a field that holds the value, or a failure. -/
inductive FieldOutcome (table : SymbolTable) (address : Int) (statement : Statement)
    (token : Token) (width : Nat) : Except Failure Word → Prop
  | fits (bits : BitVec width) (h : token.Fits table address statement.mnemonic)
    (hvalue : token.Denotes table address bits.toInt) :
    FieldOutcome table address statement token width (.ok (bits.setWidth 16))
  | refused {diagnostic : Diagnostic} (h : Refusal table address statement diagnostic) :
    FieldOutcome table address statement token width (.error diagnostic.failure)
  | beyond {fault : Fault} (h : ¬ statement.WithinLimits) :
    FieldOutcome table address statement token width (.error (.fault fault))

theorem toInt_ofInt_of_range {bits : Nat} {value : Int} (hbits : bits ≠ 0)
    (hleast : fieldMinimum bits ≤ value) (hgreatest : value ≤ fieldMaximum bits) :
    (BitVec.ofInt bits value).toInt = value := by
  obtain ⟨n, rfl⟩ := Nat.exists_eq_succ_of_ne_zero hbits
  have hpow : Nat.pow 2 n = 2 ^ n := rfl
  have hsucc : 2 ^ n.succ = 2 * 2 ^ n := by rw [Nat.pow_succ, Nat.mul_comm]
  rw [fieldMinimum, Nat.succ_sub_one, hpow] at hleast
  rw [fieldMaximum, Nat.succ_sub_one, hpow] at hgreatest
  rw [BitVec.toInt_ofInt, hsucc]
  apply Int.bmod_eq_of_le <;> omega

theorem encodeField_eq {value : Int} {field : FieldLimits} {location : Option Location}
    {mnemonic : Mnemonic} (h : mnemonic.checkedField? = some field) :
    encodeField value field.bits location =
      if field.least ≤ value ∧ value ≤ field.greatest then .ok (BitVec.ofInt field.bits value)
      else .error (Diagnostic.plain (.fieldRange value field.bits) location).failure := by
  obtain ⟨hbits, hleast, hgreatest⟩ := fieldLimits_eq h
  rw [encodeField, if_neg hbits, hleast, hgreatest]

/-- A value of an operand fits its field or is refused. -/
theorem encodeField_outcome {statement : Statement} {token : Token} {value : Int}
    {field : FieldLimits} {format : Format} (hformat : statement.mnemonic.format? = some format)
    (hfield : format.checkedField? = some field) (htoken : token ∈ statement.operands)
    (hvalue : token.Denotes table address value)
    (hunique : ∀ other, token.Denotes table address other → other = value)
    (hdefined : token.kind = .label → ∃ target, table.address? token.content = some target)
    (hstring : token.kind ≠ .string) :
    FieldOutcome table address statement token field.bits
      ((encodeField value field.bits (some token.location)).bind fun bits =>
        .ok (bits.setWidth 16)) := by
  have hchecked : statement.mnemonic.checkedField? = some field := by
    rw [Mnemonic.checkedField?_of_format? hformat, hfield]
  rw [encodeField_eq hchecked]
  by_cases hrange : field.least ≤ value ∧ value ≤ field.greatest
  · obtain ⟨hbits, hleast, hgreatest⟩ := fieldLimits_eq hchecked
    have hread : (BitVec.ofInt field.bits value).toInt = value := by
      apply toInt_ofInt_of_range hbits
      · rw [hleast]
        exact hrange.1
      · rw [hgreatest]
        exact hrange.2
    rw [if_pos hrange]
    refine .fits _ ⟨hdefined, ?_, fun text htext => absurd htext (Token.stringText_ne_ok hstring)⟩
      (by rw [hread]; exact hvalue)
    intro other otherField hother hotherField
    rw [hchecked] at hotherField
    rw [← Option.some.inj hotherField, hunique other hother]
    exact hrange
  · rw [if_neg hrange]
    exact .refused (.range htoken hvalue hchecked hrange)

theorem Token.immediateBits_outcome {statement : Statement} {token : Token} {field : FieldLimits}
    {format : Format} (hformat : statement.mnemonic.format? = some format)
    (hfield : format.checkedField? = some field) (htoken : token ∈ statement.operands)
    (hlexical : token.IsLexical) (hkind : token.kind = .immediate) :
    FieldOutcome table address statement token field.bits (token.immediateBits field.bits) := by
  unfold immediateBits
  rcases hlexical.immediateValue hkind with ⟨value, hvalue, -⟩ | ⟨fault, hfault, hlimits⟩
  · rw [hvalue]
    refine encodeField_outcome hformat hfield htoken (.immediate hkind hvalue) ?_ ?_ ?_
    · intro other hother
      have hsame := hother.immediateValue hkind
      rw [hvalue] at hsame
      exact (Except.ok.inj hsame).symm
    · intro hlabel
      rw [hkind] at hlabel
      cases hlabel
    · rw [hkind]
      decide
  · rw [hfault]
    exact .beyond fun hwithin => hlimits (hwithin.1 token htoken)

theorem Token.offsetBits_outcome {statement : Statement} {token : Token} {field : FieldLimits}
    {format : Format} (hformat : statement.mnemonic.format? = some format)
    (hfield : format.checkedField? = some field) (htoken : token ∈ statement.operands)
    (hkind : token.kind = .label) :
    FieldOutcome table address statement token field.bits
      (token.offsetBits table (address + 1) field.bits) := by
  unfold offsetBits labelAddress
  rw [labelName_eq hkind]
  cases htarget : table.address? token.content with
  | none =>
    simp only [bind, Except.bind, htarget]
    exact .refused (.undefined htoken hkind htarget)
  | some target =>
    simp only [bind, Except.bind, htarget]
    refine encodeField_outcome hformat hfield htoken (.distance hkind htarget) ?_ ?_ ?_
    · intro other hother
      have hsame := hother.address? hkind
      rw [htarget] at hsame
      have hsame := Option.some.inj hsame
      omega
    · exact fun _ => ⟨target, htarget⟩
    · rw [hkind]
      decide

/-- The characters of a string are encoded up to the first that is too wide. -/
theorem Statement.characterWords_outcome (location : Location) (text : Text) :
    (characterWords location text = .ok (text.map fun c => BitVec.ofNat 16 c.toNat) ∧
        ∀ c ∈ text, c.toNat ≤ 0xFFFF) ∨
      ∃ narrow c rest, text = narrow ++ c :: rest ∧ (∀ d ∈ narrow, d.toNat ≤ 0xFFFF) ∧
        ¬ c.toNat ≤ 0xFFFF ∧
        characterWords location text =
          .error (Diagnostic.plain (.wideCharacter c) (some location)).failure := by
  induction text with
  | nil => exact .inl ⟨rfl, by simp⟩
  | cons c text ih =>
    by_cases hnarrow : c.toNat ≤ 0xFFFF
    · rw [characterWords, if_pos hnarrow]
      rcases ih with ⟨hwords, hall⟩ | ⟨narrow, d, rest, rfl, hfront, hwide, herror⟩
      · refine .inl ⟨by rw [hwords]; rfl, ?_⟩
        intro d hd
        rcases List.mem_cons.1 hd with rfl | hd
        · exact hnarrow
        · exact hall d hd
      · refine .inr ⟨c :: narrow, d, rest, rfl, ?_, hwide, by rw [herror]; rfl⟩
        intro e he
        rcases List.mem_cons.1 he with rfl | he
        · exact hnarrow
        · exact hfront e he
    · rw [characterWords, if_neg hnarrow]
      exact .inr ⟨[], c, text, rfl, by simp, hnarrow, rfl⟩

end Outcomes

end LittleComputer
