import LittleComputer.Encoding
import Mathlib.Tactic

/-! # The fields of an instruction word

A table lists, for every operator that makes a single word, the parts of that word from the top.

* `Statement.parts`: the table.
* `Reads`: the sixteen bits of a word, read part by part, mean what the table says.
* `Packs`: a word is put together from fields that mean what the table says.
* `Packs.reads`: what is packed is read back.
* `Statement.Makes`: the numbers that a statement stands for when nothing bounds them.
  `Packs.combines` says that a packed word is such a number.
-/

namespace LittleComputer
set_option autoImplicit false

/-! ## The table -/

/-- What the bits of a part mean. Operands count from zero. -/
inductive Meaning where
  /-- Bits that belong to the operator. -/
  | fixed (value : Nat)
  /-- The number of a register. -/
  | register (operand : Nat)
  /-- An immediate in two's complement. -/
  | signed (operand : Nat)
  /-- The distance from the next address to a label in two's complement. -/
  | distance (operand : Nat)
  /-- The low byte of an immediate. -/
  | vector (operand : Nat)

/-- A part of a word. -/
structure Part where
  width : Nat
  meaning : Meaning

/-- The conditions of a branch by the letters behind `BR`, all three where there is none. -/
def Mnemonic.letterBits (mnemonic : Mnemonic) : Nat :=
  let letters := mnemonic.spelling.drop 2
  let bit := fun letter => if letters = [] ∨ letter ∈ letters then 1 else 0
  4 * bit 'N' + 2 * bit 'Z' + bit 'P'

namespace Statement

/-- The parts behind the opcode. -/
def operandParts (statement : Statement) : Format → List Part
  | .operate =>
    if statement.operands[2]?.map Token.kind = some .immediate then
      [⟨3, .register 0⟩, ⟨3, .register 1⟩, ⟨1, .fixed 1⟩, ⟨5, .signed 2⟩]
    else [⟨3, .register 0⟩, ⟨3, .register 1⟩, ⟨3, .fixed 0⟩, ⟨3, .register 2⟩]
  | .complement => [⟨3, .register 0⟩, ⟨3, .register 1⟩, ⟨6, .fixed 0b111111⟩]
  | .branch => [⟨3, .fixed statement.mnemonic.letterBits⟩, ⟨9, .distance 0⟩]
  | .base => [⟨3, .fixed 0⟩, ⟨3, .register 0⟩, ⟨6, .fixed 0⟩]
  | .goBack => [⟨3, .fixed 0⟩, ⟨3, .fixed 7⟩, ⟨6, .fixed 0⟩]
  | .call => [⟨1, .fixed 1⟩, ⟨11, .distance 0⟩]
  | .bare => [⟨12, .fixed 0⟩]
  | .vector => [⟨4, .fixed 0⟩, ⟨8, .vector 0⟩]
  | .relative => [⟨3, .register 0⟩, ⟨9, .distance 1⟩]
  | .indexed => [⟨3, .register 0⟩, ⟨3, .register 1⟩, ⟨6, .signed 2⟩]
  | .datum | .reserve | .characters => []

/-- The parts of the word of a statement. There are none for statements that make no word or
several. -/
def parts (statement : Statement) : List Part :=
  let row := fun opcode format => ⟨4, .fixed opcode⟩ :: statement.operandParts format
  match statement.mnemonic with
  | .add => row 0b0001 .operate
  | .and => row 0b0101 .operate
  | .not => row 0b1001 .complement
  | .br | .brn | .brz | .brp | .brnz | .brzp | .brnp | .brnzp => row 0b0000 .branch
  | .jmp => row 0b1100 .base
  | .ret => row 0b1100 .goBack
  | .jsr => row 0b0100 .call
  | .jsrr => row 0b0100 .base
  | .rti => row 0b1000 .bare
  | .trap => row 0b1111 .vector
  | .ld => row 0b0010 .relative
  | .ldi => row 0b1010 .relative
  | .lea => row 0b1110 .relative
  | .st => row 0b0011 .relative
  | .sti => row 0b1011 .relative
  | .ldr => row 0b0110 .indexed
  | .str => row 0b0111 .indexed
  | .fill => [⟨16, .signed 0⟩]
  | _ => []

/-- Every instruction that is no alias has a row in the table. -/
theorem parts_ne_nil {statement : Statement} (hpseudo : statement.mnemonic.isPseudo = false)
    (halias : statement.mnemonic.trapVector? = none) : statement.parts ≠ [] := by
  unfold parts
  cases hmnemonic : statement.mnemonic <;> rw [hmnemonic] at hpseudo halias <;>
    first | exact List.cons_ne_nil _ _ | contradiction

theorem parts_of_blkw {statement : Statement} (h : statement.mnemonic = .blkw) :
    statement.parts = [] := by
  unfold parts
  rw [h]

theorem parts_of_stringz {statement : Statement} (h : statement.mnemonic = .stringz) :
    statement.parts = [] := by
  unfold parts
  rw [h]

theorem parts_of_format? {statement : Statement} {format : Format}
    (h : statement.mnemonic.format? = some format) (hdatum : format ≠ .datum)
    (hreserve : format ≠ .reserve) (hcharacters : format ≠ .characters) :
    ∃ opcode : BitVec 4, statement.mnemonic.opcodeBits = opcode.setWidth 16 <<< 12 ∧
      statement.parts = ⟨4, .fixed opcode.toNat⟩ :: statement.operandParts format := by
  refine ⟨statement.mnemonic.opcode?.getD 0, rfl, ?_⟩
  unfold parts
  cases hmnemonic : statement.mnemonic <;> rw [hmnemonic] at h <;> cases h <;>
    first | rfl | contradiction

end Statement

/-! ## Reading a word -/

section Words
variable (table : SymbolTable) (address : Int) (operands : List Token)

/-- The bits of a part of the word at `address` are what the part means. -/
def Meaning.Holds {width : Nat} (bits : BitVec width) : Meaning → Prop
  | fixed value => bits.toNat = value
  | register operand => ∃ token, operands[operand]? = some token ∧
      token.registerNumber = .ok bits.toNat
  | signed operand => ∃ token, operands[operand]? = some token ∧
      token.immediateValue = .ok bits.toInt
  | distance operand => ∃ token name, operands[operand]? = some token ∧
      token.labelName = .ok name ∧ table.address? name = some (address + 1 + bits.toInt)
  | vector operand => ∃ token value, operands[operand]? = some token ∧
      token.immediateValue = .ok value ∧ (bits.toNat : Int) = value % 256

/-- The low `high` bits of a word are exactly the parts, and each means what it should. -/
def Reads (word : Word) : Nat → List Part → Prop
  | high, [] => high = 0
  | high, part :: rest => part.width ≤ high ∧
      part.meaning.Holds table address operands
        (word.extractLsb' (high - part.width) part.width) ∧
      Reads word (high - part.width) rest

/-! ## Putting a word together -/

/-- The low `high` bits of a word are put together from fields that fill the parts. -/
inductive Packs : Nat → List Part → Word → Prop
  | nil : Packs 0 [] 0#16
  | cons {low width : Nat} {meaning : Meaning} {rest : List Part} {word : Word}
    (bits : BitVec width) (hbits : meaning.Holds table address operands bits)
    (hrest : Packs low rest word) :
    Packs (low + width) (⟨width, meaning⟩ :: rest) (bits.setWidth 16 <<< low ||| word)

/-- A number is made of fields that fill the parts: each is shifted to its place, and all are or-ed.
Nothing bounds the number. -/
inductive Combines : Nat → List Part → Nat → Prop
  | nil : Combines 0 [] 0
  | cons {low width : Nat} {meaning : Meaning} {rest : List Part} {number : Nat}
    (bits : BitVec width) (hbits : meaning.Holds table address operands bits)
    (hrest : Combines low rest number) :
    Combines (low + width) (⟨width, meaning⟩ :: rest) (bits.toNat <<< low ||| number)

end Words

/-- What is made of a statement at `address`, as numbers without a bound: the fields of the table in
one, zeros, or the code points of a string and a zero. -/
inductive Statement.Makes (table : SymbolTable) (address : Int) (statement : Statement) :
    List Nat → Prop
  | single {number : Nat} (h : Combines table address statement.operands 16 statement.parts number) :
    Makes table address statement [number]
  | zeros {count : Nat} (hblkw : statement.mnemonic = .blkw)
    (hcount : statement.footprint = .ok count) :
    Makes table address statement (List.replicate count 0)
  | characters {token : Token} {text : Text} (hstringz : statement.mnemonic = .stringz)
    (htoken : statement.operands = [token]) (htext : token.stringText = .ok text) :
    Makes table address statement (text.map Char.toNat ++ [0])

section Packs
variable {table : SymbolTable} {address : Int} {operands : List Token} {high : Nat}
  {parts : List Part} {word : Word}

/-- A word has no bits above its parts. -/
theorem Packs.getLsbD_of_le (h : Packs table address operands high parts word) {i : Nat}
    (hi : high ≤ i) : word.getLsbD i = false := by
  induction h with
  | nil => simp
  | @cons low width meaning rest word bits _ _ ih =>
    have hfield : (bits.setWidth 16 <<< low).getLsbD i = false := by
      rw [BitVec.getLsbD_shiftLeft, BitVec.getLsbD_setWidth,
        BitVec.getLsbD_of_ge bits (i - low) (by omega)]
      simp
    rw [BitVec.getLsbD_or, hfield, ih (by omega)]
    rfl

/-- What is packed is read back, also behind other bits. -/
theorem Packs.reads (h : Packs table address operands high parts word) (hhigh : high ≤ 16)
    {whole : Word} (hwhole : ∀ i < high, whole.getLsbD i = word.getLsbD i) :
    Reads table address operands whole high parts := by
  induction h with
  | nil => rfl
  | @cons low width meaning rest word bits hbits hrest ih =>
    have hfield : whole.extractLsb' low width = bits := by
      apply BitVec.eq_of_getLsbD_eq
      intro i hi
      rw [BitVec.getLsbD_extractLsb', hwhole (low + i) (by omega), BitVec.getLsbD_or,
        hrest.getLsbD_of_le (by omega), BitVec.getLsbD_shiftLeft, BitVec.getLsbD_setWidth]
      have hlow : low + i < 16 := by omega
      have hi16 : i < 16 := by omega
      simp [hi, hlow, hi16]
    refine ⟨Nat.le_add_left width low, ?_, ?_⟩
    · rw [Nat.add_sub_cancel, hfield]
      exact hbits
    · rw [Nat.add_sub_cancel]
      apply ih (by omega)
      intro i hi
      rw [hwhole i (by omega), BitVec.getLsbD_or, BitVec.getLsbD_shiftLeft]
      simp [hi]

/-- Putting a word together cuts nothing off. -/
theorem Packs.combines (h : Packs table address operands high parts word) (hhigh : high ≤ 16) :
    Combines table address operands high parts word.toNat := by
  induction h with
  | nil => exact .nil
  | @cons low width meaning rest word bits hbits hrest ih =>
    have hwidth : bits.toNat < 2 ^ 16 :=
      bits.isLt.trans_le (Nat.pow_le_pow_right (by decide) (by omega))
    have hshifted : bits.toNat <<< low < 2 ^ 16 :=
      calc bits.toNat <<< low = bits.toNat * 2 ^ low := Nat.shiftLeft_eq _ _
        _ < 2 ^ width * 2 ^ low := Nat.mul_lt_mul_of_pos_right bits.isLt (Nat.two_pow_pos low)
        _ = 2 ^ (width + low) := (Nat.pow_add _ _ _).symm
        _ ≤ 2 ^ 16 := Nat.pow_le_pow_right (by decide) (by omega)
    have hword : (bits.setWidth 16 <<< low ||| word).toNat = bits.toNat <<< low ||| word.toNat := by
      rw [BitVec.toNat_or, BitVec.toNat_shiftLeft, BitVec.toNat_setWidth, Nat.mod_eq_of_lt hwidth,
        Nat.mod_eq_of_lt hshifted]
    rw [hword]
    exact .cons bits hbits (ih (by omega))

theorem Packs.of_eq {other : Word} (h : Packs table address operands high parts word)
    (heq : other = word) : Packs table address operands high parts other :=
  heq ▸ h

end Packs

end LittleComputer
