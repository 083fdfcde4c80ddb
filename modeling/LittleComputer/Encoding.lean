import LittleComputer.Layout
import LittleComputer.SymbolTable.Similar

/-! # Encoding

The second walk over the statements turns each into words. The format of an operator says how its
operands fill the word:

| Format       | Operators           | Bits 11 to 0                                  |
|--------------|---------------------|-----------------------------------------------|
| `operate`    | ADD AND             | `ddd sss 000 sss` or `ddd sss 1 iiiii`        |
| `complement` | NOT                 | `ddd sss 111111`                              |
| `branch`     | BR and its variants | `nzp` and nine bits of offset                 |
| `base`       | JMP JSRR            | `000 bbb 000000`                              |
| `goBack`     | RET                 | `000 111 000000`                              |
| `call`       | JSR                 | `1` and eleven bits of offset                 |
| `bare`       | RTI                 | zeros                                         |
| `vector`     | TRAP                | `0000` and eight bits of the vector           |
| `relative`   | LD LDI LEA ST STI   | `rrr` and nine bits of offset                 |
| `indexed`    | LDR STR             | `rrr bbb` and six bits of offset              |

Offsets to labels count from the address behind the instruction. The last three formats make data:
`datum` a word, `reserve` zeros, `characters` the code points of a string and a zero. -/

namespace LittleComputer
set_option autoImplicit false

/-! ## Fields -/

/-- The two's complement field of a value. A value beyond the range of the field is an error at
the given place. -/
def encodeField (value : Int) (bits : Nat) (location : Option Location) :
    Except Failure (BitVec bits) :=
  if bits = 0 then .error (.fault .emptyField)
  else if fieldMinimum bits ≤ value ∧ value ≤ fieldMaximum bits then .ok (BitVec.ofInt bits value)
  else .error (Diagnostic.plain (.fieldRange value bits) location).failure

/-! ## Formats -/

/-- How an operator and its operands fill words. -/
inductive Format where
  | operate
  | complement
  | branch
  | base
  | goBack
  | call
  | bare
  | vector
  | relative
  | indexed
  | datum
  | reserve
  | characters
  deriving DecidableEq, Repr

namespace Mnemonic

/-- The format of an operator. The operators that bound a region have none, nor have trap aliases,
which are traps by the time a statement is complete. -/
def format? : Mnemonic → Option Format
  | add | and => some .operate
  | not => some .complement
  | br | brn | brz | brp | brnz | brzp | brnp | brnzp => some .branch
  | jmp | jsrr => some .base
  | ret => some .goBack
  | jsr => some .call
  | rti => some .bare
  | trap => some .vector
  | ld | ldi | lea | st | sti => some .relative
  | ldr | str => some .indexed
  | fill => some .datum
  | blkw => some .reserve
  | stringz => some .characters
  | orig | finish | getc | out | puts | input | putsp | halt => none

def isEncodable (mnemonic : Mnemonic) : Bool :=
  mnemonic.format?.isSome

/-- The opcode at its place in a word. -/
def opcodeBits (mnemonic : Mnemonic) : Word :=
  (mnemonic.opcode?.getD 0).setWidth 16 <<< 12

/-- The conditions a branch tests. -/
def conditions (mnemonic : Mnemonic) : Except Failure (BitVec 3) :=
  match mnemonic.conditions? with
  | some bits => .ok bits
  | none => .error (.fault (.notBranch mnemonic))

end Mnemonic

/-! ## Operands -/

namespace Token

/-- The number of a register at a place in a word. -/
def registerBits (token : Token) (place : Nat) : Except Failure Word := do
  let number ← token.registerNumber
  .ok (BitVec.ofNat 16 number <<< place)

/-- The value of an immediate as a field in the low bits of a word. -/
def immediateBits (token : Token) (bits : Nat) : Except Failure Word := do
  let value ← token.immediateValue
  let field ← encodeField value bits (some token.location)
  .ok (field.setWidth 16)

/-- The address of the label that a token names. -/
def labelAddress (token : Token) (table : SymbolTable) : Except Failure Int := do
  let name ← token.labelName
  match table.address? name with
  | some address => .ok address
  | none =>
    .error
      (Diagnostic.plain (.undefinedLabel name (table.similar name)) (some token.location)).failure

/-- The distance from an address to a label as a field in the low bits of a word. -/
def offsetBits (token : Token) (table : SymbolTable) (origin : Int) (bits : Nat) :
    Except Failure Word := do
  let address ← token.labelAddress table
  let field ← encodeField (address - origin) bits (some token.location)
  .ok (field.setWidth 16)

end Token

namespace Statement

def oneOperand (statement : Statement) : Except Failure Token :=
  match statement.operands with
  | [a] => .ok a
  | _ => .error (.fault .operandCount)

def twoOperands (statement : Statement) : Except Failure (Token × Token) :=
  match statement.operands with
  | [a, b] => .ok (a, b)
  | _ => .error (.fault .operandCount)

def threeOperands (statement : Statement) : Except Failure (Token × Token × Token) :=
  match statement.operands with
  | [a, b, c] => .ok (a, b, c)
  | _ => .error (.fault .operandCount)

/-! ## Statements -/

def maxBlock : Nat := 0x7FFFFFFFFFFFFFFF

/-- The words of the characters of a string, placed at `location`. -/
def characterWords (location : Location) : Text → Except Failure (List Word)
  | [] => .ok []
  | c :: rest =>
    if c.toNat ≤ 0xFFFF then do
      let words ← characterWords location rest
      .ok (BitVec.ofNat 16 c.toNat :: words)
    else .error (Diagnostic.plain (.wideCharacter c) (some location)).failure

/-- The words of a statement in a format, where `next` is the address behind an instruction. -/
def encodeAs (format : Format) (table : SymbolTable) (statement : Statement) (next : Int) :
    Except Failure (List Word) :=
  let opcode := statement.mnemonic.opcodeBits
  match format with
  | .operate => do
    let (target, left, right) ← statement.threeOperands
    let targetBits ← target.registerBits 9
    let leftBits ← left.registerBits 6
    if right.kind = .immediate then
      let value ← right.immediateBits 5
      .ok [opcode ||| targetBits ||| leftBits ||| 0x20#16 ||| value]
    else
      let rightBits ← right.registerBits 0
      .ok [opcode ||| targetBits ||| leftBits ||| rightBits]
  | .complement => do
    let (target, source) ← statement.twoOperands
    let targetBits ← target.registerBits 9
    let sourceBits ← source.registerBits 6
    .ok [opcode ||| targetBits ||| sourceBits ||| 0x3F#16]
  | .branch => do
    let label ← statement.oneOperand
    let conditions ← statement.mnemonic.conditions
    let offset ← label.offsetBits table next 9
    .ok [opcode ||| conditions.setWidth 16 <<< 9 ||| offset]
  | .base => do
    let base ← statement.oneOperand
    let baseBits ← base.registerBits 6
    .ok [opcode ||| baseBits]
  | .goBack => .ok [opcode ||| 7#16 <<< 6]
  | .call => do
    let label ← statement.oneOperand
    let offset ← label.offsetBits table next 11
    .ok [opcode ||| 0x800#16 ||| offset]
  | .bare => .ok [opcode]
  | .vector => do
    let vector ← statement.oneOperand
    let value ← vector.immediateValue
    .ok [opcode ||| (BitVec.ofInt 8 value).setWidth 16]
  | .relative => do
    let (register, label) ← statement.twoOperands
    let registerBits ← register.registerBits 9
    let offset ← label.offsetBits table next 9
    .ok [opcode ||| registerBits ||| offset]
  | .indexed => do
    let (register, base, displacement) ← statement.threeOperands
    let registerBits ← register.registerBits 9
    let baseBits ← base.registerBits 6
    let offset ← displacement.immediateBits 6
    .ok [opcode ||| registerBits ||| baseBits ||| offset]
  | .datum => do
    let value ← statement.oneOperand
    let word ← value.immediateBits 16
    .ok [word]
  | .reserve => do
    let words ← statement.footprint
    if words ≤ maxBlock then .ok (List.replicate words 0#16)
    else .error (.fault .blockTooLarge)
  | .characters => do
    let token ← statement.oneOperand
    let text ← token.stringText
    let words ← characterWords token.location text
    .ok (words ++ [0#16])

/-- The words of a statement, where `next` is the address behind an instruction. -/
def encode (table : SymbolTable) (statement : Statement) (next : Int) :
    Except Failure (List Word) :=
  match statement.mnemonic.format? with
  | some format => statement.encodeAs format table next
  | none =>
    .error (Diagnostic.plain (.noEncoding statement.mnemonic) statement.location).failure

end Statement

/-! ## Blocks -/

/-- The words of one statement and the address of the first of them. -/
structure Block where
  address : Int
  statement : Statement
  words : List Word
  deriving DecidableEq, Repr

namespace Block

/-- The blocks of the statements, where `counter` is the address of the first statement, if it
stands in a region. -/
def encodeFrom (table : SymbolTable) (counter : Option Int) :
    List Statement → Except Failure (List Block)
  | [] => .ok []
  | statement :: rest =>
    match statement.mnemonic with
    | .orig => do
      let address ← statement.origin
      encodeFrom table (some address) rest
    | .finish => encodeFrom table none rest
    | _ =>
      match counter with
      | none =>
        .error (Diagnostic.plain (.outsideRegion .encoding statement) statement.location).failure
      | some address => do
        let words ← statement.encode table (address + 1)
        let size ← statement.footprint
        let blocks ← encodeFrom table (some (address + size)) rest
        .ok (⟨address, statement, words⟩ :: blocks)

/-- The blocks of a program whose labels are in the table. -/
def ofStatements (table : SymbolTable) (statements : List Statement) :
    Except Failure (List Block) :=
  encodeFrom table none statements

def allWords (blocks : List Block) : List Word :=
  blocks.flatMap Block.words

end Block

end LittleComputer
