import LittleComputer.Numeral
import LittleComputer.Token.Kind

/-! # Mnemonics

Every operator of the assembly language, and the tables that go with it: the canonical spelling,
the operands it takes, the opcode in the top four bits of its word, the vector behind a trap alias
and the condition bits of a branch. -/

namespace LittleComputer
set_option autoImplicit false

/-! ## Upper case within ASCII

Operators are compared in upper case. A character whose full upper-case form lies in ASCII takes
that form, which may be several letters (`ﬆ` becomes `ST`). All other characters have an
upper-case form outside ASCII and stand for themselves: no operator contains either. -/

namespace Text

/-- The upper-case form of a character, as far as it lies in ASCII. -/
def upperChar (c : Char) : Text :=
  if c.toNat < 128 then [c.toUpper]
  else match c.toNat with
    | 0xDF => ['S', 'S']
    | 0x131 => ['I']
    | 0x17F => ['S']
    | 0xFB00 => ['F', 'F']
    | 0xFB01 => ['F', 'I']
    | 0xFB02 => ['F', 'L']
    | 0xFB03 => ['F', 'F', 'I']
    | 0xFB04 => ['F', 'F', 'L']
    | 0xFB05 => ['S', 'T']
    | 0xFB06 => ['S', 'T']
    | _ => [c]

def upper (text : Text) : Text :=
  text.flatMap upperChar

end Text

/-! ## Operators -/

/-- The operators. The first five steer the assembler and have no opcode, the last six are short
for a trap with a fixed vector. -/
inductive Mnemonic where
  | orig | finish | fill | blkw | stringz
  | add | and | not
  | br | brn | brz | brp | brnz | brzp | brnp | brnzp
  | jmp | jsr | jsrr | ret | rti | trap
  | ld | ldi | ldr | lea | st | sti | str
  | getc | out | puts | input | putsp | halt
  deriving DecidableEq, Repr

namespace Mnemonic

def all : List Mnemonic :=
  [orig, finish, fill, blkw, stringz, add, and, not, br, brn, brz, brp, brnz, brzp, brnp, brnzp,
    jmp, jsr, jsrr, ret, rti, trap, ld, ldi, ldr, lea, st, sti, str, getc, out, puts, input, putsp,
    halt]

/-- The canonical spelling, in capitals. -/
def spelling : Mnemonic → Text
  | orig => ".ORIG".toList
  | finish => ".END".toList
  | fill => ".FILL".toList
  | blkw => ".BLKW".toList
  | stringz => ".STRINGZ".toList
  | add => "ADD".toList
  | and => "AND".toList
  | not => "NOT".toList
  | br => "BR".toList
  | brn => "BRN".toList
  | brz => "BRZ".toList
  | brp => "BRP".toList
  | brnz => "BRNZ".toList
  | brzp => "BRZP".toList
  | brnp => "BRNP".toList
  | brnzp => "BRNZP".toList
  | jmp => "JMP".toList
  | jsr => "JSR".toList
  | jsrr => "JSRR".toList
  | ret => "RET".toList
  | rti => "RTI".toList
  | trap => "TRAP".toList
  | ld => "LD".toList
  | ldi => "LDI".toList
  | ldr => "LDR".toList
  | lea => "LEA".toList
  | st => "ST".toList
  | sti => "STI".toList
  | str => "STR".toList
  | getc => "GETC".toList
  | out => "OUT".toList
  | puts => "PUTS".toList
  | input => "IN".toList
  | putsp => "PUTSP".toList
  | halt => "HALT".toList

/-- The mnemonic of a spelling in any case. -/
def ofSpelling? (spelled : Text) : Option Mnemonic :=
  let capitals := Text.upper spelled
  all.find? fun mnemonic => mnemonic.spelling == capitals

/-- All spellings in the order of their code points. -/
def spellings : List Text :=
  (all.map spelling).mergeSort Text.atMost

/-- True for the operators that start with a dot. -/
def isPseudo : Mnemonic → Bool
  | orig | finish | fill | blkw | stringz => true
  | _ => false

/-- The operands that follow the operator, in order. -/
def signature : Mnemonic → List OperandKind
  | orig | fill | trap => [.immediate]
  | blkw => [.number]
  | stringz => [.string]
  | add | and => [.register, .register, .registerOrImmediate]
  | not => [.register, .register]
  | br | brn | brz | brp | brnz | brzp | brnp | brnzp | jsr => [.label]
  | jmp | jsrr => [.register]
  | ld | ldi | lea | st | sti => [.register, .label]
  | ldr | str => [.register, .register, .immediate]
  | finish | ret | rti | getc | out | puts | input | putsp | halt => []

/-- The top four bits of an instruction. -/
def opcode? : Mnemonic → Option (BitVec 4)
  | add => some 0b0001#4
  | and => some 0b0101#4
  | not => some 0b1001#4
  | br | brn | brz | brp | brnz | brzp | brnp | brnzp => some 0b0000#4
  | jmp | ret => some 0b1100#4
  | jsr | jsrr => some 0b0100#4
  | rti => some 0b1000#4
  | trap => some 0b1111#4
  | ld => some 0b0010#4
  | ldi => some 0b1010#4
  | ldr => some 0b0110#4
  | lea => some 0b1110#4
  | st => some 0b0011#4
  | sti => some 0b1011#4
  | str => some 0b0111#4
  | _ => none

/-- The vector of the trap that an alias stands for. -/
def trapVector? : Mnemonic → Option Nat
  | getc => some 0x20
  | out => some 0x21
  | puts => some 0x22
  | input => some 0x23
  | putsp => some 0x24
  | halt => some 0x25
  | _ => none

/-- The conditions a branch tests, as the bits negative, zero, positive. A branch without letters
tests all three. -/
def conditions? : Mnemonic → Option (BitVec 3)
  | br | brnzp => some 0b111#3
  | brn => some 0b100#3
  | brz => some 0b010#3
  | brp => some 0b001#3
  | brnz => some 0b110#3
  | brzp => some 0b011#3
  | brnp => some 0b101#3
  | _ => none

def isBranch (mnemonic : Mnemonic) : Bool :=
  mnemonic.conditions?.isSome

/-- A summary of the operands and the opcode. -/
def summary (mnemonic : Mnemonic) : Text :=
  let kinds := Text.join ", ".toList (mnemonic.signature.map OperandKind.name)
  match mnemonic.opcode? with
  | none => "InstructionInfo([".toList ++ kinds ++ "])".toList
  | some code =>
    "InstructionInfo([".toList ++ kinds ++ "], opcode=".toList ++ binaryDigits code ++ ")".toList

end Mnemonic

end LittleComputer
