import LittleComputer.Text

/-! # Kinds of tokens and of operands

`TokenKind` sorts the tokens of a source; `OperandKind` is what an operator asks for in one of its
places. Only the last operand of an addition or conjunction leaves a choice of two token kinds. -/

namespace LittleComputer
set_option autoImplicit false

inductive TokenKind where
  | operator
  | register
  | label
  | immediate
  | number
  | string
  deriving DecidableEq, Repr

namespace TokenKind

/-- The kind as a word of a sentence. -/
def name : TokenKind → Text
  | operator => "operator".toList
  | register => "register".toList
  | label => "label".toList
  | immediate => "immediate".toList
  | number => "number".toList
  | string => "string".toList

/-- The kind as a heading. -/
def title (kind : TokenKind) : Text :=
  kind.name.map Char.toUpper

/-- The letter that marks the kind in renderings. -/
def tag : TokenKind → Char
  | operator => 'O'
  | register => 'R'
  | label => 'L'
  | immediate => 'I'
  | number => 'N'
  | string => 'S'

end TokenKind

/-- What an operator asks for in one operand place. -/
inductive OperandKind where
  | register
  | immediate
  | registerOrImmediate
  | number
  | label
  | string
  deriving DecidableEq, Repr

namespace OperandKind

/-- The kind as messages show it. -/
def name : OperandKind → Text
  | register => "register".toList
  | immediate => "immediate".toList
  | registerOrImmediate => "register or immediate".toList
  | number => "number".toList
  | label => "label".toList
  | string => "string".toList

/-- The token kinds that may fill the place. -/
def accepts : OperandKind → TokenKind → Bool
  | register, .register => true
  | immediate, .immediate => true
  | registerOrImmediate, .register => true
  | registerOrImmediate, .immediate => true
  | number, .number => true
  | label, .label => true
  | string, .string => true
  | _, _ => false

end OperandKind

end LittleComputer
