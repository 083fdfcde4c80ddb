import LittleComputer.Mnemonic
import LittleComputer.Token

/-! # Statements

One operator with its operands and the labels in front of it. Two statements agree when labels,
operator and operands do; the place of the operator only serves messages. -/

namespace LittleComputer
set_option autoImplicit false

/-- An operator, its operands and the labels attached to it. -/
structure Statement where
  labels : List Text
  mnemonic : Mnemonic
  operands : List Token
  location : Option Location
  deriving DecidableEq, Repr

namespace Statement

/-- True when two lists of tokens agree pairwise. -/
def operandsAgree : List Token → List Token → Bool
  | [], [] => true
  | a :: as, b :: bs => a.agrees b && operandsAgree as bs
  | _, _ => false

/-- True when two statements have the same labels, operator and operands. -/
def agrees (a b : Statement) : Bool :=
  a.labels == b.labels && a.mnemonic == b.mnemonic && operandsAgree a.operands b.operands

/-- The statement as one line, such as `[LOOP] <ADD> R:R1, R:R1, I:#-1`. Labels and operands are
left out when there are none. -/
def text (statement : Statement) : Text :=
  let labels :=
    if statement.labels.isEmpty then []
    else ["[".toList ++ Text.join ", ".toList statement.labels ++ "]".toList]
  let operands :=
    if statement.operands.isEmpty then []
    else [Text.join ", ".toList (statement.operands.map Token.text)]
  Text.join " ".toList
    (labels ++ ["<".toList ++ statement.mnemonic.spelling ++ ">".toList] ++ operands)

def lines (statements : List Statement) : Text :=
  Text.unlines (statements.map text)

end Statement

end LittleComputer
