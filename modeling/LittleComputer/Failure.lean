import LittleComputer.Diagnostic

/-! # Failures

Work on a program ends early either with a `Diagnostic` about the program or with a `Fault`, a
breach of the limits and shapes the steps rely on. Sources of ordinary size never cause a fault:
faults come from statements made by hand and from numbers beyond all bounds. -/

namespace LittleComputer
set_option autoImplicit false

/-- A breach of what a step relies on. -/
inductive Fault where
  /-- A token is read as a kind that it does not have. -/
  | wrongKind (wanted : TokenKind) (found : Token)
  /-- Condition bits are asked of an operator that is no branch. -/
  | notBranch (mnemonic : Mnemonic)
  /-- The content of a token is no numeral. -/
  | numeral (defect : Numeral.Defect)
  /-- An integer has too many digits to be written. -/
  | integerTooLong
  /-- A statement has too few or too many operands. -/
  | operandCount
  /-- A statement lacks the operand that gives its size. -/
  | operandAbsent
  /-- The content of a token is too short. -/
  | contentTooShort
  /-- A field has no bits. -/
  | emptyField
  /-- A block has more words than can be counted. -/
  | blockTooLarge
  deriving DecidableEq, Repr

def Fault.message : Fault → Text
  | wrongKind wanted found =>
    "expected a ".toList ++ wanted.title ++ " token, got ".toList ++ found.description
  | notBranch mnemonic =>
    Text.named mnemonic.spelling ++ " is not a branch instruction".toList
  | numeral .malformed => "malformed numeral".toList
  | numeral (.tooLong digits) =>
    "Exceeds the limit (4300 digits) for integer string conversion: value has ".toList
      ++ Numeral.decimal digits
      ++ " digits; use sys.set_int_max_str_digits() to increase the limit".toList
  | integerTooLong =>
    ("Exceeds the limit (4300 digits) for integer string conversion; "
      ++ "use sys.set_int_max_str_digits() to increase the limit").toList
  | operandCount => "wrong number of operands".toList
  | operandAbsent => "operand out of range".toList
  | contentTooShort => "character out of range".toList
  | emptyField => "negative shift count".toList
  | blockTooLarge => "cannot fit 'int' into an index-sized integer".toList

/-- Why work on a program ended early. -/
inductive Failure where
  | diagnostic (diagnostic : Diagnostic)
  | fault (fault : Fault)
  deriving DecidableEq, Repr

/-- The text of a failure, as a user sees it. -/
def Failure.text : Failure → Text
  | diagnostic d => d.text
  | fault f => f.message

namespace Diagnostic

/-- The failure that a diagnostic becomes. A field range needs a field with bits, and every integer
it writes has to stay within the limit; otherwise reporting it is itself a fault. Its places are
taken to be those of a source, which are far below the limit. -/
def failure (diagnostic : Diagnostic) : Failure :=
  match diagnostic.problem with
  | .fieldRange _ 0 => .fault .emptyField
  | problem =>
    if problem.integers.any Numeral.exceedsLimit then .fault .integerTooLong
    else .diagnostic diagnostic

def places (diagnostic : Diagnostic) : List Location :=
  diagnostic.location.toList ++
    match diagnostic.problem with
    | .duplicateLabel _ first => first.toList
    | _ => []

/-- The failure that a diagnostic becomes whose places are given from outside. A place with a number
beyond the limit cannot be reported either. -/
def raised (diagnostic : Diagnostic) : Failure :=
  if diagnostic.places.all Location.isWritable then diagnostic.failure else .fault .integerTooLong

end Diagnostic

end LittleComputer
