import LittleComputer.SymbolTable
import LittleComputer.Token.Value

/-! # Layout

The first walk over the statements of a program gives every label its address. An address counter
exists between `.ORIG`, which sets it, and `.END`; every other statement stands at the counter and
moves it by the number of words that it occupies. Labels of `.ORIG` and `.END` name nothing. -/

namespace LittleComputer
set_option autoImplicit false

def maxAddress : Int := 0xFFFF

namespace Statement

def firstOperand (statement : Statement) : Except Failure Token :=
  match statement.operands with
  | token :: _ => .ok token
  | [] => .error (.fault .operandAbsent)

/-- The value that an `.ORIG` sets the counter to. -/
def origin (statement : Statement) : Except Failure Int := do
  (← statement.firstOperand).immediateValue

/-- The number of words that a statement occupies: a string has one for each character and one for
the zero behind them, a block as many as its count says and none for a negative one. -/
def footprint (statement : Statement) : Except Failure Nat :=
  match statement.mnemonic with
  | .stringz => do
    let text ← (← statement.firstOperand).stringText
    .ok (text.length + 1)
  | .blkw => do
    let count ← (← statement.firstOperand).numberValue
    .ok count.toNat
  | _ => .ok 1

end Statement

namespace SymbolTable

/-- Adds the labels of the statements to a table, where `counter` is the address of the first
statement, if it stands in a region. -/
def extend (table : SymbolTable) (counter : Option Int) :
    List Statement → Except Failure SymbolTable
  | [] => .ok table
  | statement :: rest =>
    match statement.mnemonic with
    | .orig => do
      let address ← statement.origin
      table.extend (some address) rest
    | .finish => table.extend none rest
    | _ =>
      match counter with
      | none =>
        .error (Diagnostic.plain (.outsideRegion .layout statement) statement.location).failure
      | some address =>
        if 0 ≤ address ∧ address ≤ maxAddress then do
          let table ← (table.defineAll address statement.location statement.labels).mapError
            Diagnostic.failure
          let words ← statement.footprint
          table.extend (some (address + words)) rest
        else
          .error (Diagnostic.plain (.addressRange address) statement.location).failure

/-- The symbol table of a program. -/
def ofStatements (statements : List Statement) : Except Failure SymbolTable :=
  empty.extend none statements

end SymbolTable

end LittleComputer
