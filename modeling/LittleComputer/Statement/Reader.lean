import LittleComputer.Diagnostic

/-! # Reading statements

Tokens become statements one token at a time. Between two tokens the reader holds a `Pending`: the
labels met so far, or a statement that still lacks operands. Line breaks are no tokens, so labels
always belong to the next operator.

* `Pending.step`: what one token does.
* `Pending.run`: what a list of tokens does; a diagnostic comes with the tokens behind the last one
  read, from which a reader may go on.
* `Statement.read`: the statements of a list of tokens, and the labels at its end that no operator
  follows.
-/

namespace LittleComputer
set_option autoImplicit false

/-- A statement under construction: what is known once its operator is read. -/
structure Opened where
  labels : List Text
  mnemonic : Mnemonic
  operator : Token
  taken : List Token
  deriving DecidableEq, Repr

/-- The statement made of an operator and all its operands. A trap alias becomes the trap with its
vector, placed where the alias stands. -/
def Opened.statement (opened : Opened) : Statement :=
  let location := opened.operator.location
  match opened.mnemonic.trapVector? with
  | some vector =>
    { labels := opened.labels
      mnemonic := .trap
      operands := [⟨.immediate, 'x' :: Numeral.digits 16 vector, location⟩]
      location := some location }
  | none =>
    { labels := opened.labels
      mnemonic := opened.mnemonic
      operands := opened.taken
      location := some location }

/-- What the reader holds between two tokens. -/
inductive Pending where
  | labels (names : List Text)
  | operands (opened : Opened) (wanted : OperandKind) (further : List OperandKind)
  deriving DecidableEq, Repr

namespace Pending

/-- Goes on with an opened statement that lacks the given operands: it is complete when none is
missing. -/
def proceed (opened : Opened) : List OperandKind → Option Statement × Pending
  | [] => (some opened.statement, labels [])
  | wanted :: further => (none, operands opened wanted further)

def step : Pending → Token → Except Diagnostic (Option Statement × Pending)
  | labels names, token =>
    match token.kind with
    | .label => .ok (none, labels (names ++ [token.content]))
    | .operator =>
      match Mnemonic.ofSpelling? token.content with
      | some mnemonic =>
        .ok (proceed ⟨Text.distinct names, mnemonic, token, []⟩ mnemonic.signature)
      | none => .error (.plain (.unknownOperator token.content) (some token.location))
    | _ => .error (.plain (.operatorExpected token) (some token.location))
  | operands opened wanted further, token =>
    if wanted.accepts token.kind then
      .ok (proceed { opened with taken := opened.taken ++ [token] } further)
    else
      .error (.plain
        (.operandMismatch opened.mnemonic (opened.taken.length + 1) wanted token)
        (some token.location))

/-- A diagnostic and the tokens behind the last one read. -/
structure Stop where
  diagnostic : Diagnostic
  rest : List Token
  deriving DecidableEq, Repr

def run : Pending → List Token → Except Stop (List Statement × Pending)
  | pending, [] => .ok ([], pending)
  | pending, token :: rest =>
    match pending.step token with
    | .error diagnostic => .error ⟨diagnostic, rest⟩
    | .ok (none, pending) => run pending rest
    | .ok (some statement, pending) =>
      match run pending rest with
      | .error stop => .error stop
      | .ok (statements, pending) => .ok (statement :: statements, pending)

/-- The labels left over at the end of the input; a statement that lacks operands is an error. -/
def finish : Pending → Except Diagnostic (List Text)
  | labels names => .ok (Text.distinct names)
  | operands opened wanted _ =>
    .error (.plain (.operandMissing opened.mnemonic (opened.taken.length + 1) wanted)
      (some opened.operator.location))

end Pending

/-- The statements of a program and the labels at its end, which name nothing. -/
structure Reading where
  statements : List Statement
  trailing : List Text
  deriving DecidableEq, Repr

namespace Statement

/-- Reads all tokens, or stops with a diagnostic. -/
def readAll (tokens : List Token) : Except Pending.Stop Reading :=
  match Pending.run (.labels []) tokens with
  | .error stop => .error stop
  | .ok (statements, pending) =>
    match pending.finish with
    | .error diagnostic => .error ⟨diagnostic, []⟩
    | .ok trailing => .ok ⟨statements, trailing⟩

def read (tokens : List Token) : Except Diagnostic Reading :=
  (readAll tokens).mapError (·.diagnostic)

/-- Reads a number of times in turn, each time from where the reading before stopped. -/
def readTimes : Nat → List Token → List (Except Diagnostic Reading)
  | 0, _ => []
  | times + 1, tokens =>
    match readAll tokens with
    | .error stop => .error stop.diagnostic :: readTimes times stop.rest
    | .ok reading => .ok reading :: readTimes times []

end Statement

end LittleComputer
