import LittleComputer.Failure

/-! # Values of tokens

What a token denotes: a register number, an integer, a name or the characters of a string. Asking
for a value that the token's kind does not have is a fault. -/

namespace LittleComputer.Token
set_option autoImplicit false

def require (token : Token) (kind : TokenKind) : Except Failure Unit :=
  if token.kind = kind then .ok () else .error (.fault (.wrongKind kind token))

def readNumeral (base : Nat) (text : Text) : Except Failure Int :=
  (Numeral.read base text).mapError fun defect => .fault (.numeral defect)

/-- The number of a register: the digit behind its letter. -/
def registerNumber (token : Token) : Except Failure Nat := do
  token.require .register
  match token.content with
  | _ :: digit :: _ =>
    match Text.decimalDigit? digit with
    | some value => .ok value
    | none => .error (.fault (.numeral .malformed))
  | _ => .error (.fault .contentTooShort)

/-- The value of an immediate. Behind `x` or `X` stands a hexadecimal numeral, behind any other
mark a decimal one. -/
def immediateValue (token : Token) : Except Failure Int := do
  token.require .immediate
  match token.content with
  | mark :: numeral => readNumeral (if mark = 'x' ∨ mark = 'X' then 16 else 10) numeral
  | [] => .error (.fault .contentTooShort)

/-- The value of a bare number. -/
def numberValue (token : Token) : Except Failure Int := do
  token.require .number
  readNumeral 10 token.content

/-- The name of a label. -/
def labelName (token : Token) : Except Failure Text := do
  token.require .label
  .ok token.content

/-- The characters of a string, without its quotes. -/
def stringText (token : Token) : Except Failure Text := do
  token.require .string
  .ok token.content.tail.dropLast

end LittleComputer.Token
