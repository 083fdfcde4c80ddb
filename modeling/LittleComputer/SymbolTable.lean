import LittleComputer.Failure

/-! # The symbol table

Labels with their addresses, in the order of their definition. A name is defined at most once.

* `SymbolTable.store`: an entry takes the place of one with its name, or stands behind all others.
* `SymbolTable.define`: a name is looked up and then stored, unless it is taken.
* `SymbolTable.attempt`: a single definition by a caller, who keeps the table when it is refused.
-/

namespace LittleComputer
set_option autoImplicit false

/-- A label, its address and the place of its definition. -/
structure Symbol where
  name : Text
  address : Int
  location : Option Location
  deriving DecidableEq, Repr

/-- The labels of a program in the order of their definition. -/
structure SymbolTable where
  symbols : List Symbol
  deriving DecidableEq, Repr

namespace SymbolTable

def empty : SymbolTable := ⟨[]⟩

def find? (table : SymbolTable) (name : Text) : Option Symbol :=
  table.symbols.find? fun symbol => symbol.name == name

def address? (table : SymbolTable) (name : Text) : Option Int :=
  (table.find? name).map Symbol.address

def contains (table : SymbolTable) (name : Text) : Bool :=
  (table.find? name).isSome

def size (table : SymbolTable) : Nat :=
  table.symbols.length

def names (table : SymbolTable) : List Text :=
  table.symbols.map Symbol.name

/-- Enters a symbol in the place of the one that has its name, or behind all others. -/
def store (table : SymbolTable) (symbol : Symbol) : SymbolTable :=
  if table.contains symbol.name then
    ⟨table.symbols.map fun other => if other.name == symbol.name then symbol else other⟩
  else ⟨table.symbols ++ [symbol]⟩

end SymbolTable

/-! ## Defining labels -/

/-- Work on a symbol table that may stop with a diagnostic. It leaves a table either way. -/
abbrev Defining := ExceptT Diagnostic (StateM SymbolTable)

namespace SymbolTable

/-- Does the work on a table: how it ends, and the table it leaves. -/
def perform (table : SymbolTable) (work : Defining Unit) : Except Diagnostic Unit × SymbolTable :=
  (work.run.run table).run

/-- Defines a label. A name that is already defined is an error, which names the place of its first
definition. -/
def define (name : Text) (address : Int) (location : Option Location) : Defining Unit := do
  match (← get).find? name with
  | some first => throw (.plain (.duplicateLabel name first.location) location)
  | none => modify (·.store ⟨name, address, location⟩)

/-- Defines several labels for one address. -/
def defineAll (table : SymbolTable) (address : Int) (location : Option Location)
    (names : List Text) : Except Diagnostic SymbolTable :=
  match table.perform (names.forM fun name => define name address location) with
  | (.ok (), larger) => .ok larger
  | (.error diagnostic, _) => .error diagnostic

/-- A call that defines a label: the failure if it is refused, and the table behind it. -/
def attempt (table : SymbolTable) (call : Symbol) : Option Failure × SymbolTable :=
  match table.perform (define call.name call.address call.location) with
  | (.ok (), behind) => (none, behind)
  | (.error diagnostic, behind) => (some diagnostic.raised, behind)

/-! ## Renderings -/

def summary (table : SymbolTable) : Text :=
  "SymbolTable(".toList
    ++ Text.join ", ".toList
      (table.symbols.map fun symbol => symbol.name ++ "=x".toList ++ Numeral.address symbol.address)
    ++ ")".toList

/-- True when a symbol may stand in front of another in the text of a table: by address, then by
the code points of the name. -/
def precedes (a b : Symbol) : Bool :=
  a.address < b.address || (a.address == b.address && Text.atMost a.name b.name)

/-- A line of the text of a table. -/
def line (symbol : Symbol) : Text :=
  symbol.name ++ " x".toList ++ Numeral.address symbol.address

/-- The text of a table: a header, and a line for every label in the order of the addresses. -/
def text (table : SymbolTable) : Text :=
  Text.unlines ("; Symbol table".toList :: (table.symbols.mergeSort precedes).map line)

end SymbolTable

end LittleComputer
