import LittleComputer.Encoding
import Mathlib.Tactic

/-! # Changes of names and places

Two programs may differ only in the names of their labels, in the places of their tokens and in the
values of their `.ORIG`. Here their data are related one by one: tokens, statements, tables and the
failures that come of them.

* `Mirrors`: two computations end alike.
* `Change`: an injective renaming of labels, and a relation between places.
* `Change.MapsToken`, `MapsStatement`, `MapsTable`, `MapsFailure`: the data of the one program and
  those of the other. Addresses differ by a fixed distance.
* `Change.MapsLookup`: a label means addresses of that distance in both tables.
-/

namespace LittleComputer
set_option autoImplicit false

/-! ## Computations that end alike -/

/-- Two computations end alike: both with results related by `R`, or both with failures related by
`E`. The first may fail alone where `left` holds, the second where `right` holds. -/
inductive Mirrors {ε ε' α β : Type} (left right : Prop) (E : ε → ε' → Prop) (R : α → β → Prop) :
    Except ε α → Except ε' β → Prop
  | ok {a : α} {b : β} (h : R a b) : Mirrors left right E R (.ok a) (.ok b)
  | error {e : ε} {e' : ε'} (h : E e e') : Mirrors left right E R (.error e) (.error e')
  | first {e : ε} {y : Except ε' β} (h : left) : Mirrors left right E R (.error e) y
  | second {x : Except ε α} {e : ε'} (h : right) : Mirrors left right E R x (.error e)

namespace Mirrors
variable {ε ε' α β γ δ : Type} {left right : Prop} {E : ε → ε' → Prop} {R : α → β → Prop}
  {x : Except ε α} {y : Except ε' β}

theorem bind {S : γ → δ → Prop} {f : α → Except ε γ} {g : β → Except ε' δ}
    (h : Mirrors left right E R x y)
    (hfg : ∀ a b, R a b → Mirrors left right E S (f a) (g b)) :
    Mirrors left right E S (x >>= f) (y >>= g) := by
  cases h with
  | ok h => exact hfg _ _ h
  | error h => exact .error h
  | first h => exact .first h
  | second h => exact .second h

theorem map {S : γ → δ → Prop} {f : α → γ} {g : β → δ} (h : Mirrors left right E R x y)
    (hfg : ∀ a b, R a b → S (f a) (g b)) : Mirrors left right E S (x.map f) (y.map g) := by
  cases h with
  | ok h => exact .ok (hfg _ _ h)
  | error h => exact .error h
  | first h => exact .first h
  | second h => exact .second h

theorem mapError {D : γ → δ → Prop} {f : ε → γ} {g : ε' → δ} (h : Mirrors left right E R x y)
    (hfg : ∀ e e', E e e' → D (f e) (g e')) :
    Mirrors left right D R (x.mapError f) (y.mapError g) := by
  cases h with
  | ok h => exact .ok h
  | error h => exact .error (hfg _ _ h)
  | first h => exact .first h
  | second h => exact .second h

theorem imp {E' : ε → ε' → Prop} {R' : α → β → Prop} (h : Mirrors left right E R x y)
    (hE : ∀ e e', E e e' → E' e e') (hR : ∀ a b, R a b → R' a b) :
    Mirrors left right E' R' x y := by
  cases h with
  | ok h => exact .ok (hR _ _ h)
  | error h => exact .error (hE _ _ h)
  | first h => exact .first h
  | second h => exact .second h

/-- The result of the first computation is at hand behind it. -/
theorem attach (h : Mirrors left right E R x y) :
    Mirrors left right E (fun a b => x = .ok a ∧ R a b) x y := by
  cases h with
  | ok h => exact .ok ⟨rfl, h⟩
  | error h => exact .error h
  | first h => exact .first h
  | second h => exact .second h

/-- A computation ends like itself if its failures are related to themselves. -/
theorem same {F : ε → ε → Prop} (x : Except ε α) (hx : ∀ e, x = .error e → F e e) :
    Mirrors left right F (fun a b => b = a) x x := by
  cases x with
  | ok a => exact .ok rfl
  | error e => exact .error (hx e rfl)

/-- The result of the one, if the other may not fail alone. -/
theorem of_ok {a : α} (h : Mirrors left False E R (.ok a) y) : ∃ b, y = .ok b ∧ R a b := by
  cases h with
  | ok h => exact ⟨_, rfl, h⟩
  | second h => exact h.elim

theorem of_error {e : ε} (h : Mirrors False False E R (.error e) y) :
    ∃ e', y = .error e' ∧ E e e' := by
  cases h with
  | error h => exact ⟨_, rfl, h⟩
  | first h => exact h.elim
  | second h => exact h.elim

theorem comp {ζ : Type} {E' : ε' → ζ → Prop} {R' : β → γ → Prop} {z : Except ζ γ}
    (h : Mirrors False False E R x y) (h' : Mirrors False False E' R' y z) :
    Mirrors False False (Relation.Comp E E') (Relation.Comp R R') x z := by
  cases h with
  | ok h =>
    obtain ⟨c, rfl, hc⟩ := h'.of_ok
    exact .ok ⟨_, h, hc⟩
  | error h =>
    obtain ⟨e, rfl, he⟩ := h'.of_error
    exact .error ⟨_, h, he⟩
  | first h => exact h.elim
  | second h => exact h.elim

/-- How two computations end that end alike everywhere. -/
theorem outcomes (h : Mirrors False False E R x y) :
    ((∃ a, x = .ok a) ↔ ∃ b, y = .ok b) ∧ (∀ a b, x = .ok a → y = .ok b → R a b) ∧
      ∀ e e', x = .error e → y = .error e' → E e e' := by
  cases h with
  | ok h =>
    refine ⟨⟨fun _ => ⟨_, rfl⟩, fun _ => ⟨_, rfl⟩⟩, ?_, fun _ _ he => (by cases he)⟩
    rintro _ _ ⟨⟩ ⟨⟩
    exact h
  | error h =>
    refine ⟨⟨fun ⟨_, hok⟩ => (by cases hok), fun ⟨_, hok⟩ => (by cases hok)⟩,
      fun _ _ hok => (by cases hok), ?_⟩
    rintro _ _ ⟨⟩ ⟨⟩
    exact h
  | first h => exact h.elim
  | second h => exact h.elim

end Mirrors

/-- Lists that are related one by one have equal images under maps that send related elements to
one. -/
theorem map_eq_of_forall₂ {α β γ : Type} {R : α → β → Prop} {f : α → γ} {g : β → γ} {l : List α}
    {m : List β} (h : List.Forall₂ R l m) (hfg : ∀ a b, R a b → g b = f a) : m.map g = l.map f := by
  induction h with
  | nil => rfl
  | cons hab _ ih => rw [List.map_cons, List.map_cons, hfg _ _ hab, ih]

theorem eq_of_option_rel {α : Type} {a b : Option α} (h : Option.Rel Eq a b) : b = a := by
  cases h with
  | some h => rw [h]
  | none => rfl

theorem option_rel_refl {α : Type} (a : Option α) : Option.Rel Eq a a := by
  cases a with
  | none => exact .none
  | some a => exact .some rfl

/-! ## Changes -/

/-- A renaming of labels that keeps different names apart, and a relation between places. -/
structure Change where
  name : Text → Text
  injective : Function.Injective name
  places : Location → Location → Prop

namespace Change

/-- The change that leaves names and places alone. -/
def identity : Change :=
  ⟨id, Function.injective_id, Eq⟩

/-- The change that leaves names alone and puts tokens anywhere. -/
def anywhere : Change :=
  ⟨id, Function.injective_id, fun _ _ => True⟩

variable (c : Change) (d : Int)

/-- A token of the one program and the token of the other: labels are renamed, all else is spelled
alike. -/
structure MapsToken (t t' : Token) : Prop where
  kind : t'.kind = t.kind
  label : t.kind = .label → t'.content = c.name t.content
  content : t.kind ≠ .label → t'.content = t.content
  place : c.places t.location t'.location

/-- The faults of the one program and of the other. -/
inductive MapsFault : Failure → Failure → Prop
  | same (fault : Fault) : MapsFault (.fault fault) (.fault fault)
  | wrongKind (wanted : TokenKind) {t t' : Token} (h : c.MapsToken t t') :
    MapsFault (.fault (.wrongKind wanted t)) (.fault (.wrongKind wanted t'))

/-- A statement of the one program and that of the other. The values of `.ORIG` differ by `d`, and
their tokens need not correspond. -/
structure MapsStatement (s s' : Statement) : Prop where
  labels : s'.labels = s.labels.map c.name
  mnemonic : s'.mnemonic = s.mnemonic
  place : Option.Rel c.places s.location s'.location
  operands : s.mnemonic ≠ .orig → List.Forall₂ c.MapsToken s.operands s'.operands
  origin : s.mnemonic = .orig → ∀ left right : Prop,
    Mirrors left right c.MapsFault (fun v v' => v' = v + d) s.origin s'.origin

structure MapsSymbol (x x' : Symbol) : Prop where
  name : x'.name = c.name x.name
  address : x'.address = x.address + d
  place : Option.Rel c.places x.location x'.location

/-- The tables of both programs: the same order, renamed labels, addresses that differ by `d`. -/
def MapsTable (table table' : SymbolTable) : Prop :=
  List.Forall₂ (c.MapsSymbol d) table.symbols table'.symbols

structure MapsBlock (b b' : Block) : Prop where
  address : b'.address = b.address + d
  words : b'.words = b.words
  statement : c.MapsStatement d b.statement b'.statement
  placed : b.statement.mnemonic ≠ .orig

/-- The problems of both programs. Suggestions depend on the names, so they correspond only where
these are left alone. -/
inductive MapsProblem : Problem → Problem → Prop
  | same (p : Problem) : MapsProblem p p
  | operatorExpected {t t' : Token} (h : c.MapsToken t t') :
    MapsProblem (.operatorExpected t) (.operatorExpected t')
  | operandMismatch (mnemonic : Mnemonic) (place : Nat) (wanted : OperandKind) {t t' : Token}
    (h : c.MapsToken t t') :
    MapsProblem (.operandMismatch mnemonic place wanted t)
      (.operandMismatch mnemonic place wanted t')
  | outsideRegion (pass : Pass) {d : Int} {s s' : Statement} (h : c.MapsStatement d s s')
    (hplaced : s.mnemonic ≠ .orig) : MapsProblem (.outsideRegion pass s) (.outsideRegion pass s')
  | duplicateLabel (name : Text) {first first' : Option Location}
    (h : Option.Rel c.places first first') :
    MapsProblem (.duplicateLabel name first) (.duplicateLabel (c.name name) first')
  | undefinedLabel (name : Text) {similar similar' : List Text}
    (h : c.name = id → similar' = similar) :
    MapsProblem (.undefinedLabel name similar) (.undefinedLabel (c.name name) similar')

inductive MapsDiagnostic : Diagnostic → Diagnostic → Prop
  | plain {p p' : Problem} {l l' : Option Location} (hproblem : c.MapsProblem p p')
    (hplace : Option.Rel c.places l l') : MapsDiagnostic (.plain p l) (.plain p' l')

inductive MapsFailure : Failure → Failure → Prop
  | fault {e e' : Failure} (h : c.MapsFault e e') : MapsFailure e e'
  | diagnostic {a b : Diagnostic} (h : c.MapsDiagnostic a b) :
    MapsFailure (.diagnostic a) (.diagnostic b)

/-- A label means addresses that differ by `d` in the two tables. -/
def MapsLookup (left right : Prop) (table table' : SymbolTable) : Prop :=
  ∀ t t', c.MapsToken t t' → Mirrors left right c.MapsFailure (fun a a' => a' = a + d)
    (t.labelAddress table) (t'.labelAddress table')

theorem MapsToken.eq {t t' : Token} (h : identity.MapsToken t t') : t' = t := by
  obtain ⟨kind, content, location⟩ := t
  obtain ⟨kind', content', location'⟩ := t'
  obtain ⟨rfl, hlabel, hcontent, hplace⟩ := h
  have hsame : content' = content := by
    by_cases hkind : kind' = .label
    · exact hlabel hkind
    · exact hcontent hkind
  have hplace : location = location' := hplace
  rw [hsame, hplace]

theorem mapsToken_identity (t : Token) : identity.MapsToken t t :=
  ⟨rfl, fun _ => rfl, fun _ => rfl, rfl⟩

end Change

/-! ## Failures -/

/-- The sorts of faults: a value that cannot be read or written, a part that is absent, and a size
beyond all bounds. -/
inductive FaultSort where
  | value
  | absence
  | size
  deriving DecidableEq, Repr

def Fault.sort : Fault → FaultSort
  | operandAbsent | contentTooShort => .absence
  | blockTooLarge => .size
  | _ => .value

/-- What a failure is: a diagnostic of a category or a fault of a sort. -/
def Failure.sort : Failure → Category ⊕ FaultSort
  | diagnostic d => .inl d.category
  | fault f => .inr f.sort

/-- The place of a failure. Faults have none. -/
def Failure.location : Failure → Option Location
  | diagnostic d => d.location
  | fault _ => none

namespace Change
variable {c : Change} {d : Int}

theorem MapsProblem.category_eq {p p' : Problem} (h : c.MapsProblem p p') :
    p'.category = p.category := by
  cases h with
  | outsideRegion pass => cases pass <;> rfl
  | _ => rfl

theorem MapsFailure.sort_eq {e e' : Failure} (h : c.MapsFailure e e') : e'.sort = e.sort := by
  cases h with
  | fault h => cases h <;> rfl
  | diagnostic h =>
    cases h with
    | plain hproblem => exact congrArg Sum.inl hproblem.category_eq

theorem MapsFailure.location_rel {e e' : Failure} (h : c.MapsFailure e e') :
    Option.Rel c.places e.location e'.location := by
  cases h with
  | fault h => cases h <;> exact .none
  | diagnostic h =>
    cases h with
    | plain _ hplace => exact hplace

/-- Only an unchanged problem writes integers, so both reports can be written or neither. -/
theorem MapsDiagnostic.failure {a b : Diagnostic} (h : c.MapsDiagnostic a b) :
    c.MapsFailure a.failure b.failure := by
  cases h with
  | @plain p p' l l' hproblem hplace =>
    have hplain := MapsDiagnostic.plain hproblem hplace
    cases hproblem with
    | same =>
      unfold Diagnostic.failure
      simp only [Diagnostic.plain]
      split
      · exact .fault (.same _)
      · split
        · exact .fault (.same _)
        · exact .diagnostic hplain
    | _ => exact .diagnostic hplain

/-! ## The values of tokens -/

section Tokens
variable {left right : Prop} {t t' : Token}

theorem MapsToken.require (h : c.MapsToken t t') (kind : TokenKind) :
    Mirrors left right c.MapsFault (fun _ _ => t.kind = kind) (t.require kind)
      (t'.require kind) := by
  unfold Token.require
  rw [h.kind]
  split
  · next hkind => exact .ok hkind
  · exact .error (.wrongKind kind h)

theorem MapsToken.labelName (h : c.MapsToken t t') :
    Mirrors left right c.MapsFault (fun n n' => n' = c.name n) t.labelName t'.labelName := by
  refine (h.require .label).bind fun _ _ hkind => .ok ?_
  exact h.label hkind

theorem mirrors_of_fault {α : Type} (x : Except Failure α)
    (hx : ∀ e, x = .error e → ∃ fault, e = .fault fault) :
    Mirrors left right c.MapsFault (fun a b => b = a) x x := by
  refine .same x fun e he => ?_
  obtain ⟨fault, rfl⟩ := hx e he
  exact .same fault

theorem readNumeral_fault (base : Nat) (text : Text) (e : Failure)
    (h : Token.readNumeral base text = .error e) : ∃ fault, e = .fault fault := by
  unfold Token.readNumeral at h
  cases hread : Numeral.read base text with
  | ok value => simp [hread, Except.mapError] at h
  | error defect =>
    rw [hread] at h
    exact ⟨_, (Except.error.inj h).symm⟩

theorem MapsToken.registerNumber (h : c.MapsToken t t') :
    Mirrors left right c.MapsFault (fun a b => b = a) t.registerNumber t'.registerNumber := by
  refine (h.require .register).bind fun _ _ hkind => ?_
  rw [h.content (by rw [hkind]; nofun)]
  refine mirrors_of_fault _ fun e he => ?_
  split at he
  · split at he
    · cases he
    · exact ⟨_, (Except.error.inj he).symm⟩
  · exact ⟨_, (Except.error.inj he).symm⟩

theorem MapsToken.immediateValue (h : c.MapsToken t t') :
    Mirrors left right c.MapsFault (fun a b => b = a) t.immediateValue t'.immediateValue := by
  refine (h.require .immediate).bind fun _ _ hkind => ?_
  rw [h.content (by rw [hkind]; nofun)]
  refine mirrors_of_fault _ fun e he => ?_
  split at he
  · exact readNumeral_fault _ _ e he
  · exact ⟨_, (Except.error.inj he).symm⟩

theorem MapsToken.numberValue (h : c.MapsToken t t') :
    Mirrors left right c.MapsFault (fun a b => b = a) t.numberValue t'.numberValue := by
  refine (h.require .number).bind fun _ _ hkind => ?_
  rw [h.content (by rw [hkind]; nofun)]
  exact mirrors_of_fault _ fun e he => readNumeral_fault _ _ e he

theorem MapsToken.stringText (h : c.MapsToken t t') :
    Mirrors left right c.MapsFault (fun a b => b = a) t.stringText t'.stringText := by
  refine (h.require .string).bind fun _ _ hkind => ?_
  rw [h.content (by rw [hkind]; nofun)]
  exact .ok rfl

end Tokens

/-! ## Operands -/

section Operands
variable {left right : Prop} {s s' : Statement}

theorem MapsFault.mirrors {α β : Type} {R : α → β → Prop} {x : Except Failure α}
    {y : Except Failure β} (h : Mirrors left right c.MapsFault R x y) :
    Mirrors left right c.MapsFailure R x y :=
  h.imp (fun _ _ => .fault) fun _ _ => id

theorem mirrors_firstOperand (h : List.Forall₂ c.MapsToken s.operands s'.operands) :
    Mirrors left right c.MapsFault c.MapsToken s.firstOperand s'.firstOperand := by
  unfold Statement.firstOperand
  generalize s.operands = operands at h ⊢
  generalize s'.operands = operands' at h ⊢
  cases h with
  | nil => exact .error (.same _)
  | cons ha _ => exact .ok ha

theorem mirrors_oneOperand (h : List.Forall₂ c.MapsToken s.operands s'.operands) :
    Mirrors left right c.MapsFailure c.MapsToken s.oneOperand s'.oneOperand := by
  unfold Statement.oneOperand
  generalize s.operands = operands at h ⊢
  generalize s'.operands = operands' at h ⊢
  obtain _ | ⟨ha, _ | ⟨_, _⟩⟩ := h
  · exact .error (.fault (.same _))
  · exact .ok ha
  · exact .error (.fault (.same _))

theorem mirrors_twoOperands (h : List.Forall₂ c.MapsToken s.operands s'.operands) :
    Mirrors left right c.MapsFailure (fun p q => c.MapsToken p.1 q.1 ∧ c.MapsToken p.2 q.2)
      s.twoOperands s'.twoOperands := by
  unfold Statement.twoOperands
  generalize s.operands = operands at h ⊢
  generalize s'.operands = operands' at h ⊢
  obtain _ | ⟨ha, _ | ⟨hb, _ | ⟨_, _⟩⟩⟩ := h
  · exact .error (.fault (.same _))
  · exact .error (.fault (.same _))
  · exact .ok ⟨ha, hb⟩
  · exact .error (.fault (.same _))

theorem mirrors_threeOperands (h : List.Forall₂ c.MapsToken s.operands s'.operands) :
    Mirrors left right c.MapsFailure
      (fun p q => c.MapsToken p.1 q.1 ∧ c.MapsToken p.2.1 q.2.1 ∧ c.MapsToken p.2.2 q.2.2)
      s.threeOperands s'.threeOperands := by
  unfold Statement.threeOperands
  generalize s.operands = operands at h ⊢
  generalize s'.operands = operands' at h ⊢
  obtain _ | ⟨ha, _ | ⟨hb, _ | ⟨hc, _ | ⟨_, _⟩⟩⟩⟩ := h
  · exact .error (.fault (.same _))
  · exact .error (.fault (.same _))
  · exact .error (.fault (.same _))
  · exact .ok ⟨ha, hb, hc⟩
  · exact .error (.fault (.same _))

theorem mirrors_encodeField (value : Int) (bits : Nat) {l l' : Option Location}
    (h : Option.Rel c.places l l') :
    Mirrors left right c.MapsFailure (fun a b => b = a) (encodeField value bits l)
      (encodeField value bits l') := by
  unfold encodeField
  split
  · exact .error (.fault (.same _))
  · split
    · exact .ok rfl
    · exact .error (MapsDiagnostic.plain (.same _) h).failure

theorem MapsToken.registerBits {t t' : Token} (h : c.MapsToken t t') (place : Nat) :
    Mirrors left right c.MapsFailure (fun a b => b = a) (t.registerBits place)
      (t'.registerBits place) := by
  refine (MapsFault.mirrors h.registerNumber).bind fun number _ heq => ?_
  rw [heq]
  exact .ok rfl

theorem MapsToken.immediateBits {t t' : Token} (h : c.MapsToken t t') (bits : Nat) :
    Mirrors left right c.MapsFailure (fun a b => b = a) (t.immediateBits bits)
      (t'.immediateBits bits) := by
  refine (MapsFault.mirrors h.immediateValue).bind fun value _ heq => ?_
  rw [heq]
  refine (mirrors_encodeField value bits (.some h.place)).bind fun field _ heq => ?_
  rw [heq]
  exact .ok rfl

/-- Offsets are differences of addresses, so they stay. -/
theorem MapsToken.offsetBits {t t' : Token} {table table' : SymbolTable} (h : c.MapsToken t t')
    (htable : c.MapsLookup d left right table table') (origin : Int) (bits : Nat) :
    Mirrors left right c.MapsFailure (fun a b => b = a) (t.offsetBits table origin bits)
      (t'.offsetBits table' (origin + d) bits) := by
  refine (htable t t' h).bind fun address _ heq => ?_
  have hsame : address + d - (origin + d) = address - origin := by omega
  rw [heq, hsame]
  refine (mirrors_encodeField (address - origin) bits (.some h.place)).bind fun field _ heq => ?_
  rw [heq]
  exact .ok rfl

end Operands

end Change

end LittleComputer
