import LittleComputer.Assembly
import LittleComputer.Proofs.ChangedWalks
import LittleComputer.Proofs.Reading
import Mathlib.Tactic

/-! # Reading and assembling under a change

A list of tokens is assembled in three stages: it is read as statements, the first walk finds the
addresses of the labels, the second makes the blocks. Tokens that differ by a change of names and
places pass the same stages.

* `Token.assemble`: all stages, where a failure comes with the stage that it ends.
* `Change.mirrors_step`, `Change.mirrors_run`: one token, and all tokens, of the reader.
* `Change.mirrors_assemble`: all stages.
-/

namespace LittleComputer
set_option autoImplicit false

/-! ## Stages -/

/-- The stages of assembling a list of tokens. -/
inductive Stage where
  | reading
  | layout
  | encoding
  deriving DecidableEq, Repr

/-- Assembles a list of tokens. -/
def Token.assemble (tokens : List Token) : Except (Stage × Failure) Assembly := do
  let reading ← (Statement.read tokens).mapError fun diagnostic => (.reading, diagnostic.failure)
  let symbols ← (SymbolTable.ofStatements reading.statements).mapError fun e => (.layout, e)
  let blocks ← (Block.ofStatements symbols reading.statements).mapError fun e => (.encoding, e)
  .ok ⟨reading.statements, symbols, blocks⟩

theorem Source.assemble_of_tokens {source : Source} {tokens : List Token}
    (h : source.tokens = .ok tokens) :
    source.assemble = (Token.assemble tokens).mapError Prod.snd := by
  unfold Source.assemble Source.read Assembly.ofStatements Token.assemble
  simp only [h]
  cases Statement.read tokens with
  | error diagnostic => rfl
  | ok reading =>
    simp only [Except.mapError, bind, Except.bind]
    cases SymbolTable.ofStatements reading.statements with
    | error failure => rfl
    | ok table =>
      simp only
      cases Block.ofStatements table reading.statements <;> rfl

theorem Token.assemble_eq_ok {tokens : List Token} {assembly : Assembly} :
    Token.assemble tokens = .ok assembly ↔
      ∃ reading, Statement.read tokens = .ok reading ∧
        SymbolTable.ofStatements reading.statements = .ok assembly.symbols ∧
        Block.ofStatements assembly.symbols reading.statements = .ok assembly.blocks ∧
        assembly.statements = reading.statements := by
  constructor
  · intro h
    obtain ⟨reading, hread, h⟩ := bind_eq_ok.1 h
    obtain ⟨table, htable, h⟩ := bind_eq_ok.1 h
    obtain ⟨blocks, hblocks, h⟩ := bind_eq_ok.1 h
    cases h
    exact ⟨reading, mapError_eq_ok.1 hread, mapError_eq_ok.1 htable, mapError_eq_ok.1 hblocks, rfl⟩
  · rintro ⟨reading, hread, htable, hblocks, hstatements⟩
    simp only [Token.assemble, hread, htable, hblocks, Except.mapError, ok_bind]
    rw [← hstatements]

/-! ## Reading token by token -/

/-- Names that differ before a renaming differ behind it, so repeats are dropped alike. -/
theorem Text.distinct_map {f : Text → Text} (hf : Function.Injective f) (names : List Text) :
    Text.distinct (names.map f) = (Text.distinct names).map f := by
  induction names with
  | nil => rfl
  | cons name rest ih =>
    rw [List.map_cons, Text.distinct, Text.distinct, List.map_cons, ih, List.filter_map]
    congr 2
    refine List.filter_congr fun other _ => ?_
    simp [hf.eq_iff]

namespace Change
variable {c : Change} {left right : Prop}

structure MapsOpened (c : Change) (o o' : Opened) : Prop where
  labels : o'.labels = o.labels.map c.name
  mnemonic : o'.mnemonic = o.mnemonic
  operator : c.places o.operator.location o'.operator.location
  taken : List.Forall₂ c.MapsToken o.taken o'.taken

inductive MapsPending (c : Change) : Pending → Pending → Prop
  | labels (names : List Text) : MapsPending c (.labels names) (.labels (names.map c.name))
  | operands {o o' : Opened} (h : c.MapsOpened o o') (wanted : OperandKind)
    (further : List OperandKind) :
    MapsPending c (.operands o wanted further) (.operands o' wanted further)

/-- The statements that come of two phrases. -/
structure MapsPhrase (c : Change) (s s' : Statement) : Prop where
  labels : s'.labels = s.labels.map c.name
  mnemonic : s'.mnemonic = s.mnemonic
  place : Option.Rel c.places s.location s'.location
  operands : List.Forall₂ c.MapsToken s.operands s'.operands

structure MapsReading (c : Change) (r r' : Reading) : Prop where
  statements : List.Forall₂ c.MapsPhrase r.statements r'.statements
  trailing : r'.trailing = r.trailing.map c.name

/-- The operand of an `.ORIG` is a token like any other, so its value stays. -/
theorem MapsPhrase.statement {s s' : Statement} (h : c.MapsPhrase s s') :
    c.MapsStatement 0 s s' := by
  refine ⟨h.labels, h.mnemonic, h.place, fun _ => h.operands, fun _ left right => ?_⟩
  refine (mirrors_firstOperand h.operands).bind fun t t' ht => ?_
  refine ht.immediateValue.imp (fun _ _ => id) fun value _ heq => ?_
  rw [heq, Int.add_zero]

theorem MapsOpened.statement {o o' : Opened} (h : c.MapsOpened o o') :
    c.MapsPhrase o.statement o'.statement := by
  unfold Opened.statement
  rw [h.mnemonic]
  split
  · exact ⟨h.labels, rfl, .some h.operator, .cons ⟨rfl, nofun, fun _ => rfl, h.operator⟩ .nil⟩
  · exact ⟨h.labels, rfl, .some h.operator, h.taken⟩

theorem MapsOpened.proceed {o o' : Opened} (h : c.MapsOpened o o') (missing : List OperandKind) :
    Option.Rel c.MapsPhrase (Pending.proceed o missing).1 (Pending.proceed o' missing).1 ∧
      c.MapsPending (Pending.proceed o missing).2 (Pending.proceed o' missing).2 := by
  cases missing with
  | nil => exact ⟨.some h.statement, .labels []⟩
  | cons wanted further => exact ⟨.none, .operands h wanted further⟩

theorem mirrors_step {pending pending' : Pending} {t t' : Token}
    (h : c.MapsPending pending pending') (ht : c.MapsToken t t') :
    Mirrors left right c.MapsDiagnostic
      (fun a b => Option.Rel c.MapsPhrase a.1 b.1 ∧ c.MapsPending a.2 b.2)
      (pending.step t) (pending'.step t') := by
  cases h with
  | labels names =>
    simp only [Pending.step, ht.kind]
    split
    · next hkind =>
      have hnames : names.map c.name ++ [t'.content] = (names ++ [t.content]).map c.name := by
        rw [ht.label hkind, List.map_append, List.map_singleton]
      rw [hnames]
      exact .ok ⟨.none, .labels _⟩
    · next hkind =>
      rw [ht.content (by rw [hkind]; decide)]
      split
      · next mnemonic _ =>
        have hopened : c.MapsOpened ⟨Text.distinct names, mnemonic, t, []⟩
            ⟨Text.distinct (names.map c.name), mnemonic, t', []⟩ :=
          ⟨Text.distinct_map c.injective names, rfl, ht.place, .nil⟩
        exact .ok (hopened.proceed mnemonic.signature)
      · exact .error (.plain (.same _) (.some ht.place))
    · exact .error (.plain (.operatorExpected ht) (.some ht.place))
  | @operands o o' ho wanted further =>
    simp only [Pending.step, ht.kind]
    split
    · have hopened : c.MapsOpened { o with taken := o.taken ++ [t] }
          { o' with taken := o'.taken ++ [t'] } :=
        ⟨ho.labels, ho.mnemonic, ho.operator, List.rel_append ho.taken (.cons ht .nil)⟩
      exact .ok (hopened.proceed further)
    · rw [ho.mnemonic, ← ho.taken.length_eq]
      exact .error (.plain (.operandMismatch _ _ _ ht) (.some ht.place))

theorem mirrors_run {tokens tokens' : List Token} (h : List.Forall₂ c.MapsToken tokens tokens')
    {pending pending' : Pending} (hpending : c.MapsPending pending pending') :
    Mirrors left right (fun e e' => c.MapsDiagnostic e.diagnostic e'.diagnostic)
      (fun a b => List.Forall₂ c.MapsPhrase a.1 b.1 ∧ c.MapsPending a.2 b.2)
      (pending.run tokens) (pending'.run tokens') := by
  induction h generalizing pending pending' with
  | nil => exact .ok ⟨.nil, hpending⟩
  | @cons t t' rest rest' ht hrest ih =>
    have hstep : Mirrors left right (fun e e' => c.MapsDiagnostic e.diagnostic e'.diagnostic) _
        ((pending.step t).mapError fun e => (⟨e, rest⟩ : Pending.Stop))
        ((pending'.step t').mapError fun e => (⟨e, rest'⟩ : Pending.Stop)) :=
      (mirrors_step hpending ht).mapError fun _ _ => id
    rw [Pending.run_cons, Pending.run_cons]
    refine hstep.bind fun state state' hstate => ?_
    refine (ih hstate.2).map fun result result' hresult => ⟨?_, hresult.2⟩
    refine List.rel_append ?_ hresult.1
    generalize state.1 = made at hstate ⊢
    generalize state'.1 = made' at hstate ⊢
    cases hstate.1 with
    | some hs => exact .cons hs .nil
    | none => exact .nil

theorem mirrors_finish {pending pending' : Pending} (h : c.MapsPending pending pending') :
    Mirrors left right c.MapsDiagnostic (fun a b => b = a.map c.name) pending.finish
      pending'.finish := by
  cases h with
  | labels names => exact .ok (Text.distinct_map c.injective names)
  | @operands o o' ho wanted further =>
    rw [Pending.finish, Pending.finish, ho.mnemonic, ← ho.taken.length_eq]
    exact .error (.plain (.same _) (.some ho.operator))

theorem mirrors_read {tokens tokens' : List Token} (h : List.Forall₂ c.MapsToken tokens tokens') :
    Mirrors left right c.MapsDiagnostic c.MapsReading (Statement.read tokens)
      (Statement.read tokens') := by
  have hrun : Mirrors left right (fun e e' => c.MapsDiagnostic e.diagnostic e'.diagnostic) _
      ((Pending.labels []).run tokens) ((Pending.labels []).run tokens') :=
    mirrors_run h (.labels [])
  unfold Statement.read Statement.readAll
  generalize (Pending.labels []).run tokens = x at hrun ⊢
  generalize (Pending.labels []).run tokens' = y at hrun ⊢
  cases hrun with
  | error h => exact .error h
  | first h => exact .first h
  | second h => exact .second h
  | @ok a b h =>
    have hfinish : Mirrors left right c.MapsDiagnostic _ a.2.finish b.2.finish :=
      mirrors_finish h.2
    simp only
    generalize a.2.finish = x at hfinish ⊢
    generalize b.2.finish = y at hfinish ⊢
    cases hfinish with
    | ok htrailing => exact .ok ⟨h.1, htrailing⟩
    | error h => exact .error h
    | first h => exact .first h
    | second h => exact .second h

/-! ## All stages -/

structure MapsAssembly (c : Change) (a a' : Assembly) : Prop where
  statements : List.Forall₂ c.MapsPhrase a.statements a'.statements
  symbols : c.MapsTable 0 a.symbols a'.symbols
  blocks : List.Forall₂ (c.MapsBlock 0) a.blocks a'.blocks

theorem MapsAssembly.blockWords {a a' : Assembly} (h : c.MapsAssembly a a') :
    a'.blocks.map Block.words = a.blocks.map Block.words :=
  map_eq_of_forall₂ h.blocks fun _ _ hb => hb.words

theorem MapsAssembly.blockAddresses {a a' : Assembly} (h : c.MapsAssembly a a') :
    a'.blocks.map Block.address = a.blocks.map Block.address :=
  map_eq_of_forall₂ h.blocks fun _ _ hb => hb.address.trans (Int.add_zero _)

theorem MapsAssembly.words {a a' : Assembly} (h : c.MapsAssembly a a') : a'.words = a.words := by
  simp only [Assembly.words, Block.allWords, List.flatMap_def, h.blockWords]

theorem mirrors_layout {statements statements' : List Statement}
    (h : List.Forall₂ (c.MapsStatement 0) statements statements') :
    Mirrors left right c.MapsFailure (c.MapsTable 0) (SymbolTable.ofStatements statements)
      (SymbolTable.ofStatements statements') :=
  mirrors_extend h mapsTable_empty (.inl rfl) none

theorem mirrors_assemble {tokens tokens' : List Token}
    (h : List.Forall₂ c.MapsToken tokens tokens') :
    Mirrors left right (fun e e' => e'.1 = e.1 ∧ c.MapsFailure e.2 e'.2) c.MapsAssembly
      (Token.assemble tokens) (Token.assemble tokens') := by
  refine ((mirrors_read h).mapError fun _ _ he => ⟨rfl, he.failure⟩).bind fun r r' hr => ?_
  have hstatements : List.Forall₂ (c.MapsStatement 0) r.statements r'.statements :=
    hr.statements.imp fun _ _ => MapsPhrase.statement
  refine ((mirrors_layout hstatements).mapError fun _ _ he => ⟨rfl, he⟩).bind
    fun table table' htable => ?_
  refine ((mirrors_encodeFrom hstatements (htable.lookup left right) none).mapError
    fun _ _ he => ⟨rfl, he⟩).bind fun blocks blocks' hblocks => ?_
  exact .ok ⟨hr.statements, htable, hblocks⟩

end Change

end LittleComputer
