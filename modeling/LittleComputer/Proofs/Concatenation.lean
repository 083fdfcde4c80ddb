import LittleComputer.Proofs.Assembly
import LittleComputer.Proofs.Scanning
import LittleComputer.Proofs.Walks
import Mathlib.Tactic

/-! # Programs one behind the other

Two programs that assemble on their own are joined with a newline between them. Labels at the end
of the first then belong to the first statement of the second, and a region that the first leaves
open runs into the second. Neither matters, since a program that assembles starts with an `.ORIG` or
an `.END`: these forget where the counter stands, and their labels name nothing.

* `Statement.read_append`: the statements of the joined program.
* `StartsAnew`: the statements of a program that assembles.
* `concatenation_exact`: the joined program assembles unless the two share a label.
-/

namespace LittleComputer
set_option autoImplicit false

/-! ## Reading -/

/-- Statements that differ in the labels of the first one only. -/
inductive Relabelled : List Statement → List Statement → Prop
  | nil : Relabelled [] []
  | cons (statement : Statement) (names : List Text) (rest : List Statement) :
    Relabelled (statement :: rest) ({ statement with labels := names } :: rest)

namespace Pending

/-- States of the reader that differ in the labels of the next statement only. -/
inductive Relabels : Pending → Pending → Prop
  | labels (names names' : List Text) : Relabels (labels names) (labels names')
  | operands (opened : Opened) (names : List Text) (wanted : OperandKind)
    (further : List OperandKind) :
    Relabels (operands opened wanted further)
      (operands { opened with labels := names } wanted further)

/-- What becomes of two such states: they still differ in these labels only, or both have ended the
statement that the labels belong to. -/
inductive RelabelledBy : Option Statement × Pending → Option Statement × Pending → Prop
  | pending {pending pending' : Pending} (h : Relabels pending pending') :
    RelabelledBy (none, pending) (none, pending')
  | statement (statement : Statement) (names : List Text) (behind : Pending) :
    RelabelledBy (some statement, behind) (some { statement with labels := names }, behind)

theorem proceed_relabels (opened : Opened) (names : List Text) (missing : List OperandKind) :
    RelabelledBy (proceed opened missing) (proceed { opened with labels := names } missing) := by
  cases missing with
  | nil =>
    have hstatement : { opened with labels := names }.statement =
        { opened.statement with labels := names } := by
      unfold Opened.statement
      dsimp only
      split <;> rfl
    rw [proceed, proceed, hstatement]
    exact .statement _ names _
  | cons wanted further => exact .pending (.operands opened names wanted further)

theorem step_relabels {pending pending' : Pending} (h : Relabels pending pending') {token : Token}
    {state : Option Statement × Pending} (hstep : pending.step token = .ok state) :
    ∃ state', pending'.step token = .ok state' ∧ RelabelledBy state state' := by
  cases h with
  | labels names names' =>
    simp only [step] at hstep ⊢
    split at hstep
    · cases hstep
      exact ⟨_, rfl, .pending (.labels _ _)⟩
    · split at hstep
      · next mnemonic _ =>
        cases hstep
        exact ⟨_, rfl, proceed_relabels ⟨Text.distinct names, mnemonic, token, []⟩ _ _⟩
      · cases hstep
    · cases hstep
  | operands opened names wanted further =>
    simp only [step] at hstep ⊢
    split at hstep
    · next haccepts =>
      cases hstep
      rw [if_pos haccepts]
      exact ⟨_, rfl, proceed_relabels { opened with taken := opened.taken ++ [token] } names _⟩
    · cases hstep

/-- The labels that a run starts with reach its first statement, and nothing behind it. -/
theorem run_relabels {pending pending' behind : Pending} (h : Relabels pending pending')
    {tokens : List Token} {statements : List Statement}
    (hrun : pending.run tokens = .ok (statements, behind)) :
    ∃ statements' behind', pending'.run tokens = .ok (statements', behind') ∧
      Relabelled statements statements' ∧ (Relabels behind behind' ∨ behind' = behind) := by
  induction tokens generalizing pending pending' statements with
  | nil =>
    cases hrun
    exact ⟨[], pending', rfl, .nil, .inl h⟩
  | cons token rest ih =>
    obtain ⟨state, further, hstep, hrest, rfl⟩ := run_cons_eq_ok hrun
    obtain ⟨state', hstep', hstate⟩ := step_relabels h hstep
    rw [run_of_step hstep', resume]
    cases hstate with
    | pending hnext =>
      obtain ⟨further', behind', hrun', hfurther, hbehind⟩ := ih hnext hrest
      exact ⟨further', behind', by rw [hrun']; rfl, hfurther, hbehind⟩
    -- both readers are in one state from here on
    | statement made names next =>
      exact ⟨{ made with labels := names } :: further, behind, by rw [hrest]; rfl,
        .cons made names further, .inr rfl⟩

theorem finish_relabels {pending pending' : Pending} (h : Relabels pending pending')
    {trailing : List Text} (hfinish : pending.finish = .ok trailing) :
    ∃ trailing', pending'.finish = .ok trailing' := by
  cases h with
  | labels names names' => exact ⟨_, rfl⟩
  | operands => cases hfinish

end Pending

theorem Statement.read_append {ts us : List Token} {first second : Reading}
    (hfirst : Statement.read ts = .ok first) (hsecond : Statement.read us = .ok second) :
    ∃ reading statements, Statement.read (ts ++ us) = .ok reading ∧
      Relabelled second.statements statements ∧
      reading.statements = first.statements ++ statements := by
  obtain ⟨pending, hrun, hfinish⟩ := read_eq_ok.1 hfirst
  obtain ⟨behind, hrun', hfinish'⟩ := read_eq_ok.1 hsecond
  cases pending with
  | operands => cases hfinish
  | labels names =>
    obtain ⟨statements, last, hlast, hstatements, hbehind⟩ :=
      Pending.run_relabels (.labels [] names) hrun'
    have htrailing : ∃ trailing, last.finish = .ok trailing := by
      rcases hbehind with hbehind | rfl
      · exact Pending.finish_relabels hbehind hfinish'
      · exact ⟨_, hfinish'⟩
    obtain ⟨trailing, htrailing⟩ := htrailing
    refine ⟨⟨first.statements ++ statements, trailing⟩, statements, ?_, hstatements, rfl⟩
    refine read_eq_ok.2 ⟨last, ?_, htrailing⟩
    rw [Pending.run_append hrun, hlast]
    rfl

/-! ## Statements that start anew -/

/-- Statements that do not go on with a region: the first of them, if there is one, is an `.ORIG` or
an `.END`. -/
def StartsAnew (statements : List Statement) : Prop :=
  ∀ statement ∈ statements.head?, statement.mnemonic = .orig ∨ statement.mnemonic = .finish

theorem startsAnew_of_extend {table result : SymbolTable} {statements : List Statement}
    (h : table.extend none statements = .ok result) : StartsAnew statements := by
  rintro statement hstatement
  obtain ⟨rest, rfl⟩ := List.head?_eq_some_iff.1 hstatement
  obtain ⟨next, counter, hadvances, -⟩ := SymbolTable.advances_of_extend h
  cases hadvances with
  | orig h => exact .inl h
  | finish h => exact .inr h

section Anew
variable {statements relabelled : List Statement}

/-- Neither the counter nor labels in front matter to statements that start anew. -/
theorem SymbolTable.extend_relabelled (h : Relabelled statements relabelled)
    (hstarts : StartsAnew statements) (table : SymbolTable) (counter : Option Int) :
    table.extend counter relabelled = table.extend none statements := by
  cases h with
  | nil => rfl
  | cons statement names rest =>
    have hsame : { statement with labels := names }.mnemonic = statement.mnemonic := rfl
    rcases hstarts statement rfl with horig | hfinish
    · rw [extend_orig horig, extend_orig (hsame.trans horig)]
      rfl
    · rw [extend_finish hfinish, extend_finish (hsame.trans hfinish)]

theorem Block.encodeFrom_relabelled (h : Relabelled statements relabelled)
    (hstarts : StartsAnew statements) (table : SymbolTable) (counter : Option Int) :
    encodeFrom table counter relabelled = encodeFrom table none statements := by
  cases h with
  | nil => rfl
  | cons statement names rest =>
    have hsame : { statement with labels := names }.mnemonic = statement.mnemonic := rfl
    rcases hstarts statement rfl with horig | hfinish
    · rw [encodeFrom_orig horig, encodeFrom_orig (hsame.trans horig)]
      rfl
    · rw [encodeFrom_finish hfinish, encodeFrom_finish (hsame.trans hfinish)]

end Anew

/-! ## Joined programs -/

theorem Source.tokens_of_assemble {source : Source} {assembly : Assembly}
    (h : source.assemble = .ok assembly) :
    ∃ tokens, source.tokens = .ok tokens ∧ Token.assemble tokens = .ok assembly := by
  obtain ⟨tokens, reading, hread, hstatements, htable, hblocks⟩ := Source.assemble_eq_ok h
  obtain ⟨htokens, hread⟩ := Source.read_eq_ok hread
  exact ⟨tokens, htokens, Token.assemble_eq_ok.2 ⟨reading, hread, htable, hblocks, hstatements⟩⟩

/-- The tokens of two programs that assemble, one behind the other. -/
theorem Token.assemble_append {ts us : List Token} {a b : Assembly}
    (ha : Token.assemble ts = .ok a) (hb : Token.assemble us = .ok b) :
    (a.symbols.firstShared b.symbols = none ∧
        ∃ c, Token.assemble (ts ++ us) = .ok c ∧ c.symbols = a.symbols.behind b.symbols ∧
          List.Forall₂ (fun b b' => b'.address = b.address ∧ b'.words = b.words)
            (a.blocks ++ b.blocks) c.blocks) ∨
      ∃ name first location, a.symbols.firstShared b.symbols = some name ∧
        Token.assemble (ts ++ us) =
          .error (.layout, .diagnostic (.plain (.duplicateLabel name first) location)) := by
  obtain ⟨reading, hread, htable, hblocks, -⟩ := Token.assemble_eq_ok.1 ha
  obtain ⟨reading', hread', htable', hblocks', -⟩ := Token.assemble_eq_ok.1 hb
  obtain ⟨whole, statements, hwhole, hrelabelled, hstatements⟩ :=
    Statement.read_append hread hread'
  have hstarts := startsAnew_of_extend htable'
  -- the counter and the labels that the first program leaves behind go no further than here
  have hwalk : SymbolTable.ofStatements whole.statements =
      (a.symbols.behind SymbolTable.empty).extend none reading'.statements := by
    obtain ⟨counter, hmore⟩ := SymbolTable.extend_append htable
    rw [SymbolTable.ofStatements, hstatements, hmore,
      SymbolTable.extend_relabelled hrelabelled hstarts, SymbolTable.behind, SymbolTable.empty,
      List.append_nil]
  have hempty : a.symbols.firstShared SymbolTable.empty = none := rfl
  have hjoins := SymbolTable.extend_behind htable' hempty
  rw [← hwalk] at hjoins
  generalize htables : SymbolTable.ofStatements whole.statements = outcome at hjoins
  cases hjoins with
  | fresh hfresh =>
    have hfront : ∀ name symbol, a.symbols.find? name = some symbol →
        (a.symbols.behind b.symbols).find? name = some symbol := by
      intro name symbol hfind
      rw [SymbolTable.find?_behind, hfind, Option.some_or]
    have hencoded := Block.encodeFrom_larger hfront hblocks
    have hencoded' := Block.encodeFrom_larger
      (fun _ _ => SymbolTable.find?_behind_of_fresh hfresh) hblocks'
    have hall : Block.ofStatements (a.symbols.behind b.symbols) whole.statements =
        .ok (a.blocks ++ b.blocks) := by
      obtain ⟨counter, hmore⟩ := Block.encodeFrom_append hencoded
      rw [Block.ofStatements, hstatements, hmore,
        Block.encodeFrom_relabelled hrelabelled hstarts, hencoded']
      rfl
    refine .inl ⟨hfresh, ⟨whole.statements, a.symbols.behind b.symbols, a.blocks ++ b.blocks⟩, ?_,
      rfl, List.forall₂_same.2 fun _ _ => ⟨rfl, rfl⟩⟩
    exact Token.assemble_eq_ok.2 ⟨whole, hwhole, htables, hall, rfl⟩
  | @shared name hshared first location =>
    refine .inr ⟨name, first, location, hshared, ?_⟩
    simp only [Token.assemble, hwhole, Except.mapError, ok_bind, htables]
    rfl

theorem Change.maps_moved (file : Text) (lines : Nat) (tokens : List Token) :
    List.Forall₂ anywhere.MapsToken tokens (tokens.map (Token.moved file lines)) := by
  rw [List.forall₂_map_right_iff, List.forall₂_same]
  exact fun token _ => ⟨rfl, fun _ => rfl, fun _ => rfl, trivial⟩

theorem Change.MapsFailure.duplicateLabel {name : Text} {first location : Option Location}
    {failure : Failure} (h : anywhere.MapsFailure
      (.diagnostic (.plain (.duplicateLabel name first) location)) failure) :
    ∃ diagnostic first', failure = .diagnostic diagnostic ∧
      diagnostic.problem = .duplicateLabel name first' := by
  cases h with
  | fault h => cases h
  | diagnostic h =>
    cases h with
    | plain hproblem =>
      cases hproblem with
      | same => exact ⟨_, first, rfl, rfl⟩
      | duplicateLabel => exact ⟨_, _, rfl, rfl⟩

/-- The text of one source, a newline and the text of another. -/
def Source.joined (file : Text) (p q : Source) : Source :=
  ⟨file, p.text ++ '\n' :: q.text⟩

/-- **Concatenation.** Two sources that assemble, joined by a newline, assemble exactly if no label
is in both tables. Then words, blocks and table are those of the first and behind them those of the
second. Otherwise the first label of the second table that the first has as well is reported. -/
theorem concatenation_exact {p q : Source} {a b : Assembly} (hp : p.assemble = .ok a)
    (hq : q.assemble = .ok b) (file : Text) :
    ((∃ c, (Source.joined file p q).assemble = .ok c) ↔
        ∀ name ∈ b.symbols.names, name ∉ a.symbols.names) ∧
      (∀ c, (Source.joined file p q).assemble = .ok c →
        c.words = a.words ++ b.words ∧
          c.blocks.map Block.words = a.blocks.map Block.words ++ b.blocks.map Block.words ∧
          c.blocks.map Block.address = a.blocks.map Block.address ++ b.blocks.map Block.address ∧
          c.symbols.names = a.symbols.names ++ b.symbols.names ∧
          c.symbols.symbols.map Symbol.address =
            a.symbols.symbols.map Symbol.address ++ b.symbols.symbols.map Symbol.address) ∧
      ∀ name, b.symbols.names.find? (· ∈ a.symbols.names) = some name →
        ∃ diagnostic first, (Source.joined file p q).assemble = .error (.diagnostic diagnostic) ∧
          diagnostic.problem = .duplicateLabel name first := by
  obtain ⟨ts, hts, ha⟩ := Source.tokens_of_assemble hp
  obtain ⟨us, hus, hb⟩ := Source.tokens_of_assemble hq
  -- the joined source has the tokens of both, only in other places
  have hmaps : List.Forall₂ Change.anywhere.MapsToken (ts ++ us) _ :=
    List.rel_append (Change.maps_moved file 0 ts)
      (Change.maps_moved file (p.text.count '\n' + 1) us)
  have hmirrors : Mirrors False False _ _ (Token.assemble (ts ++ us)) _ :=
    Change.mirrors_assemble hmaps
  have hjoined := Source.assemble_of_tokens (Source.tokens_joined hts hus file)
  rw [Source.joined, hjoined]
  rcases Token.assemble_append ha hb with
    ⟨hfresh, c, hc, hsymbols, hblocks⟩ | ⟨name, first, location, hshared, herror⟩
  · rw [hc] at hmirrors
    obtain ⟨c', hc', hmapped⟩ := hmirrors.of_ok
    rw [hc']
    have hdisjoint := SymbolTable.firstShared_eq_none.1 hfresh
    have hwords : c'.blocks.map Block.words =
        a.blocks.map Block.words ++ b.blocks.map Block.words := by
      rw [hmapped.blockWords, ← List.map_append]
      exact map_eq_of_forall₂ hblocks fun _ _ hb => hb.2
    have haddresses : c'.blocks.map Block.address =
        a.blocks.map Block.address ++ b.blocks.map Block.address := by
      rw [hmapped.blockAddresses, ← List.map_append]
      exact map_eq_of_forall₂ hblocks fun _ _ hb => hb.1
    refine ⟨⟨fun _ => hdisjoint, fun _ => ⟨c', rfl⟩⟩, ?_, ?_⟩
    · rintro _ ⟨⟩
      refine ⟨?_, hwords, haddresses, ?_, ?_⟩
      · simp only [Assembly.words, Block.allWords, List.flatMap_def, hwords, List.flatten_append]
      · rw [hmapped.symbols.names_eq, hsymbols]
        simp [SymbolTable.names, SymbolTable.behind, Change.anywhere]
      · rw [map_eq_of_forall₂ hmapped.symbols fun _ _ hx => hx.address.trans (Int.add_zero _),
          hsymbols, SymbolTable.behind, List.map_append]
    · intro name hname
      rw [SymbolTable.firstShared] at hfresh
      rw [hfresh] at hname
      cases hname
  · rw [herror] at hmirrors
    obtain ⟨e, he, hstage, hfailure⟩ := hmirrors.of_error
    obtain ⟨diagnostic, first', hdiagnostic, hproblem⟩ := hfailure.duplicateLabel
    rw [he]
    refine ⟨⟨?_, fun hdisjoint => ?_⟩, ?_, ?_⟩
    · rintro ⟨_, ⟨⟩⟩
    · rw [SymbolTable.firstShared_eq_none.2 hdisjoint] at hshared
      cases hshared
    · rintro _ ⟨⟩
    · intro other hother
      rw [SymbolTable.firstShared, hother] at hshared
      cases hshared
      exact ⟨diagnostic, first', congrArg Except.error hdiagnostic, hproblem⟩

/-- A program that ends inside a region, with a label and a comment. -/
def Source.unclosed : Source :=
  ⟨[], ".ORIG x3000 A LD R1 B B .FILL #7 C ; \"no .END".toList⟩

theorem concatenation_exact_unclosed :
    (∃ c, (Source.joined [] .unclosed ⟨[], ".END .ORIG x4000 C LEA R0 C".toList⟩).assemble = .ok c ∧
      c.words = [0x2200, 0x0007, 0xE1FF] ∧
      c.symbols.names = ["A", "B", "C"].map String.toList) ∧
      ∃ diagnostic first,
        (Source.joined [] .unclosed ⟨[], ".ORIG x0 C B HALT A HALT".toList⟩).assemble =
          .error (.diagnostic diagnostic) ∧
        diagnostic.problem = .duplicateLabel "B".toList first := by
  have hfirst : ∃ a, Source.unclosed.assemble = .ok a ∧ a.words = [0x2200, 0x0007] ∧
      a.symbols.names = ["A", "B"].map String.toList := by
    decide +kernel
  have hsecond : ∃ b, (⟨[], ".END .ORIG x4000 C LEA R0 C".toList⟩ : Source).assemble = .ok b ∧
      b.words = [0xE1FF] ∧ b.symbols.names = ["C"].map String.toList := by
    decide +kernel
  have hclash : ∃ b, (⟨[], ".ORIG x0 C B HALT A HALT".toList⟩ : Source).assemble = .ok b ∧
      b.symbols.names = ["C", "B", "A"].map String.toList := by
    decide +kernel
  obtain ⟨a, ha, hwords, hnames⟩ := hfirst
  obtain ⟨b, hb, hwords', hnames'⟩ := hsecond
  obtain ⟨b', hb', hnames''⟩ := hclash
  constructor
  · obtain ⟨hsucceeds, hresult, -⟩ := concatenation_exact ha hb []
    obtain ⟨c, hc⟩ := hsucceeds.2 (by rw [hnames, hnames']; decide)
    obtain ⟨hall, -, -, hsymbols, -⟩ := hresult c hc
    exact ⟨c, hc, by rw [hall, hwords, hwords']; rfl, by rw [hsymbols, hnames, hnames']; rfl⟩
  · exact (concatenation_exact ha hb' []).2.2 "B".toList (by rw [hnames, hnames'']; decide)

end LittleComputer
