import LittleComputer.Proofs.Encoding
import LittleComputer.Proofs.Reading
import Mathlib.Tactic

/-! # Reports and faults

Within the limits of numbers, assembling ends with a result or with a report about the program. No
step meets a token of another kind than it asks for, an operand too many or too few, an operator
that it does not know, or an integer that its report cannot write.

* `Settles`: a computation that ends without a fault.
* `Source.read_settles`: reading a source writes no integers at all.
* `SymbolTable.ofStatements_settles`, `Block.ofStatements_settles`: both walks.
* `only_reports_escape`: the whole assembly.
-/

namespace LittleComputer
set_option autoImplicit false

/-! ## Computations without faults -/

/-- A computation that ends with a result or with a report about the program. -/
inductive Settles {α : Type} : Except Failure α → Prop
  | result (a : α) : Settles (.ok a)
  | report {diagnostic : Diagnostic} (h : Category.assembly ∈ diagnostic.category.wider) :
    Settles (.error (.diagnostic diagnostic))

theorem Settles.bind {α β : Type} {x : Except Failure α} {f : α → Except Failure β}
    (hx : Settles x) (hf : ∀ a, x = .ok a → Settles (f a)) : Settles (x.bind f) := by
  cases hx with
  | result a => exact hf a rfl
  | report h => exact .report h

/-- Only a message in free words may be about something else than the program. -/
theorem Problem.assembly_mem_wider {problem : Problem}
    (h : ∀ category message, problem ≠ .stated category message) :
    Category.assembly ∈ problem.category.wider := by
  cases problem with
  | stated category message => exact absurd rfl (h category message)
  | outsideRegion pass statement => cases pass <;> simp [category, Category.wider]
  | _ => simp [category, Category.wider]

theorem Diagnostic.settles {α : Type} {diagnostic : Diagnostic}
    (hfailure : diagnostic.failure = .diagnostic diagnostic)
    (hstated : ∀ category message, diagnostic.problem ≠ .stated category message) :
    Settles (.error diagnostic.failure : Except Failure α) := by
  rw [hfailure]
  exact .report (Problem.assembly_mem_wider hstated)

/-! ## Reading -/

/-- What can be wrong with the tokens and the grammar of a source. -/
inductive Problem.IsAboutText : Problem → Prop
  | unterminatedString : IsAboutText .unterminatedString
  | operatorExpected (found : Token) : IsAboutText (.operatorExpected found)
  | unknownOperator (spelled : Text) : IsAboutText (.unknownOperator spelled)
  | operandMissing (mnemonic : Mnemonic) (place : Nat) (wanted : OperandKind) :
    IsAboutText (.operandMissing mnemonic place wanted)
  | operandMismatch (mnemonic : Mnemonic) (place : Nat) (wanted : OperandKind) (found : Token) :
    IsAboutText (.operandMismatch mnemonic place wanted found)

/-- Reports about the text write no integers but places in it. -/
theorem Problem.IsAboutText.settles {α : Type} {diagnostic : Diagnostic}
    (h : diagnostic.problem.IsAboutText) :
    Settles (.error diagnostic.failure : Except Failure α) := by
  obtain ⟨problem, location, advice, sourceLine⟩ := diagnostic
  have hintegers : problem.integers = [] := by cases h <;> rfl
  apply Diagnostic.settles
  · apply Diagnostic.failure_eq
    · rintro value rfl
      cases h
    · intro n hn
      rw [hintegers] at hn
      cases hn
  · rintro category message rfl
    cases h

theorem Source.next_isAboutText {source : Source} {cursor : Cursor} {diagnostic : Diagnostic}
    (h : source.next cursor = .error diagnostic) : diagnostic.problem.IsAboutText := by
  rw [next] at h
  split at h
  · cases h
  · split at h
    · cases h
      exact .unterminatedString
    · cases h
  · cases h

theorem Source.scan_isAboutText {source : Source} {cursor : Cursor} {diagnostic : Diagnostic}
    (h : (source.scan cursor).2 = some diagnostic) : diagnostic.problem.IsAboutText := by
  fun_induction scan source cursor with
  | case1 cursor reported hnext =>
    cases h
    exact next_isAboutText hnext
  | case2 cursor hnext => cases h
  | case3 cursor token behind hnext rest ih => exact ih h

theorem Source.tokens_isAboutText {source : Source} {diagnostic : Diagnostic}
    (h : source.tokens = .error diagnostic) : diagnostic.problem.IsAboutText := by
  unfold tokens at h
  split at h
  · cases h
  · next hscan =>
    cases h
    have hreport : (source.scan source.start).2 = some diagnostic := by rw [hscan]
    exact scan_isAboutText hreport

theorem Statement.read_isAboutText {tokens : List Token} {diagnostic : Diagnostic}
    (h : Statement.read tokens = .error diagnostic) : diagnostic.problem.IsAboutText := by
  rcases Statement.read_eq_error h with ⟨token, -, problem, hrefused, rfl⟩ |
    ⟨_, opened, wanted, _, -, rfl⟩
  · cases hrefused with
    | operatorExpected => exact .operatorExpected token
    | unknownOperator => exact .unknownOperator token.content
    | operandMismatch => exact .operandMismatch _ _ _ token
  · exact .operandMissing opened.mnemonic _ wanted

theorem Source.read_settles (source : Source) : Settles source.read := by
  unfold Source.read
  split
  · next htokens => exact (tokens_isAboutText htokens).settles
  · split
    · next hread => exact (Statement.read_isAboutText hread).settles
    · exact .result _

/-! ## Both walks -/

section Walks
variable {statements : List Statement} {table : SymbolTable}

theorem SymbolTable.ofStatements_settles (hwell : ∀ statement ∈ statements, statement.WellFormed)
    (hlimits : ∀ statement ∈ statements, statement.WithinLimits)
    (hstrings : ∀ statement ∈ statements, ∀ token ∈ statement.operands, token.kind = .string →
      token.content.length ≤ Statement.maxBlock) :
    Settles (ofStatements statements) := by
  have houtcome := ofStatements_outcome hwell
  generalize ofStatements statements = outcome at houtcome
  cases houtcome with
  | finished => exact .result _
  | @stopped before after statement failure table hsplit hplaced hrecords hstops =>
    obtain ⟨problem, hmisplaced, rfl⟩ := hstops
    rw [List.nil_append] at hrecords hmisplaced
    have hfront : ∀ s ∈ before, s ∈ statements := by
      intro s hs
      rw [hsplit]
      exact List.mem_append_left _ hs
    apply Diagnostic.settles
    · apply hmisplaced.failure_eq
      intro address
      exact hrecords.natAbs_lt (fun s hs => hwell s (hfront s hs))
        (fun s hs => hlimits s (hfront s hs)) (fun s hs => hstrings s (hfront s hs))
    · rintro category message rfl
      cases hmisplaced
  | beyond hmem hbeyond => exact absurd (hlimits _ hmem) hbeyond

theorem Block.ofStatements_settles (hwell : ∀ statement ∈ statements, statement.WellFormed)
    (hlimits : ∀ statement ∈ statements, statement.WithinLimits)
    (hrecords : Records statements table) : Settles (ofStatements table statements) := by
  rcases hrecords.encoding_cases hwell with ⟨blocks, hok, -⟩ |
    ⟨before, statement, after, address, diagnostic, hsplit, -, -, hmemory, -, hrefusal, herror⟩ |
    ⟨statement, fault, hmem, hbeyond, -⟩
  · rw [hok]
    exact .result blocks
  · have hmem : statement ∈ statements := by
      rw [hsplit]
      simp
    rw [herror]
    apply Diagnostic.settles
    · exact hrefusal.failure_eq (hwell statement hmem) (hlimits statement hmem) hmemory
        fun name target => hrecords.inMemory
    · intro category message hproblem
      cases hrefusal <;> cases hproblem
  · exact absurd (hlimits statement hmem) hbeyond

end Walks

/-! ## Sources -/

/-- A source within the limits of numbers: so are the statements that are read from it. A literal
that no statement has for its operand is never turned into a number. -/
def Source.WithinLimits (source : Source) : Prop :=
  ∀ result, source.read = .ok result → ∀ statement ∈ result.2.statements, statement.WithinLimits

instance (source : Source) : Decidable source.WithinLimits :=
  inferInstanceAs (Decidable (∀ result, source.read = .ok result → _))

/-- **Only reports escape.** A source within the limits of numbers is assembled or reported on; there
are no faults. That its characters can be counted, as those of any text can, bounds the address
behind a string. -/
theorem only_reports_escape {source : Source} (hlimits : source.WithinLimits)
    (hlength : source.text.length ≤ Statement.maxBlock) :
    (∃ assembly, source.assemble = .ok assembly) ∨
      ∃ diagnostic, source.assemble = .error (.diagnostic diagnostic) ∧
        Category.assembly ∈ diagnostic.category.wider := by
  have hsettles : Settles source.assemble := by
    refine source.read_settles.bind ?_
    rintro ⟨tokens, reading⟩ hread
    have hwell := Source.read_wellFormed hread
    have hstatements := hlimits _ hread
    have hstrings : ∀ statement ∈ reading.statements, ∀ token ∈ statement.operands,
        token.kind = .string → token.content.length ≤ Statement.maxBlock :=
      fun statement hmem token htoken hkind =>
        (Source.read_string_length hread statement hmem token htoken hkind).trans hlength
    refine (SymbolTable.ofStatements_settles hwell hstatements hstrings).bind fun table htable => ?_
    have hrecords := SymbolTable.records_of_ofStatements hwell htable
    refine (Block.ofStatements_settles hwell hstatements hrecords).bind fun blocks _ => ?_
    exact .result _
  generalize source.assemble = outcome at hsettles
  cases hsettles with
  | result assembly => exact .inl ⟨assembly, rfl⟩
  | report h => exact .inr ⟨_, rfl, h⟩

/-- The largest block that can be counted, and an instruction far outside the memory behind it. -/
def Source.farBlock : Source :=
  ⟨[], ".ORIG x3000 A .BLKW 9223372036854775807 B BR A .END".toList⟩

theorem only_reports_escape_farBlock :
    Source.farBlock.WithinLimits ∧
      ∃ diagnostic, Source.farBlock.assemble = .error (.diagnostic diagnostic) ∧
        Category.assembly ∈ diagnostic.category.wider := by
  have hlimits : Source.farBlock.WithinLimits := by decide +kernel
  have hfails : ∀ assembly, Source.farBlock.assemble = .ok assembly → False := by decide +kernel
  refine ⟨hlimits, ?_⟩
  rcases only_reports_escape hlimits (by decide +kernel) with ⟨assembly, hok⟩ | hreport
  · exact absurd hok (hfails assembly)
  · exact hreport

end LittleComputer
