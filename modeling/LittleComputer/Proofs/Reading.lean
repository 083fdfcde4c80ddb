import LittleComputer.Proofs.WellFormed
import Mathlib.Tactic

/-! # Reading phrase by phrase

A phrase is the tokens of one statement: its labels, its operator and its operands. The reader holds
nothing from one phrase to the next, so what it makes of a phrase does not depend on its neighbours.

* `Pending.run_cons`, `Pending.run_append_eq`: a run in pieces.
* `Pending.run_eq_error`: where it stops; `Pending.step_eq_error`, `Token.Refused`: why.
* `Statement.phrase`, `Pending.run_phrases`: the tokens of a statement are read back as that
  statement.
* `Statement.read_labels`: labels are contents of label tokens.
-/

namespace LittleComputer
set_option autoImplicit false

/-- What is wrong with a token that cannot be read. -/
inductive Token.Refused (token : Token) : Problem → Prop
  | operatorExpected (hkind : token.kind ≠ .operator) : Refused token (.operatorExpected token)
  | unknownOperator (hkind : token.kind = .operator)
    (hspelled : Mnemonic.ofSpelling? token.content = none) :
    Refused token (.unknownOperator token.content)
  | operandMismatch {mnemonic : Mnemonic} {place : Nat} {wanted : OperandKind}
    (hkind : ¬ wanted.accepts token.kind) :
    Refused token (.operandMismatch mnemonic place wanted token)

/-! ## Runs in pieces -/

namespace Pending

/-- Goes on behind a token with those that follow it. -/
def resume (state : Option Statement × Pending) (tokens : List Token) :
    Except Stop (List Statement × Pending) :=
  (state.2.run tokens).map fun result => (state.1.toList ++ result.1, result.2)

theorem run_cons (pending : Pending) (token : Token) (rest : List Token) :
    pending.run (token :: rest) =
      ((pending.step token).mapError fun diagnostic => ⟨diagnostic, rest⟩).bind
        (resume · rest) := by
  rw [run]
  cases pending.step token with
  | error diagnostic => rfl
  | ok state =>
    obtain ⟨_ | statement, behind⟩ := state
    · simp only [Except.mapError, Except.bind, resume]
      cases behind.run rest <;> rfl
    · simp only [Except.mapError, Except.bind, resume]
      cases behind.run rest <;> rfl

theorem run_of_step {pending : Pending} {token : Token} {state : Option Statement × Pending}
    (h : pending.step token = .ok state) (rest : List Token) :
    pending.run (token :: rest) = resume state rest := by
  rw [run_cons, h]
  rfl

theorem resume_none (pending : Pending) (tokens : List Token) :
    resume (none, pending) tokens = pending.run tokens := by
  unfold resume
  cases pending.run tokens <;> rfl

/-- What the first token of a run that ends well has done. -/
theorem run_cons_eq_ok {pending behind : Pending} {token : Token} {rest : List Token}
    {statements : List Statement} (h : pending.run (token :: rest) = .ok (statements, behind)) :
    ∃ state further, pending.step token = .ok state ∧ state.2.run rest = .ok (further, behind) ∧
      statements = state.1.toList ++ further := by
  rw [run_cons] at h
  obtain ⟨state, hstep, h⟩ := bind_eq_ok.1 h
  obtain ⟨result, hrest, hresult⟩ := map_eq_ok.1 h
  cases hresult
  exact ⟨state, result.1, mapError_eq_ok.1 hstep, hrest, rfl⟩

/-- A run over two lists: the second is read from where the first ends. Where the first stops, what
follows it is not read. -/
theorem run_append_eq (pending : Pending) (tokens more : List Token) :
    pending.run (tokens ++ more) =
      ((pending.run tokens).mapError fun stop => ⟨stop.diagnostic, stop.rest ++ more⟩).bind
        fun result => (result.2.run more).map fun further =>
          (result.1 ++ further.1, further.2) := by
  induction tokens generalizing pending with
  | nil => exact (resume_none pending more).symm
  | cons token rest ih =>
    rw [List.cons_append, run_cons, run_cons]
    cases pending.step token with
    | error diagnostic => rfl
    | ok state =>
      simp only [Except.mapError, Except.bind, resume, ih]
      cases state.2.run rest with
      | error stop => rfl
      | ok result =>
        simp only [Except.map]
        cases result.2.run more with
        | error stop => rfl
        | ok further => simp only [List.append_assoc]

/-- A run that ends well ends in the same state whatever follows it. -/
theorem run_append {pending behind : Pending} {tokens : List Token} {statements : List Statement}
    (h : pending.run tokens = .ok (statements, behind)) (more : List Token) :
    pending.run (tokens ++ more) =
      (behind.run more).map fun result => (statements ++ result.1, result.2) := by
  rw [run_append_eq, h]
  rfl

/-- A token that cannot be read is refused for what it is, at its own place. -/
theorem step_eq_error {pending : Pending} {token : Token} {diagnostic : Diagnostic}
    (h : pending.step token = .error diagnostic) :
    ∃ problem, token.Refused problem ∧ diagnostic = .plain problem (some token.location) := by
  cases pending with
  | labels names =>
    rw [step] at h
    split at h
    · cases h
    · next hkind =>
      split at h
      · cases h
      · next hspelled =>
        cases h
        exact ⟨_, .unknownOperator hkind hspelled, rfl⟩
    · next hkind =>
      cases h
      exact ⟨_, .operatorExpected hkind, rfl⟩
  | operands opened wanted further =>
    rw [step] at h
    split at h
    · cases h
    · next hkind =>
      cases h
      exact ⟨_, .operandMismatch hkind, rfl⟩

/-- A run stops at the first token that cannot be read. -/
theorem run_eq_error {pending : Pending} {tokens : List Token} {stop : Stop}
    (h : pending.run tokens = .error stop) :
    ∃ before token statements reached, tokens = before ++ token :: stop.rest ∧
      pending.run before = .ok (statements, reached) ∧
      reached.step token = .error stop.diagnostic := by
  induction tokens generalizing pending with
  | nil => cases h
  | cons token rest ih =>
    cases hstep : pending.step token with
    | error diagnostic =>
      rw [run_cons, hstep] at h
      cases h
      exact ⟨[], token, [], pending, rfl, rfl, hstep⟩
    | ok state =>
      rw [run_of_step hstep, resume] at h
      cases hrun : state.2.run rest with
      | ok result =>
        rw [hrun] at h
        cases h
      | error other =>
        rw [hrun] at h
        cases h
        obtain ⟨before, last, statements, reached, hsplit, hbefore, hlast⟩ := ih hrun
        refine ⟨token :: before, last, state.1.toList ++ statements, reached, ?_, ?_, hlast⟩
        · rw [hsplit]
          rfl
        · rw [run_of_step hstep, resume, hbefore]
          rfl

end Pending

theorem Statement.read_eq (tokens : List Token) :
    read tokens = (((Pending.labels []).run tokens).mapError (·.diagnostic)).bind fun result =>
      result.2.finish.map fun trailing => ⟨result.1, trailing⟩ := by
  unfold read readAll
  cases (Pending.labels []).run tokens with
  | error stop => rfl
  | ok result =>
    obtain ⟨statements, pending⟩ := result
    simp only [Except.mapError, Except.bind]
    cases pending.finish <;> rfl

theorem Statement.read_eq_ok {tokens : List Token} {reading : Reading} :
    Statement.read tokens = .ok reading ↔
      ∃ pending, (Pending.labels []).run tokens = .ok (reading.statements, pending) ∧
        pending.finish = .ok reading.trailing := by
  unfold Statement.read Statement.readAll
  cases (Pending.labels []).run tokens with
  | error stop => simp [Except.mapError]
  | ok result =>
    obtain ⟨statements, pending⟩ := result
    simp only [Except.ok.injEq, Prod.mk.injEq]
    cases hfinish : pending.finish with
    | error diagnostic =>
      constructor
      · intro h
        cases h
      · rintro ⟨_, ⟨-, rfl⟩, h⟩
        rw [hfinish] at h
        cases h
    | ok trailing =>
      constructor
      · intro h
        cases h
        exact ⟨pending, ⟨rfl, rfl⟩, hfinish⟩
      · rintro ⟨_, ⟨rfl, rfl⟩, h⟩
        rw [hfinish] at h
        cases h
        rfl

/-- Reading fails at a token that is refused, or at the end, where an operand is missing. -/
theorem Statement.read_eq_error {tokens : List Token} {diagnostic : Diagnostic}
    (h : Statement.read tokens = .error diagnostic) :
    (∃ token ∈ tokens, ∃ problem, token.Refused problem ∧
        diagnostic = .plain problem (some token.location)) ∨
      ∃ statements opened wanted further,
        (Pending.labels []).run tokens = .ok (statements, .operands opened wanted further) ∧
        diagnostic = .plain (.operandMissing opened.mnemonic (opened.taken.length + 1) wanted)
          (some opened.operator.location) := by
  unfold Statement.read Statement.readAll at h
  split at h
  · next stop hrun =>
    cases h
    obtain ⟨before, token, statements, reached, hsplit, -, hstep⟩ := Pending.run_eq_error hrun
    have hmem : token ∈ tokens := by
      rw [hsplit]
      simp
    exact .inl ⟨token, hmem, Pending.step_eq_error hstep⟩
  · next statements pending hrun =>
    cases pending with
    | labels names => cases h
    | operands opened wanted further =>
      cases h
      exact .inr ⟨statements, opened, wanted, further, hrun, rfl⟩

/-! ## Phrases -/

/-- The tokens of a statement, all but its operands in one place. -/
def Statement.phrase (location : Location) (statement : Statement) : List Token :=
  statement.labels.map (⟨.label, ·, location⟩) ++
    ⟨.operator, statement.mnemonic.spelling, location⟩ :: statement.operands

theorem Mnemonic.mem_all (mnemonic : Mnemonic) : mnemonic ∈ all := by
  cases mnemonic <;> decide

theorem Mnemonic.ofSpelling?_spelling (mnemonic : Mnemonic) :
    ofSpelling? mnemonic.spelling = some mnemonic := by
  have h : ∀ m ∈ all, ofSpelling? m.spelling = some m := by decide +kernel
  exact h mnemonic mnemonic.mem_all

theorem Text.distinct_eq_self {names : List Text} (h : names.Nodup) :
    Text.distinct names = names := by
  induction names with
  | nil => rfl
  | cons name rest ih =>
    obtain ⟨hname, hrest⟩ := List.nodup_cons.1 h
    rw [Text.distinct, ih hrest, List.filter_eq_self.2]
    intro other hother
    simp only [ne_eq, decide_eq_true_eq]
    rintro rfl
    exact hname hother

namespace Pending

theorem run_labels (names : List Text) {tokens : List Token}
    (h : ∀ token ∈ tokens, token.kind = .label) (rest : List Token) :
    (labels names).run (tokens ++ rest) =
      (labels (names ++ tokens.map Token.content)).run rest := by
  induction tokens generalizing names with
  | nil => simp
  | cons token tokens ih =>
    have hstep : (labels names).step token = .ok (none, labels (names ++ [token.content])) := by
      simp only [step, h token List.mem_cons_self]
    rw [List.cons_append, run_of_step hstep, resume_none,
      ih _ fun t ht => h t (List.mem_cons_of_mem token ht), List.append_assoc]
    rfl

/-- Operands that fill the places still open complete the statement. -/
theorem resume_operands {missing : List OperandKind} {operands : List Token}
    (h : Fills missing operands) (opened : Opened) (rest : List Token) :
    resume (proceed opened missing) (operands ++ rest) =
      resume (some { opened with taken := opened.taken ++ operands }.statement, labels [])
        rest := by
  induction h generalizing opened with
  | nil => simp only [List.append_nil, List.nil_append, proceed]
  | @cons wanted token missing operands haccepts _ ih =>
    have hstep : (Pending.operands opened wanted missing).step token =
        .ok (proceed { opened with taken := opened.taken ++ [token] } missing) := by
      simp only [step, haccepts, if_true]
    rw [proceed, resume_none, List.cons_append, run_of_step hstep, ih]
    simp only [List.append_assoc, List.cons_append, List.nil_append]

theorem run_phrase {P : Token → Prop} {statement : Statement} (h : statement.Complete P)
    (location : Location) (rest : List Token) :
    (labels []).run (statement.phrase location ++ rest) =
      resume (some { statement with location := some location }, labels []) rest := by
  have hstep : (labels statement.labels).step ⟨.operator, statement.mnemonic.spelling, location⟩ =
      .ok (proceed ⟨statement.labels, statement.mnemonic,
        ⟨.operator, statement.mnemonic.spelling, location⟩, []⟩ statement.mnemonic.signature) := by
    simp only [step, Mnemonic.ofSpelling?_spelling, Text.distinct_eq_self h.nodup]
  have hkinds : ∀ token ∈ statement.labels.map (⟨.label, ·, location⟩ : Text → Token),
      token.kind = .label := by
    simp
  have hnames : (statement.labels.map (⟨.label, ·, location⟩ : Text → Token)).map Token.content =
      statement.labels := by
    simp [Function.comp_def]
  rw [Statement.phrase, List.append_assoc, run_labels _ hkinds, hnames, List.nil_append,
    List.cons_append, run_of_step hstep, resume_operands h.fills]
  simp only [Opened.statement, h.noAlias, List.nil_append]

theorem run_phrases {P : Token → Prop} {statements : List Statement}
    (h : ∀ statement ∈ statements, statement.Complete P) (location : Location) :
    (labels []).run (statements.flatMap (·.phrase location)) =
      .ok (statements.map ({ · with location := some location }), labels []) := by
  induction statements with
  | nil => rfl
  | cons statement rest ih =>
    have hrest := ih fun other hother => h other (List.mem_cons_of_mem statement hother)
    rw [List.flatMap_cons, run_phrase (h statement List.mem_cons_self), resume, hrest]
    rfl

end Pending

/-! ## Where labels come from -/

theorem Text.mem_of_mem_distinct {name : Text} {names : List Text}
    (h : name ∈ Text.distinct names) : name ∈ names := by
  induction names with
  | nil => cases h
  | cons first rest ih =>
    rcases List.mem_cons.1 h with rfl | h
    · exact List.mem_cons_self
    · exact List.mem_cons_of_mem first (ih (List.mem_filter.1 h).1)

theorem Opened.statement_labels (opened : Opened) : opened.statement.labels = opened.labels := by
  unfold Opened.statement
  split <;> rfl

namespace Pending
variable {Q : Text → Prop}

/-- The labels that the next statement will have. -/
def names : Pending → List Text
  | labels names => names
  | operands opened _ _ => opened.labels

theorem proceed_names (opened : Opened) (h : ∀ name ∈ opened.labels, Q name)
    (missing : List OperandKind) :
    (∀ name ∈ (proceed opened missing).2.names, Q name) ∧
      ∀ statement, (proceed opened missing).1 = some statement →
        ∀ name ∈ statement.labels, Q name := by
  cases missing with
  | nil =>
    refine ⟨by simp [proceed, names], ?_⟩
    intro statement hstatement
    rw [← Option.some.inj hstatement, opened.statement_labels]
    exact h
  | cons wanted further => exact ⟨h, fun _ hstatement => nomatch hstatement⟩

theorem step_names {pending behind : Pending} {token : Token} {made : Option Statement}
    (hnames : ∀ name ∈ pending.names, Q name) (htoken : token.kind = .label → Q token.content)
    (h : pending.step token = .ok (made, behind)) :
    (∀ name ∈ behind.names, Q name) ∧
      ∀ statement, made = some statement → ∀ name ∈ statement.labels, Q name := by
  cases pending with
  | labels names =>
    rw [step] at h
    split at h
    · next hkind =>
      cases h
      refine ⟨?_, by simp⟩
      intro name hname
      rcases List.mem_append.1 hname with hname | hname
      · exact hnames name hname
      · rw [List.mem_singleton.1 hname]
        exact htoken hkind
    · split at h
      · next mnemonic _ =>
        have hopened : ∀ name ∈ Text.distinct names, Q name := fun name hname =>
          hnames name (Text.mem_of_mem_distinct hname)
        have hproceed := proceed_names ⟨Text.distinct names, mnemonic, token, []⟩
          hopened mnemonic.signature
        injection h with h
        rw [h] at hproceed
        exact hproceed
      · cases h
    · cases h
  | operands opened wanted further =>
    rw [step] at h
    split at h
    · have hproceed := proceed_names { opened with taken := opened.taken ++ [token] }
        hnames further
      injection h with h
      rw [h] at hproceed
      exact hproceed
    · cases h

theorem run_names {pending behind : Pending} {tokens : List Token} {statements : List Statement}
    (hnames : ∀ name ∈ pending.names, Q name)
    (htokens : ∀ token ∈ tokens, token.kind = .label → Q token.content)
    (h : pending.run tokens = .ok (statements, behind)) :
    ∀ statement ∈ statements, ∀ name ∈ statement.labels, Q name := by
  induction tokens generalizing pending statements with
  | nil =>
    cases h
    simp
  | cons token rest ih =>
    obtain ⟨⟨made, next⟩, further, hstep, hrest, rfl⟩ := run_cons_eq_ok h
    obtain ⟨hnext, hmade⟩ := step_names hnames (htokens token List.mem_cons_self) hstep
    have hfurther := ih hnext (fun t ht => htokens t (List.mem_cons_of_mem token ht)) hrest
    intro statement hstatement
    rcases List.mem_append.1 hstatement with hstatement | hstatement
    · exact hmade statement (Option.mem_toList.1 hstatement)
    · exact hfurther statement hstatement

end Pending

theorem Statement.read_labels {Q : Text → Prop} {tokens : List Token} {reading : Reading}
    (htokens : ∀ token ∈ tokens, token.kind = .label → Q token.content)
    (h : Statement.read tokens = .ok reading) :
    ∀ statement ∈ reading.statements, ∀ name ∈ statement.labels, Q name := by
  obtain ⟨pending, hrun, -⟩ := Statement.read_eq_ok.1 h
  exact Pending.run_names (by simp [Pending.names]) htokens hrun

end LittleComputer
