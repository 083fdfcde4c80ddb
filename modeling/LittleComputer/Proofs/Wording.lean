import LittleComputer.Proofs.ChangedReading
import LittleComputer.Proofs.Twins
import Mathlib.Tactic

/-! # Programs in other words

Each token of a program may be replaced by another spelling of it, or by several tokens that say the
same. Two readers go over both programs in step, token by token of the first.

* `Pending.Simulation`: what is to be shown of a single token, and `Pending.Simulation.read` what
  follows for all of them.
* `Token.Means`: a token in other words.
* `Pending.simulation_means`: readers over both programs hold the same.
* `Token.assemble_reworded`: both programs are assembled to the same words.
-/

namespace LittleComputer
set_option autoImplicit false

/-! ## Readers in step -/

/-- Reports that are turned into failures of one sort in one place. -/
def Diagnostic.Alike (d d' : Diagnostic) : Prop :=
  d.failure.Alike d'.failure

namespace Pending

def Stop.Alike (stop stop' : Stop) : Prop :=
  stop.diagnostic.Alike stop'.diagnostic

/-- Two readers go in step, where `means` relates a token of the one with the tokens that the other
has for it. `S` relates what they hold, and `R` the statements that they make. -/
structure Simulation (means : Token → List Token → Prop) (R : Statement → Statement → Prop)
    (S : Pending → Pending → Prop) : Prop where
  start : S (.labels []) (.labels [])
  token : ∀ {p p' : Pending} {t : Token} {us : List Token}, S p p' → means t us →
    Mirrors False False Stop.Alike
      (fun a b => List.Forall₂ R a.1 b.1 ∧ S a.2 b.2) (p.run [t]) (p'.run us)
  finish : ∀ {p p' : Pending}, S p p' →
    Mirrors False False Diagnostic.Alike (fun a b => b = a) p.finish p'.finish

namespace Simulation
variable {means : Token → List Token → Prop} {R : Statement → Statement → Prop}
  {S : Pending → Pending → Prop} {ts : List Token} {uss : List (List Token)}

theorem run (h : Simulation means R S) (hmeans : List.Forall₂ means ts uss) {p p' : Pending}
    (hp : S p p') :
    Mirrors False False Stop.Alike
      (fun a b => List.Forall₂ R a.1 b.1 ∧ S a.2 b.2) (p.run ts) (p'.run uss.flatten) := by
  induction hmeans generalizing p p' with
  | nil => exact .ok ⟨.nil, hp⟩
  | @cons t us ts uss hus _ ih =>
    have htoken : Mirrors False False Stop.Alike _
        ((p.run [t]).mapError fun stop => (⟨stop.diagnostic, stop.rest ++ ts⟩ : Stop))
        ((p'.run us).mapError fun stop => (⟨stop.diagnostic, stop.rest ++ uss.flatten⟩ : Stop)) :=
      (h.token hp hus).mapError fun _ _ => id
    rw [List.flatten_cons, ← List.singleton_append, run_append_eq, run_append_eq]
    refine htoken.bind fun a b hab => ?_
    exact (ih hab.2).map fun _ _ hfurther => ⟨List.rel_append hab.1 hfurther.1, hfurther.2⟩

theorem read (h : Simulation means R S) (hmeans : List.Forall₂ means ts uss) :
    Mirrors False False Diagnostic.Alike
      (fun r r' => List.Forall₂ R r.statements r'.statements ∧ r'.trailing = r.trailing)
      (Statement.read ts) (Statement.read uss.flatten) := by
  have hrun : Mirrors False False Diagnostic.Alike _
      (((labels []).run ts).mapError (·.diagnostic))
      (((labels []).run uss.flatten).mapError (·.diagnostic)) :=
    (h.run hmeans h.start).mapError fun _ _ => id
  rw [Statement.read_eq, Statement.read_eq]
  refine hrun.bind fun a b hab => ?_
  exact (h.finish hab.2).map fun _ _ htrailing => ⟨hab.1, htrailing⟩

end Simulation

/-! ## Operators -/

/-- An operator never fills the place of an operand. -/
theorem run_operands_operator (opened : Opened) (wanted : OperandKind) (further : List OperandKind)
    {t : Token} (hkind : t.kind = .operator) (rest : List Token) :
    (operands opened wanted further).run (t :: rest) = .error
      ⟨.plain (.operandMismatch opened.mnemonic (opened.taken.length + 1) wanted t)
        (some t.location), rest⟩ := by
  have haccepts : wanted.accepts .operator = false := by
    cases wanted <;> rfl
  have hstep : (operands opened wanted further).step t = .error
      (.plain (.operandMismatch opened.mnemonic (opened.taken.length + 1) wanted t)
        (some t.location)) := by
    simp [step, hkind, haccepts]
  rw [run_cons, hstep]
  rfl

theorem run_operator (names : List Text) {t : Token} {mnemonic : Mnemonic} {operands : List Token}
    (hkind : t.kind = .operator) (hspelled : Mnemonic.ofSpelling? t.content = some mnemonic)
    (hfills : Fills mnemonic.signature operands) :
    (labels names).run (t :: operands) =
      .ok ([Opened.statement ⟨Text.distinct names, mnemonic, t, operands⟩], labels []) := by
  have hstep : (labels names).step t =
      .ok (proceed ⟨Text.distinct names, mnemonic, t, []⟩ mnemonic.signature) := by
    simp only [step, hkind, hspelled]
  have hresume := resume_operands hfills ⟨Text.distinct names, mnemonic, t, []⟩ []
  rw [List.append_nil] at hresume
  rw [run_of_step hstep, hresume]
  rfl

/-- A trap alias is read as the trap with its vector. -/
theorem run_alias {t : Token} {mnemonic : Mnemonic} {vector : Nat} (hkind : t.kind = .operator)
    (hspelled : Mnemonic.ofSpelling? t.content = some mnemonic)
    (hvector : mnemonic.trapVector? = some vector) (pending : Pending) :
    Mirrors False False Stop.Alike (fun a b => b = a)
      (pending.run [t])
      (pending.run [⟨.operator, Mnemonic.trap.spelling, t.location⟩,
        aliasToken vector t.location]) := by
  cases pending with
  | operands opened wanted further =>
    rw [run_operands_operator _ _ _ hkind, run_operands_operator _ _ _ rfl]
    exact .error ⟨rfl, rfl⟩
  | labels names =>
    have hfills : Fills Mnemonic.trap.signature [aliasToken vector t.location] := .cons rfl .nil
    have hsignature : mnemonic.signature = [] := by
      cases mnemonic <;> first | rfl | cases hvector
    rw [run_operator names hkind hspelled (hsignature ▸ .nil),
      run_operator names rfl (Mnemonic.ofSpelling?_spelling .trap) hfills]
    refine .ok ?_
    simp only [Opened.statement, hvector]
    rfl

end Pending

/-! ## Tokens in other words -/

/-- What may stand for a token: another spelling, the trap behind an alias, and the jump that a
return is. -/
inductive Token.Means (t : Token) : List Token → Prop
  | spelled {u : Token} (h : t.Twins u) : Means t [u]
  | asTrap {mnemonic : Mnemonic} {vector : Nat} (hkind : t.kind = .operator)
    (hspelled : Mnemonic.ofSpelling? t.content = some mnemonic)
    (hvector : mnemonic.trapVector? = some vector) :
    Means t [⟨.operator, Mnemonic.trap.spelling, t.location⟩, aliasToken vector t.location]
  | goBack (hkind : t.kind = .operator) (hspelled : Mnemonic.ofSpelling? t.content = some .ret) :
    Means t [⟨.operator, Mnemonic.jmp.spelling, t.location⟩,
      ⟨.register, "R7".toList, t.location⟩]

theorem Statement.Reworded.refl (s : Statement) : s.Reworded s :=
  .spelled rfl rfl (.same _) (List.forall₂_same.2 fun t _ => .refl t)

/-- Statements under construction that lack the same operands. -/
structure Opened.Twins (o o' : Opened) : Prop where
  labels : o'.labels = o.labels
  mnemonic : o.mnemonic.Twins o'.mnemonic
  operator : o'.operator.location = o.operator.location
  taken : List.Forall₂ Token.Twins o.taken o'.taken

/-- What two readers hold between two tokens. -/
inductive Pending.Twins : Pending → Pending → Prop
  | labels (names : List Text) : Twins (.labels names) (.labels names)
  | operands {o o' : Opened} (h : o.Twins o') (wanted : OperandKind)
    (further : List OperandKind) : Twins (.operands o wanted further) (.operands o' wanted further)

theorem Pending.Twins.refl (pending : Pending) : pending.Twins pending := by
  cases pending with
  | labels names => exact .labels names
  | operands opened wanted further =>
    exact .operands ⟨rfl, .same _, rfl, List.forall₂_same.2 fun t _ => .refl t⟩ wanted further

theorem Opened.Twins.statement {o o' : Opened} (h : o.Twins o') :
    o.statement.Reworded o'.statement := by
  unfold Opened.statement
  rw [h.mnemonic.trapVector?_eq, h.operator, h.labels]
  split
  · exact .refl _
  · exact .spelled rfl rfl h.mnemonic h.taken

theorem Opened.Twins.proceed {o o' : Opened} (h : o.Twins o') (missing : List OperandKind) :
    Option.Rel Statement.Reworded (Pending.proceed o missing).1 (Pending.proceed o' missing).1 ∧
      (Pending.proceed o missing).2.Twins (Pending.proceed o' missing).2 := by
  cases missing with
  | nil => exact ⟨.some h.statement, .labels []⟩
  | cons wanted further => exact ⟨.none, .operands h wanted further⟩

namespace Pending
variable {p p' : Pending} {t u : Token}

theorem step_twins (h : p.Twins p') (ht : t.Twins u) :
    Mirrors False False Diagnostic.Alike
      (fun a b => Option.Rel Statement.Reworded a.1 b.1 ∧ a.2.Twins b.2) (p.step t)
      (p'.step u) := by
  cases h with
  | labels names =>
    simp only [step, ht.kind]
    split
    · next hkind =>
      rw [ht.content (.inl hkind)]
      exact .ok ⟨.none, .labels _⟩
    · next hkind =>
      have hspelled := ht.operator hkind
      generalize Mnemonic.ofSpelling? t.content = spelled at hspelled ⊢
      generalize Mnemonic.ofSpelling? u.content = spelled' at hspelled ⊢
      cases hspelled with
      | none => exact .error ⟨rfl, congrArg some ht.location⟩
      | @some m m' hm =>
        have hopened : Opened.Twins ⟨Text.distinct names, m, t, []⟩
            ⟨Text.distinct names, m', u, []⟩ :=
          ⟨rfl, hm, ht.location, .nil⟩
        simp only [hm.signature_eq]
        exact .ok (hopened.proceed m.signature)
    · exact .error ⟨rfl, congrArg some ht.location⟩
  | @operands o o' ho wanted further =>
    simp only [step, ht.kind]
    split
    · have hopened : Opened.Twins { o with taken := o.taken ++ [t] }
          { o' with taken := o'.taken ++ [u] } :=
        ⟨ho.labels, ho.mnemonic, ho.operator, List.rel_append ho.taken (.cons ht .nil)⟩
      exact .ok (hopened.proceed further)
    · exact .error ⟨rfl, congrArg some ht.location⟩

theorem run_twins (h : p.Twins p') (ht : t.Twins u) :
    Mirrors False False Stop.Alike
      (fun a b => List.Forall₂ Statement.Reworded a.1 b.1 ∧ a.2.Twins b.2) (p.run [t])
      (p'.run [u]) := by
  have hstep : Mirrors False False Stop.Alike _
      ((p.step t).mapError fun e => (⟨e, []⟩ : Stop))
      ((p'.step u).mapError fun e => (⟨e, []⟩ : Stop)) :=
    (step_twins h ht).mapError fun _ _ => id
  rw [run_cons, run_cons]
  refine hstep.bind fun ⟨made, behind⟩ ⟨made', behind'⟩ hab => .ok ⟨?_, hab.2⟩
  cases hab.1 with
  | none => exact .nil
  | some hs => exact .cons hs .nil

/-- Both readers hold the same, whichever words a token is put in. -/
theorem simulation_means : Simulation Token.Means Statement.Reworded Pending.Twins where
  start := .labels []
  token := by
    intro p p' t us hp ht
    cases ht with
    | spelled h => exact run_twins hp h
    | asTrap hkind hspelled hvector =>
      cases hp with
      | labels names =>
        refine (run_alias hkind hspelled hvector _).imp (fun _ _ => id) fun a b heq => ?_
        rw [heq]
        exact ⟨List.forall₂_same.2 fun s _ => .refl s, .refl a.2⟩
      | operands ho wanted further =>
        rw [run_operands_operator _ _ _ hkind, run_operands_operator _ _ _ rfl]
        exact .error ⟨rfl, rfl⟩
    | goBack hkind hspelled =>
      cases hp with
      | labels names =>
        have hfills : Fills Mnemonic.jmp.signature [⟨.register, "R7".toList, t.location⟩] :=
          .cons rfl .nil
        rw [run_operator names hkind hspelled .nil,
          run_operator names rfl (Mnemonic.ofSpelling?_spelling .jmp) hfills]
        exact .ok ⟨.cons (.goBack _ _ _) .nil, .labels []⟩
      | operands ho wanted further =>
        rw [run_operands_operator _ _ _ hkind, run_operands_operator _ _ _ rfl]
        exact .error ⟨rfl, rfl⟩
  finish := by
    intro p p' hp
    cases hp with
    | labels names => exact .ok rfl
    | operands ho wanted further => exact .error ⟨rfl, congrArg some ho.operator⟩

end Pending

/-! ## Programs -/

/-- Assemblies with the same table and the same blocks. -/
structure Assembly.Twins (a a' : Assembly) : Prop where
  symbols : a'.symbols = a.symbols
  blocks : List.Forall₂ Block.Twins a.blocks a'.blocks

theorem Assembly.Twins.blockAddresses {a a' : Assembly} (h : a.Twins a') :
    a'.blocks.map Block.address = a.blocks.map Block.address :=
  map_eq_of_forall₂ h.blocks fun _ _ hb => hb.address

theorem Assembly.Twins.blockWords {a a' : Assembly} (h : a.Twins a') :
    a'.blocks.map Block.words = a.blocks.map Block.words :=
  map_eq_of_forall₂ h.blocks fun _ _ hb => hb.words

theorem Assembly.Twins.words {a a' : Assembly} (h : a.Twins a') : a'.words = a.words := by
  simp only [Assembly.words, Block.allWords, List.flatMap_def, h.blockWords]

theorem Token.assemble_reworded {ts : List Token} {uss : List (List Token)}
    (h : List.Forall₂ Token.Means ts uss) :
    Mirrors False False (fun e e' => e'.1 = e.1 ∧ e.2.Alike e'.2) Assembly.Twins
      (Token.assemble ts) (Token.assemble uss.flatten) := by
  have hread : Mirrors False False (fun e e' => e'.1 = e.1 ∧ e.2.Alike e'.2) _
      ((Statement.read ts).mapError fun d => (Stage.reading, d.failure))
      ((Statement.read uss.flatten).mapError fun d => (Stage.reading, d.failure)) :=
    (Pending.simulation_means.read h).attach.mapError fun _ _ hd => ⟨rfl, hd⟩
  refine hread.bind fun r r' ⟨hok, hr⟩ => ?_
  have hcomplete : ∀ s ∈ r.statements, s.Complete fun _ => True :=
    Statement.read_complete (fun _ _ _ _ => trivial) (fun _ _ => trivial) hok
  have htwins : List.Forall₂ Statement.Twins r.statements r'.statements :=
    ((List.forall₂_and_left _ _).2 ⟨hcomplete, hr.1⟩).imp fun _ _ hs => hs.2.twins hs.1.fills
  refine ((SymbolTable.extend_twins htwins .empty none).mapError fun _ _ he => ⟨rfl, he⟩).bind
    fun table table' htable => ?_
  rw [htable]
  refine ((Block.encodeFrom_twins htwins table none).mapError fun _ _ he => ⟨rfl, he⟩).bind
    fun blocks blocks' hblocks => ?_
  exact .ok ⟨rfl, hblocks⟩

end LittleComputer
