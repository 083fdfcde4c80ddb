import LittleComputer.Assembly
import LittleComputer.Proofs.Lexical
import LittleComputer.Proofs.Literal
import Mathlib.Tactic

/-! # The statements of a source

What the reader promises to both walks: the labels of a statement differ, its operator is no trap
alias, and its operands fill the places of the operator's signature one by one.

* `Pending.Sound`: what holds between two tokens.
* `Pending.step_sound`, `Pending.run_complete`: one token keeps it, so every statement of a run is
  complete.
* `Source.read_wellFormed`: the statements of a source.
-/

namespace LittleComputer
set_option autoImplicit false

/-- A token of an accepted kind for every operand that is asked for. -/
abbrev Fills : List OperandKind → List Token → Prop :=
  List.Forall₂ fun wanted token => wanted.accepts token.kind = true

/-- A statement with all operands of its operator, each of which satisfies `P`. -/
structure Statement.Complete (P : Token → Prop) (statement : Statement) : Prop where
  nodup : statement.labels.Nodup
  noAlias : statement.mnemonic.trapVector? = none
  fills : Fills statement.mnemonic.signature statement.operands
  operands : ∀ token ∈ statement.operands, P token

/-- A statement that a source can hold. -/
abbrev Statement.WellFormed : Statement → Prop :=
  Statement.Complete Token.IsLexical

/-! ## Labels and aliases -/

theorem Text.distinct_nodup (names : List Text) : (Text.distinct names).Nodup := by
  induction names with
  | nil => exact List.nodup_nil
  | cons name rest ih =>
    rw [Text.distinct, List.nodup_cons]
    refine ⟨?_, ih.filter _⟩
    intro hmem
    have hne := (List.mem_filter.1 hmem).2
    simp at hne

/-- The immediate that stands for a trap alias. -/
def aliasToken (vector : Nat) (location : Location) : Token :=
  ⟨.immediate, 'x' :: Numeral.digits 16 vector, location⟩

theorem aliasToken_isLexical {mnemonic : Mnemonic} {vector : Nat}
    (h : mnemonic.trapVector? = some vector) (location : Location) :
    (aliasToken vector location).IsLexical := by
  have hcontent : ∀ n ∈ [0x20, 0x21, 0x22, 0x23, 0x24, 0x25],
      ('x' :: Numeral.digits 16 n).all isWordChar = true ∧
        TokenKind.ofWord ('x' :: Numeral.digits 16 n) = .immediate := by
    decide +kernel
  have hvector : vector ∈ [0x20, 0x21, 0x22, 0x23, 0x24, 0x25] := by
    cases mnemonic <;> cases h <;> decide
  obtain ⟨hword, hkind⟩ := hcontent vector hvector
  exact ⟨List.cons_ne_nil _ _, List.all_eq_true.1 hword, by simp [aliasToken], hkind⟩

/-! ## Computations that can fail -/

theorem ok_bind {ε α β : Type} (a : α) (f : α → Except ε β) : ((.ok a : Except ε α) >>= f) = f a :=
  rfl

theorem bind_eq_ok {ε α β : Type} {x : Except ε α} {f : α → Except ε β} {b : β} :
    x.bind f = .ok b ↔ ∃ a, x = .ok a ∧ f a = .ok b := by
  cases x <;> simp [Except.bind]

theorem map_eq_ok {ε α β : Type} {x : Except ε α} {f : α → β} {b : β} :
    x.map f = .ok b ↔ ∃ a, x = .ok a ∧ f a = b := by
  cases x <;> simp [Except.map]

theorem mapError_eq_ok {ε ε' α : Type} {x : Except ε α} {f : ε → ε'} {a : α} :
    x.mapError f = .ok a ↔ x = .ok a := by
  cases x <;> simp [Except.mapError]

/-! ## The reader -/

section Reader
variable {P : Token → Prop}

/-- What is known of a statement that still lacks operands: those met so far fill the first places
of the signature. -/
structure Opened.Sound (P : Token → Prop) (opened : Opened) (missing : List OperandKind) :
    Prop where
  nodup : opened.labels.Nodup
  taken : ∀ token ∈ opened.taken, P token
  fills : ∃ met, opened.mnemonic.signature = met ++ missing ∧ Fills met opened.taken

/-- What holds between two tokens. -/
def Pending.Sound (P : Token → Prop) : Pending → Prop
  | .labels _ => True
  | .operands opened wanted further => opened.Sound P (wanted :: further)

/-- The tokens that stand for trap aliases satisfy a property. -/
def AliasesSatisfy (P : Token → Prop) : Prop :=
  ∀ (mnemonic : Mnemonic) (vector : Nat) (location : Location),
    mnemonic.trapVector? = some vector → P (aliasToken vector location)

theorem Opened.Sound.statement {opened : Opened} (halias : AliasesSatisfy P)
    (h : opened.Sound P []) : opened.statement.Complete P := by
  obtain ⟨met, hsignature, hfills⟩ := h.fills
  rw [List.append_nil] at hsignature
  unfold Opened.statement
  split
  · next vector hvector =>
    refine ⟨h.nodup, rfl, .cons rfl .nil, ?_⟩
    intro token htoken
    rw [List.mem_singleton.1 htoken]
    exact halias _ vector _ hvector
  · next hvector => exact ⟨h.nodup, hvector, hsignature ▸ hfills, h.taken⟩

theorem Pending.proceed_sound {opened : Opened} {missing : List OperandKind}
    (halias : AliasesSatisfy P) (h : opened.Sound P missing) :
    (proceed opened missing).2.Sound P ∧
      ∀ statement, (proceed opened missing).1 = some statement → statement.Complete P := by
  cases missing with
  | nil =>
    refine ⟨trivial, ?_⟩
    intro statement hstatement
    rw [← Option.some.inj hstatement]
    exact h.statement halias
  | cons wanted further => exact ⟨h, fun _ hstatement => nomatch hstatement⟩

/-- One token keeps the reader sound, and a statement that it ends is complete. -/
theorem Pending.step_sound {pending behind : Pending} {token : Token} {made : Option Statement}
    (halias : AliasesSatisfy P) (hsound : pending.Sound P) (htoken : P token)
    (h : pending.step token = .ok (made, behind)) :
    behind.Sound P ∧ ∀ statement, made = some statement → statement.Complete P := by
  cases pending with
  | labels names =>
    rw [Pending.step] at h
    split at h
    · cases h
      exact ⟨trivial, fun _ hstatement => nomatch hstatement⟩
    · split at h
      · next mnemonic hmnemonic =>
        have hopened : Opened.Sound P ⟨Text.distinct names, mnemonic, token, []⟩
            mnemonic.signature :=
          ⟨Text.distinct_nodup names, by simp, [], rfl, .nil⟩
        have hproceed := proceed_sound halias hopened
        injection h with h
        rw [h] at hproceed
        exact hproceed
      · cases h
    · cases h
  | operands opened wanted further =>
    rw [Pending.step] at h
    split at h
    · next haccepts =>
      obtain ⟨met, hsignature, hfills⟩ := hsound.fills
      have hopened : Opened.Sound P { opened with taken := opened.taken ++ [token] } further := by
        refine ⟨hsound.nodup, ?_, met ++ [wanted], ?_, ?_⟩
        · intro t ht
          rcases List.mem_append.1 ht with ht | ht
          · exact hsound.taken t ht
          · rw [List.mem_singleton.1 ht]
            exact htoken
        · rw [List.append_assoc]
          exact hsignature
        · exact List.rel_append hfills (.cons haccepts .nil)
      have hproceed := proceed_sound halias hopened
      injection h with h
      rw [h] at hproceed
      exact hproceed
    · cases h

/-- Every statement of a run is complete. -/
theorem Pending.run_complete {pending behind : Pending} {tokens : List Token}
    {statements : List Statement} (halias : AliasesSatisfy P) (hsound : pending.Sound P)
    (htokens : ∀ token ∈ tokens, P token) (h : pending.run tokens = .ok (statements, behind)) :
    ∀ statement ∈ statements, statement.Complete P := by
  induction tokens generalizing pending statements with
  | nil =>
    cases h
    simp
  | cons token rest ih =>
    have htoken := htokens token List.mem_cons_self
    have hrest : ∀ t ∈ rest, P t := fun t ht => htokens t (List.mem_cons_of_mem token ht)
    rw [Pending.run] at h
    split at h
    · cases h
    · next hstep => exact ih (step_sound halias hsound htoken hstep).1 hrest h
    · next made next hstep =>
      obtain ⟨hnext, hmade⟩ := step_sound halias hsound htoken hstep
      split at h
      · cases h
      · next further _ hrun =>
        cases h
        intro statement hstatement
        rcases List.mem_cons.1 hstatement with rfl | hstatement
        · exact hmade statement rfl
        · exact ih hnext hrest hrun statement hstatement

theorem Statement.read_complete {tokens : List Token} {reading : Reading}
    (halias : AliasesSatisfy P) (htokens : ∀ token ∈ tokens, P token)
    (h : Statement.read tokens = .ok reading) :
    ∀ statement ∈ reading.statements, statement.Complete P := by
  unfold Statement.read Statement.readAll at h
  split at h
  · cases h
  · next statements pending hrun =>
    split at h
    · cases h
    · cases h
      have hstart : (Pending.labels []).Sound P := trivial
      exact Pending.run_complete halias hstart htokens hrun

end Reader

/-! ## Sources -/

namespace Source

theorem read_eq_ok {source : Source} {tokens : List Token} {reading : Reading}
    (h : source.read = .ok (tokens, reading)) :
    source.tokens = .ok tokens ∧ Statement.read tokens = .ok reading := by
  unfold Source.read at h
  split at h
  · cases h
  · next htokens =>
    split at h
    · cases h
    · next hread =>
      cases h
      exact ⟨htokens, hread⟩

theorem read_wellFormed {source : Source} {tokens : List Token} {reading : Reading}
    (h : source.read = .ok (tokens, reading)) :
    ∀ statement ∈ reading.statements, statement.WellFormed := by
  obtain ⟨htokens, hread⟩ := read_eq_ok h
  exact Statement.read_complete (fun _ _ location hvector => aliasToken_isLexical hvector location)
    (tokens_isLexical htokens) hread

/-- The strings of a program are not longer than its source. -/
theorem read_string_length {source : Source} {tokens : List Token} {reading : Reading}
    (h : source.read = .ok (tokens, reading)) :
    ∀ statement ∈ reading.statements, ∀ token ∈ statement.operands, token.kind = .string →
      token.content.length ≤ source.text.length := by
  obtain ⟨htokens, hread⟩ := read_eq_ok h
  intro statement hstatement
  refine (Statement.read_complete (P := fun token => token.kind = .string →
    token.content.length ≤ source.text.length) ?_ ?_ hread statement hstatement).operands
  · intro mnemonic vector location _ hkind
    exact TokenKind.noConfusion hkind
  · intro token htoken _
    exact tokens_content_length htokens token htoken

end Source

/-! ## Values of operands -/

namespace OperandKind

theorem accepts_register {kind : TokenKind} (h : register.accepts kind = true) :
    kind = .register := by
  cases kind <;> first | rfl | cases h

theorem accepts_immediate {kind : TokenKind} (h : immediate.accepts kind = true) :
    kind = .immediate := by
  cases kind <;> first | rfl | cases h

theorem accepts_registerOrImmediate {kind : TokenKind}
    (h : registerOrImmediate.accepts kind = true) : kind = .register ∨ kind = .immediate := by
  cases kind <;> first | exact .inl rfl | exact .inr rfl | cases h

theorem accepts_number {kind : TokenKind} (h : number.accepts kind = true) : kind = .number := by
  cases kind <;> first | rfl | cases h

theorem accepts_label {kind : TokenKind} (h : label.accepts kind = true) : kind = .label := by
  cases kind <;> first | rfl | cases h

theorem accepts_string {kind : TokenKind} (h : string.accepts kind = true) : kind = .string := by
  cases kind <;> first | rfl | cases h

end OperandKind

theorem Fills.one {k : OperandKind} {operands : List Token} (h : Fills [k] operands) :
    ∃ a, operands = [a] ∧ k.accepts a.kind = true := by
  obtain _ | ⟨ha, ⟨⟩⟩ := h
  exact ⟨_, rfl, ha⟩

theorem Fills.two {k l : OperandKind} {operands : List Token} (h : Fills [k, l] operands) :
    ∃ a b, operands = [a, b] ∧ k.accepts a.kind = true ∧ l.accepts b.kind = true := by
  obtain _ | ⟨ha, hrest⟩ := h
  obtain ⟨b, rfl, hb⟩ := Fills.one hrest
  exact ⟨_, b, rfl, ha, hb⟩

theorem Fills.three {k l m : OperandKind} {operands : List Token} (h : Fills [k, l, m] operands) :
    ∃ a b c, operands = [a, b, c] ∧ k.accepts a.kind = true ∧ l.accepts b.kind = true ∧
      m.accepts c.kind = true := by
  obtain _ | ⟨ha, hrest⟩ := h
  obtain ⟨b, c, rfl, hb, hc⟩ := Fills.two hrest
  exact ⟨_, b, c, rfl, ha, hb, hc⟩

namespace Token.IsLexical
open Numeral

theorem registerNumber {token : Token} (h : token.IsLexical) (hkind : token.kind = .register) :
    ∃ number < 8, token.registerNumber = .ok number := by
  have hword := h.ofWord_eq (by rw [hkind]; exact TokenKind.noConfusion)
  rw [hkind] at hword
  exact registerNumber_of_isRegister hkind (TokenKind.isRegister_of_ofWord hword)

theorem immediateValue {token : Token} (h : token.IsLexical) (hkind : token.kind = .immediate) :
    (∃ value, token.immediateValue = .ok value ∧
        (token.WithinLimits → value.natAbs < 10 ^ limit)) ∨
      ∃ fault, token.immediateValue = .error (.fault fault) ∧ ¬ token.WithinLimits := by
  have hword := h.ofWord_eq (by rw [hkind]; exact TokenKind.noConfusion)
  rw [hkind] at hword
  exact immediateValue_outcome hkind (TokenKind.isImmediate_of_ofWord hword)

theorem numberValue {token : Token} (h : token.IsLexical) (hkind : token.kind = .number) :
    (∃ value, token.numberValue = .ok value ∧
        (token.WithinLimits → value.natAbs < 10 ^ limit)) ∨
      ∃ fault, token.numberValue = .error (.fault fault) ∧ ¬ token.WithinLimits := by
  have hword := h.ofWord_eq (by rw [hkind]; exact TokenKind.noConfusion)
  rw [hkind] at hword
  exact numberValue_outcome hkind (TokenKind.isNumber_of_ofWord hword)

end Token.IsLexical

/-! ## Origins and sizes -/

namespace Statement
open Numeral

/-- A statement within the limits of numbers: so are its literals, and a block has no more words
than can be counted. -/
def WithinLimits (statement : Statement) : Prop :=
  (∀ token ∈ statement.operands, token.WithinLimits) ∧
    (statement.mnemonic = .blkw → ∀ token ∈ statement.operands, ∀ count,
      token.numberValue = .ok count → count ≤ maxBlock)

/-- A condition on the result of a computation is checked where there is one. -/
instance {ε α : Type} (x : Except ε α) (p : α → Prop) [DecidablePred p] :
    Decidable (∀ a, x = .ok a → p a) :=
  match x with
  | .ok a => decidable_of_iff (p a) ⟨fun h _ heq => Except.ok.inj heq ▸ h, fun h => h a rfl⟩
  | .error _ => .isTrue fun _ heq => nomatch heq

/-- That a computation has a result with a property is checked on the result. -/
instance {ε α : Type} (x : Except ε α) (p : α → Prop) [DecidablePred p] :
    Decidable (∃ a, x = .ok a ∧ p a) :=
  match x with
  | .ok a => decidable_of_iff (p a) ⟨fun h => ⟨a, rfl, h⟩, fun ⟨_, heq, h⟩ => Except.ok.inj heq ▸ h⟩
  | .error _ => .isFalse fun ⟨_, heq, _⟩ => nomatch heq

instance (statement : Statement) : Decidable statement.WithinLimits :=
  inferInstanceAs (Decidable ((∀ token ∈ statement.operands, token.WithinLimits) ∧
    (statement.mnemonic = .blkw → ∀ token ∈ statement.operands, ∀ count,
      token.numberValue = .ok count → count ≤ maxBlock)))

theorem footprint_of_ne {statement : Statement} (hstringz : statement.mnemonic ≠ .stringz)
    (hblkw : statement.mnemonic ≠ .blkw) : statement.footprint = .ok 1 := by
  unfold footprint
  split
  · exact absurd ‹_› hstringz
  · exact absurd ‹_› hblkw
  · rfl

theorem WellFormed.stringz {statement : Statement} (h : statement.WellFormed)
    (hstringz : statement.mnemonic = .stringz) :
    ∃ token, statement.operands = [token] ∧ token.kind = .string ∧
      statement.footprint = .ok (token.content.tail.dropLast.length + 1) := by
  have hfills := h.fills
  rw [hstringz] at hfills
  obtain ⟨token, hoperands, haccepts⟩ := Fills.one hfills
  have hkind := OperandKind.accepts_string haccepts
  refine ⟨token, hoperands, hkind, ?_⟩
  rw [footprint, hstringz]
  simp only [firstOperand, hoperands, bind, Except.bind, Token.stringText_eq hkind]

theorem WellFormed.blkw {statement : Statement} (h : statement.WellFormed)
    (hblkw : statement.mnemonic = .blkw) :
    ∃ token, statement.operands = [token] ∧ token.kind = .number ∧ token.IsLexical ∧
      statement.footprint = token.numberValue.map Int.toNat := by
  have hfills := h.fills
  rw [hblkw] at hfills
  obtain ⟨token, hoperands, haccepts⟩ := Fills.one hfills
  refine ⟨token, hoperands, OperandKind.accepts_number haccepts,
    h.operands token (by rw [hoperands]; exact List.mem_singleton_self token), ?_⟩
  rw [footprint, hblkw]
  simp only [firstOperand, hoperands, bind, Except.bind]
  cases token.numberValue <;> rfl

/-- The size of a statement exists unless a literal breaks the limits. -/
theorem WellFormed.footprint_outcome {statement : Statement} (h : statement.WellFormed) :
    (∃ size, statement.footprint = .ok size) ∨
      ∃ fault, statement.footprint = .error (.fault fault) ∧ ¬ statement.WithinLimits := by
  by_cases hstringz : statement.mnemonic = .stringz
  · obtain ⟨token, -, -, hsize⟩ := h.stringz hstringz
    exact .inl ⟨_, hsize⟩
  · by_cases hblkw : statement.mnemonic = .blkw
    · obtain ⟨token, hoperands, hkind, hlexical, hsize⟩ := h.blkw hblkw
      rw [hsize]
      rcases hlexical.numberValue hkind with ⟨count, hcount, -⟩ | ⟨fault, hfault, hlimits⟩
      · exact .inl ⟨count.toNat, by rw [hcount]; rfl⟩
      · refine .inr ⟨fault, by rw [hfault]; rfl, fun hwithin => hlimits ?_⟩
        exact hwithin.1 token (by rw [hoperands]; exact List.mem_singleton_self token)
    · exact .inl ⟨1, footprint_of_ne hstringz hblkw⟩

/-- No statement within the limits is much longer than a block or a string may be. -/
theorem WellFormed.footprint_le {statement : Statement} {size : Nat} (h : statement.WellFormed)
    (hlimits : statement.WithinLimits)
    (hstrings : ∀ token ∈ statement.operands, token.kind = .string →
      token.content.length ≤ maxBlock)
    (hsize : statement.footprint = .ok size) : size ≤ maxBlock + 1 := by
  by_cases hstringz : statement.mnemonic = .stringz
  · obtain ⟨token, hoperands, hkind, hfootprint⟩ := h.stringz hstringz
    have hlength := hstrings token (by rw [hoperands]; exact List.mem_singleton_self token) hkind
    rw [hfootprint] at hsize
    have hsize := Except.ok.inj hsize
    rw [List.length_dropLast, List.length_tail] at hsize
    omega
  · by_cases hblkw : statement.mnemonic = .blkw
    · obtain ⟨token, hoperands, hkind, hlexical, hfootprint⟩ := h.blkw hblkw
      rw [hfootprint] at hsize
      cases hcount : token.numberValue with
      | error failure => rw [hcount] at hsize; cases hsize
      | ok count =>
        have hle := hlimits.2 hblkw token (by rw [hoperands]; exact List.mem_singleton_self token)
          count hcount
        rw [hcount] at hsize
        have hsize : count.toNat = size := Except.ok.inj hsize
        omega
    · rw [footprint_of_ne hstringz hblkw] at hsize
      have hsize := Except.ok.inj hsize
      omega

/-- The value of an `.ORIG` exists unless its literal breaks the limits. -/
theorem WellFormed.origin_outcome {statement : Statement} (h : statement.WellFormed)
    (horig : statement.mnemonic = .orig) :
    (∃ value, statement.origin = .ok value ∧
        (statement.WithinLimits → value.natAbs < 10 ^ limit)) ∨
      ∃ fault, statement.origin = .error (.fault fault) ∧ ¬ statement.WithinLimits := by
  have hfills := h.fills
  rw [horig] at hfills
  obtain ⟨token, hoperands, haccepts⟩ := Fills.one hfills
  have hmem : token ∈ statement.operands := by rw [hoperands]; exact List.mem_singleton_self token
  have horigin : statement.origin = token.immediateValue := by
    simp only [origin, firstOperand, hoperands, bind, Except.bind]
  rw [horigin]
  rcases (h.operands token hmem).immediateValue (OperandKind.accepts_immediate haccepts) with
    ⟨value, hvalue, hlt⟩ | ⟨fault, hfault, hlimits⟩
  · exact .inl ⟨value, hvalue, fun hwithin => hlt (hwithin.1 token hmem)⟩
  · exact .inr ⟨fault, hfault, fun hwithin => hlimits (hwithin.1 token hmem)⟩

end Statement

end LittleComputer
