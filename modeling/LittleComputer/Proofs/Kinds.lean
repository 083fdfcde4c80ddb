import LittleComputer.Proofs.Encoding
import Mathlib.Tactic

/-! # Kinds of operands

The reader gives every operator operands of the kinds that it asks for. So neither walk over the
statements of a source ever asks a token for a value that its kind does not have.

* `KeepsKinds`: a computation that does not end so.
* `Statement.WellFormed.encode_keepsKinds`: one statement of the second walk.
* `SymbolTable.extend_keepsKinds`, `Block.encodeFrom_keepsKinds`: both walks.
-/

namespace LittleComputer
set_option autoImplicit false

/-- The computation asks no token for a value that its kind does not have. -/
def KeepsKinds {α : Type} (x : Except Failure α) : Prop :=
  ∀ wanted found, x ≠ .error (.fault (.wrongKind wanted found))

namespace KeepsKinds
variable {α β : Type}

theorem ok (a : α) : KeepsKinds (.ok a) := by
  intro _ _ h
  cases h

theorem bind {x : Except Failure α} {f : α → Except Failure β} (hx : KeepsKinds x)
    (hf : ∀ a, KeepsKinds (f a)) : KeepsKinds (x >>= f) := by
  cases x with
  | ok a => exact hf a
  | error e =>
    intro wanted found h
    exact hx wanted found (congrArg Except.error (Except.error.inj h))

theorem report (diagnostic : Diagnostic) :
    KeepsKinds (.error diagnostic.failure : Except Failure α) := by
  intro wanted found h
  have h := Except.error.inj h
  unfold Diagnostic.failure at h
  split at h
  · cases h
  · split at h <;> cases h

end KeepsKinds

theorem encodeField_keepsKinds (value : Int) (bits : Nat) (location : Option Location) :
    KeepsKinds (encodeField value bits location) := by
  unfold encodeField
  split
  · intro _ _ h
    cases h
  · split
    · exact .ok _
    · exact .report _

/-! ## Values of tokens -/

namespace Token
variable {token : Token}

theorem readNumeral_keepsKinds (base : Nat) (text : Text) : KeepsKinds (readNumeral base text) := by
  unfold readNumeral
  cases Numeral.read base text with
  | ok value => exact .ok value
  | error defect =>
    intro _ _ h
    cases h

theorem registerBits_keepsKinds (h : token.kind = .register) (place : Nat) :
    KeepsKinds (token.registerBits place) := by
  unfold registerBits registerNumber
  rw [require_eq_ok h]
  refine .bind ?_ fun number => .ok _
  simp only [ok_bind]
  split
  · split
    · exact .ok _
    · intro _ _ h
      cases h
  · intro _ _ h
    cases h

theorem immediateValue_keepsKinds (h : token.kind = .immediate) :
    KeepsKinds token.immediateValue := by
  unfold immediateValue
  rw [require_eq_ok h]
  simp only [ok_bind]
  split
  · exact readNumeral_keepsKinds _ _
  · intro _ _ h
    cases h

theorem numberValue_keepsKinds (h : token.kind = .number) : KeepsKinds token.numberValue := by
  unfold numberValue
  rw [require_eq_ok h]
  exact readNumeral_keepsKinds _ _

theorem immediateBits_keepsKinds (h : token.kind = .immediate) (bits : Nat) :
    KeepsKinds (token.immediateBits bits) := by
  refine .bind (immediateValue_keepsKinds h) fun value => ?_
  exact .bind (encodeField_keepsKinds value bits _) fun field => .ok _

theorem offsetBits_keepsKinds (h : token.kind = .label) (table : SymbolTable) (origin : Int)
    (bits : Nat) : KeepsKinds (token.offsetBits table origin bits) := by
  have haddress : KeepsKinds (token.labelAddress table) := by
    rw [labelAddress, labelName_eq h, ok_bind]
    split
    · exact .ok _
    · exact .report _
  refine .bind haddress fun address => ?_
  exact .bind (encodeField_keepsKinds _ bits _) fun field => .ok _

end Token

/-! ## Statements -/

namespace Statement
variable {statement : Statement}

theorem characterWords_keepsKinds (location : Location) (text : Text) :
    KeepsKinds (characterWords location text) := by
  induction text with
  | nil => exact .ok []
  | cons c text ih =>
    unfold characterWords
    split
    · exact .bind ih fun words => .ok _
    · exact .report _

theorem WellFormed.origin_keepsKinds (h : statement.WellFormed)
    (horig : statement.mnemonic = .orig) :
    KeepsKinds statement.origin := by
  have hfills := h.fills
  rw [horig] at hfills
  obtain ⟨token, hoperands, haccepts⟩ := Fills.one hfills
  rw [origin, firstOperand, hoperands]
  exact Token.immediateValue_keepsKinds (OperandKind.accepts_immediate haccepts)

theorem WellFormed.footprint_keepsKinds (h : statement.WellFormed) :
    KeepsKinds statement.footprint := by
  by_cases hstringz : statement.mnemonic = .stringz
  · obtain ⟨token, -, -, hsize⟩ := h.stringz hstringz
    rw [hsize]
    exact .ok _
  · by_cases hblkw : statement.mnemonic = .blkw
    · obtain ⟨token, -, hkind, -, hsize⟩ := h.blkw hblkw
      rw [hsize]
      exact .bind (Token.numberValue_keepsKinds hkind) fun count => .ok _
    · rw [footprint_of_ne hstringz hblkw]
      exact .ok _

theorem WellFormed.encodeAs_keepsKinds {format : Format} (h : statement.WellFormed)
    (hformat : statement.mnemonic.format? = some format) (table : SymbolTable) (next : Int) :
    KeepsKinds (statement.encodeAs format table next) := by
  have hfills := h.operands_of_format? hformat
  cases format with
  | operate =>
    obtain ⟨target, left, right, hoperands, htarget, hleft, hright⟩ := Fills.three hfills
    simp only [encodeAs, threeOperands, hoperands, ok_bind]
    refine .bind (Token.registerBits_keepsKinds (OperandKind.accepts_register htarget) 9)
      fun m => ?_
    refine .bind (Token.registerBits_keepsKinds (OperandKind.accepts_register hleft) 6) fun n => ?_
    rcases OperandKind.accepts_registerOrImmediate hright with hkind | hkind
    · rw [if_neg (by rw [hkind]; decide)]
      exact .bind (Token.registerBits_keepsKinds hkind 0) fun k => .ok _
    · rw [if_pos hkind]
      exact .bind (Token.immediateBits_keepsKinds hkind 5) fun k => .ok _
  | complement =>
    obtain ⟨target, source, hoperands, htarget, hsource⟩ := Fills.two hfills
    simp only [encodeAs, twoOperands, hoperands, ok_bind]
    refine .bind (Token.registerBits_keepsKinds (OperandKind.accepts_register htarget) 9)
      fun m => ?_
    exact .bind (Token.registerBits_keepsKinds (OperandKind.accepts_register hsource) 6)
      fun n => .ok _
  | branch =>
    obtain ⟨label, hoperands, hlabel⟩ := Fills.one hfills
    obtain ⟨bits, -, hbits⟩ := Mnemonic.conditions_of_format? hformat
    simp only [encodeAs, oneOperand, hoperands, ok_bind, hbits]
    exact .bind (Token.offsetBits_keepsKinds (OperandKind.accepts_label hlabel) table next 9)
      fun o => .ok _
  | base =>
    obtain ⟨base, hoperands, hbase⟩ := Fills.one hfills
    simp only [encodeAs, oneOperand, hoperands, ok_bind]
    exact .bind (Token.registerBits_keepsKinds (OperandKind.accepts_register hbase) 6)
      fun m => .ok _
  | goBack => exact .ok _
  | call =>
    obtain ⟨label, hoperands, hlabel⟩ := Fills.one hfills
    simp only [encodeAs, oneOperand, hoperands, ok_bind]
    exact .bind (Token.offsetBits_keepsKinds (OperandKind.accepts_label hlabel) table next 11)
      fun o => .ok _
  | bare => exact .ok _
  | vector =>
    obtain ⟨vector, hoperands, hvector⟩ := Fills.one hfills
    simp only [encodeAs, oneOperand, hoperands, ok_bind]
    exact .bind (Token.immediateValue_keepsKinds (OperandKind.accepts_immediate hvector))
      fun value => .ok _
  | relative =>
    obtain ⟨register, label, hoperands, hregister, hlabel⟩ := Fills.two hfills
    simp only [encodeAs, twoOperands, hoperands, ok_bind]
    refine .bind (Token.registerBits_keepsKinds (OperandKind.accepts_register hregister) 9)
      fun m => ?_
    exact .bind (Token.offsetBits_keepsKinds (OperandKind.accepts_label hlabel) table next 9)
      fun o => .ok _
  | indexed =>
    obtain ⟨register, base, displacement, hoperands, hregister, hbase, hdisplacement⟩ :=
      Fills.three hfills
    simp only [encodeAs, threeOperands, hoperands, ok_bind]
    refine .bind (Token.registerBits_keepsKinds (OperandKind.accepts_register hregister) 9)
      fun m => ?_
    refine .bind (Token.registerBits_keepsKinds (OperandKind.accepts_register hbase) 6) fun n => ?_
    exact .bind (Token.immediateBits_keepsKinds (OperandKind.accepts_immediate hdisplacement) 6)
      fun k => .ok _
  | datum =>
    obtain ⟨value, hoperands, hvalue⟩ := Fills.one hfills
    simp only [encodeAs, oneOperand, hoperands, ok_bind]
    exact .bind (Token.immediateBits_keepsKinds (OperandKind.accepts_immediate hvalue) 16)
      fun k => .ok _
  | reserve =>
    refine .bind h.footprint_keepsKinds fun size => ?_
    split
    · exact .ok _
    · intro _ _ h
      cases h
  | characters =>
    obtain ⟨token, hoperands, htoken⟩ := Fills.one hfills
    simp only [encodeAs, oneOperand, hoperands, ok_bind,
      Token.stringText_eq (OperandKind.accepts_string htoken)]
    exact .bind (characterWords_keepsKinds _ _) fun words => .ok _

theorem WellFormed.encode_keepsKinds (h : statement.WellFormed) (table : SymbolTable) (next : Int) :
    KeepsKinds (statement.encode table next) := by
  unfold encode
  split
  · next format hformat => exact h.encodeAs_keepsKinds hformat table next
  · exact .report _

end Statement

/-! ## Both walks -/

section Walks
variable {statements : List Statement}

theorem SymbolTable.extend_keepsKinds (h : ∀ s ∈ statements, s.WellFormed) (table : SymbolTable)
    (counter : Option Int) : KeepsKinds (table.extend counter statements) := by
  induction statements generalizing table counter with
  | nil => exact .ok table
  | cons s rest ih =>
    have hs := h s List.mem_cons_self
    have ih := ih fun t ht => h t (List.mem_cons_of_mem s ht)
    rcases s.sort_cases with horig | hfinish | hplaced
    · rw [extend_orig horig]
      exact .bind (hs.origin_keepsKinds horig) fun value => ih table (some value)
    · rw [extend_finish hfinish]
      exact ih table none
    · cases counter with
      | none =>
        rw [extend_nowhere hplaced]
        exact .report _
      | some address =>
        rw [extend_placed hplaced]
        split
        · refine .bind ?_ fun next => .bind hs.footprint_keepsKinds fun size => ih next _
          cases table.defineAll address s.location s.labels with
          | ok next => exact .ok next
          | error diagnostic => exact .report diagnostic
        · exact .report _

theorem Block.encodeFrom_keepsKinds (h : ∀ s ∈ statements, s.WellFormed) (table : SymbolTable)
    (counter : Option Int) : KeepsKinds (encodeFrom table counter statements) := by
  induction statements generalizing counter with
  | nil => exact .ok []
  | cons s rest ih =>
    have hs := h s List.mem_cons_self
    have ih := ih fun t ht => h t (List.mem_cons_of_mem s ht)
    rcases s.sort_cases with horig | hfinish | hplaced
    · rw [encodeFrom_orig horig]
      exact .bind (hs.origin_keepsKinds horig) fun value => ih (some value)
    · rw [encodeFrom_finish hfinish]
      exact ih none
    · cases counter with
      | none =>
        rw [encodeFrom_nowhere hplaced]
        exact .report _
      | some address =>
        rw [encodeFrom_placed hplaced]
        refine .bind (hs.encode_keepsKinds table (address + 1)) fun words => ?_
        refine .bind hs.footprint_keepsKinds fun size => ?_
        exact .bind (ih (some (address + size))) fun blocks => .ok _

end Walks

end LittleComputer
