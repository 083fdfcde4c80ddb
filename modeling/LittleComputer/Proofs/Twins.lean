import LittleComputer.Proofs.Change
import LittleComputer.Proofs.Encoding
import LittleComputer.Proofs.Layout
import Mathlib.Tactic

/-! # Statements with the same meaning

A statement may be spelled in several ways. What the walks see of it is its labels and its place,
the value of an `.ORIG`, its size and its words.

* `Token.Twins`: two spellings of a value in one place.
* `Statement.Twins`: two statements that the walks cannot tell apart.
* `Statement.Reworded.twins`: what makes statements twins.
* `SymbolTable.extend_twins`, `Block.encodeFrom_twins`: both walks over twins. Only the text of a
  report can tell them apart.
-/

namespace LittleComputer
set_option autoImplicit false

/-! ## Spellings -/

/-- Failures of one sort in one place. -/
structure Failure.Alike (e e' : Failure) : Prop where
  sort : e'.sort = e.sort
  location : e'.location = e.location

theorem Failure.Alike.refl (e : Failure) : e.Alike e :=
  ⟨rfl, rfl⟩

/-- Operators with the same operands and the same word. -/
inductive Mnemonic.Twins : Mnemonic → Mnemonic → Prop
  | same (mnemonic : Mnemonic) : Twins mnemonic mnemonic
  | branch : Twins .br .brnzp

/-- Tokens of one kind and value in one place. -/
structure Token.Twins (t t' : Token) : Prop where
  kind : t'.kind = t.kind
  location : t'.location = t.location
  operator : t.kind = .operator → Option.Rel Mnemonic.Twins (Mnemonic.ofSpelling? t.content)
    (Mnemonic.ofSpelling? t'.content)
  register : t.kind = .register → t'.registerNumber = t.registerNumber
  immediate : t.kind = .immediate → t'.immediateValue = t.immediateValue
  content : t.kind = .label ∨ t.kind = .number ∨ t.kind = .string → t'.content = t.content

/-- Statements that both walks treat alike. -/
structure Statement.Twins (s s' : Statement) : Prop where
  labels : s'.labels = s.labels
  location : s'.location = s.location
  orig : s'.mnemonic = .orig ↔ s.mnemonic = .orig
  finish : s'.mnemonic = .finish ↔ s.mnemonic = .finish
  origin : s.mnemonic = .orig → s'.origin = s.origin
  footprint : s'.footprint = s.footprint
  encode : ∀ table next, s'.encode table next = s.encode table next

namespace Mnemonic.Twins
variable {m m' : Mnemonic}

theorem signature_eq (h : Twins m m') : m'.signature = m.signature := by
  cases h <;> rfl

theorem format?_eq (h : Twins m m') : m'.format? = m.format? := by
  cases h <;> rfl

theorem opcodeBits_eq (h : Twins m m') : m'.opcodeBits = m.opcodeBits := by
  cases h <;> rfl

theorem conditions_eq (h : Twins m m') : m'.conditions = m.conditions := by
  cases h <;> rfl

theorem trapVector?_eq (h : Twins m m') : m'.trapVector? = m.trapVector? := by
  cases h <;> rfl

/-- Twins that differ are branches. -/
theorem eq_iff (h : Twins m m') {other : Mnemonic} (hother : other.format? ≠ some .branch) :
    m' = other ↔ m = other := by
  cases h with
  | same => rfl
  | branch =>
    constructor
    · rintro rfl
      exact absurd rfl hother
    · rintro rfl
      exact absurd rfl hother

end Mnemonic.Twins

namespace Token.Twins
variable {t t' : Token}

theorem refl (t : Token) : t.Twins t where
  kind := rfl
  location := rfl
  operator _ := by
    cases Mnemonic.ofSpelling? t.content with
    | none => exact .none
    | some mnemonic => exact .some (.same mnemonic)
  register _ := rfl
  immediate _ := rfl
  content _ := rfl

theorem registerBits_eq (h : t.Twins t') (hkind : t.kind = .register) (place : Nat) :
    t'.registerBits place = t.registerBits place := by
  rw [registerBits, registerBits, h.register hkind]

theorem immediateBits_eq (h : t.Twins t') (hkind : t.kind = .immediate) (bits : Nat) :
    t'.immediateBits bits = t.immediateBits bits := by
  rw [immediateBits, immediateBits, h.immediate hkind, h.location]

theorem labelName_eq (h : t.Twins t') (hkind : t.kind = .label) : t'.labelName = t.labelName := by
  rw [Token.labelName_eq hkind, Token.labelName_eq (h.kind.trans hkind), h.content (.inl hkind)]

theorem offsetBits_eq (h : t.Twins t') (hkind : t.kind = .label) (table : SymbolTable)
    (origin : Int) (bits : Nat) :
    t'.offsetBits table origin bits = t.offsetBits table origin bits := by
  simp only [offsetBits, labelAddress, h.labelName_eq hkind, h.location]

theorem stringText_eq (h : t.Twins t') (hkind : t.kind = .string) :
    t'.stringText = t.stringText := by
  rw [Token.stringText_eq hkind, Token.stringText_eq (h.kind.trans hkind),
    h.content (.inr (.inr hkind))]

theorem numberValue_eq (h : t.Twins t') (hkind : t.kind = .number) :
    t'.numberValue = t.numberValue := by
  rw [numberValue, numberValue, require_eq_ok hkind, require_eq_ok (h.kind.trans hkind),
    h.content (.inr (.inl hkind))]

end Token.Twins

namespace Token
variable {k l m : OperandKind} {operands operands' : List Token}

-- the operands that fill a signature, and their twins

theorem twins_one (hfills : Fills [k] operands) (h : List.Forall₂ Twins operands operands') :
    ∃ a a', operands = [a] ∧ operands' = [a'] ∧ k.accepts a.kind = true ∧ a.Twins a' := by
  obtain ⟨a, rfl, ha⟩ := Fills.one hfills
  obtain ⟨a', _, ta, ⟨⟩, rfl⟩ := List.forall₂_cons_left_iff.1 h
  exact ⟨a, a', rfl, rfl, ha, ta⟩

theorem twins_two (hfills : Fills [k, l] operands) (h : List.Forall₂ Twins operands operands') :
    ∃ a b a' b', operands = [a, b] ∧ operands' = [a', b'] ∧ k.accepts a.kind = true ∧
      l.accepts b.kind = true ∧ a.Twins a' ∧ b.Twins b' := by
  obtain ⟨a, b, rfl, ha, hb⟩ := Fills.two hfills
  obtain ⟨a', _, ta, hrest, rfl⟩ := List.forall₂_cons_left_iff.1 h
  obtain ⟨b', _, tb, ⟨⟩, rfl⟩ := List.forall₂_cons_left_iff.1 hrest
  exact ⟨a, b, a', b', rfl, rfl, ha, hb, ta, tb⟩

theorem twins_three (hfills : Fills [k, l, m] operands)
    (h : List.Forall₂ Twins operands operands') :
    ∃ a b c a' b' c', operands = [a, b, c] ∧ operands' = [a', b', c'] ∧
      k.accepts a.kind = true ∧ l.accepts b.kind = true ∧ m.accepts c.kind = true ∧
      a.Twins a' ∧ b.Twins b' ∧ c.Twins c' := by
  obtain ⟨a, b, c, rfl, ha, hb, hc⟩ := Fills.three hfills
  obtain ⟨a', _, ta, hrest, rfl⟩ := List.forall₂_cons_left_iff.1 h
  obtain ⟨b', _, tb, hlast, rfl⟩ := List.forall₂_cons_left_iff.1 hrest
  obtain ⟨c', _, tc, ⟨⟩, rfl⟩ := List.forall₂_cons_left_iff.1 hlast
  exact ⟨a, b, c, a', b', c', rfl, rfl, ha, hb, hc, ta, tb, tc⟩

end Token

/-! ## Statements in other words -/

namespace Statement
variable {s s' : Statement}

/-- The statement in other words: with another spelling of its operator and its operands, or a
return as a jump to the register with the return address. -/
inductive Reworded : Statement → Statement → Prop
  | spelled {s s' : Statement} (hlabels : s'.labels = s.labels)
    (hlocation : s'.location = s.location) (hmnemonic : s.mnemonic.Twins s'.mnemonic)
    (hoperands : List.Forall₂ Token.Twins s.operands s'.operands) : Reworded s s'
  | goBack (labels : List Text) (location : Option Location) (place : Location) :
    Reworded ⟨labels, .ret, [], location⟩
      ⟨labels, .jmp, [⟨.register, "R7".toList, place⟩], location⟩

section Spelled
variable (hoperands : List.Forall₂ Token.Twins s.operands s'.operands)
  (hfills : Fills s.mnemonic.signature s.operands)
include hoperands hfills

theorem origin_spelled (horig : s.mnemonic = .orig) : s'.origin = s.origin := by
  rw [horig] at hfills
  obtain ⟨a, a', hs, hs', ha, ta⟩ := Token.twins_one hfills hoperands
  simp only [origin, firstOperand, hs, hs', ok_bind,
    ta.immediate (OperandKind.accepts_immediate ha)]

variable (hmnemonic : s.mnemonic.Twins s'.mnemonic)
include hmnemonic

theorem footprint_spelled : s'.footprint = s.footprint := by
  have hstringz' : s'.mnemonic = .stringz ↔ s.mnemonic = .stringz := hmnemonic.eq_iff (by decide)
  have hblkw' : s'.mnemonic = .blkw ↔ s.mnemonic = .blkw := hmnemonic.eq_iff (by decide)
  by_cases hstringz : s.mnemonic = .stringz
  · rw [hstringz] at hfills
    obtain ⟨a, a', hs, hs', ha, ta⟩ := Token.twins_one hfills hoperands
    simp only [footprint, hstringz, hstringz'.2 hstringz, firstOperand, hs, hs', ok_bind,
      ta.stringText_eq (OperandKind.accepts_string ha)]
  · by_cases hblkw : s.mnemonic = .blkw
    · rw [hblkw] at hfills
      obtain ⟨a, a', hs, hs', ha, ta⟩ := Token.twins_one hfills hoperands
      simp only [footprint, hblkw, hblkw'.2 hblkw, firstOperand, hs, hs', ok_bind,
        ta.numberValue_eq (OperandKind.accepts_number ha)]
    · rw [footprint_of_ne hstringz hblkw,
        footprint_of_ne (mt hstringz'.1 hstringz) (mt hblkw'.1 hblkw)]

theorem encode_spelled (hlocation : s'.location = s.location) (table : SymbolTable) (next : Int) :
    s'.encode table next = s.encode table next := by
  have hfootprint := footprint_spelled hoperands hfills hmnemonic
  unfold encode
  rw [hmnemonic.format?_eq]
  cases hformat : s.mnemonic.format? with
  | none => rw [(hmnemonic.eq_iff (by rw [hformat]; nofun)).2 rfl, hlocation]
  | some format =>
    rw [Mnemonic.signature_of_format? hformat] at hfills
    have hopcode := hmnemonic.opcodeBits_eq
    cases format with
    | operate =>
      obtain ⟨a, b, c, a', b', c', hs, hs', ha, hb, hc, ta, tb, tc⟩ :=
        Token.twins_three hfills hoperands
      simp only [encodeAs, threeOperands, hs, hs', ok_bind, hopcode, tc.kind,
        ta.registerBits_eq (OperandKind.accepts_register ha),
        tb.registerBits_eq (OperandKind.accepts_register hb)]
      rcases OperandKind.accepts_registerOrImmediate hc with hkind | hkind
      · rw [hkind, tc.registerBits_eq hkind]
        rfl
      · rw [hkind, tc.immediateBits_eq hkind]
        rfl
    | complement =>
      obtain ⟨a, b, a', b', hs, hs', ha, hb, ta, tb⟩ := Token.twins_two hfills hoperands
      simp only [encodeAs, twoOperands, hs, hs', ok_bind, hopcode,
        ta.registerBits_eq (OperandKind.accepts_register ha),
        tb.registerBits_eq (OperandKind.accepts_register hb)]
    | branch =>
      obtain ⟨a, a', hs, hs', ha, ta⟩ := Token.twins_one hfills hoperands
      simp only [encodeAs, oneOperand, hs, hs', ok_bind, hopcode, hmnemonic.conditions_eq,
        ta.offsetBits_eq (OperandKind.accepts_label ha)]
    | base =>
      obtain ⟨a, a', hs, hs', ha, ta⟩ := Token.twins_one hfills hoperands
      simp only [encodeAs, oneOperand, hs, hs', ok_bind, hopcode,
        ta.registerBits_eq (OperandKind.accepts_register ha)]
    | goBack => simp only [encodeAs, hopcode]
    | call =>
      obtain ⟨a, a', hs, hs', ha, ta⟩ := Token.twins_one hfills hoperands
      simp only [encodeAs, oneOperand, hs, hs', ok_bind, hopcode,
        ta.offsetBits_eq (OperandKind.accepts_label ha)]
    | bare => simp only [encodeAs, hopcode]
    | vector =>
      obtain ⟨a, a', hs, hs', ha, ta⟩ := Token.twins_one hfills hoperands
      simp only [encodeAs, oneOperand, hs, hs', ok_bind, hopcode,
        ta.immediate (OperandKind.accepts_immediate ha)]
    | relative =>
      obtain ⟨a, b, a', b', hs, hs', ha, hb, ta, tb⟩ := Token.twins_two hfills hoperands
      simp only [encodeAs, twoOperands, hs, hs', ok_bind, hopcode,
        ta.registerBits_eq (OperandKind.accepts_register ha),
        tb.offsetBits_eq (OperandKind.accepts_label hb)]
    | indexed =>
      obtain ⟨a, b, c, a', b', c', hs, hs', ha, hb, hc, ta, tb, tc⟩ :=
        Token.twins_three hfills hoperands
      simp only [encodeAs, threeOperands, hs, hs', ok_bind, hopcode,
        ta.registerBits_eq (OperandKind.accepts_register ha),
        tb.registerBits_eq (OperandKind.accepts_register hb),
        tc.immediateBits_eq (OperandKind.accepts_immediate hc)]
    | datum =>
      obtain ⟨a, a', hs, hs', ha, ta⟩ := Token.twins_one hfills hoperands
      simp only [encodeAs, oneOperand, hs, hs', ok_bind,
        ta.immediateBits_eq (OperandKind.accepts_immediate ha)]
    | reserve => simp only [encodeAs, hfootprint]
    | characters =>
      obtain ⟨a, a', hs, hs', ha, ta⟩ := Token.twins_one hfills hoperands
      simp only [encodeAs, oneOperand, hs, hs', ok_bind, ta.location,
        ta.stringText_eq (OperandKind.accepts_string ha)]

end Spelled

/-- Rewording keeps what the walks see, if every operand is of a kind that its operator takes. -/
theorem Reworded.twins (h : s.Reworded s') (hfills : Fills s.mnemonic.signature s.operands) :
    s.Twins s' := by
  cases h with
  | goBack labels location place =>
    have hregister : (⟨.register, "R7".toList, place⟩ : Token).registerBits 6 = .ok (7#16 <<< 6) :=
      rfl
    refine ⟨rfl, rfl, by simp, by simp, by simp, rfl, fun table next => ?_⟩
    simp only [encode, Mnemonic.format?, encodeAs, oneOperand, ok_bind, hregister]
    rfl
  | spelled hlabels hlocation hmnemonic hoperands =>
    exact ⟨hlabels, hlocation, hmnemonic.eq_iff (by decide), hmnemonic.eq_iff (by decide),
      origin_spelled hoperands hfills, footprint_spelled hoperands hfills hmnemonic,
      encode_spelled hoperands hfills hmnemonic hlocation⟩

theorem Twins.isPlaced (h : s.Twins s') (hplaced : s.isPlaced = true) : s'.isPlaced = true := by
  rw [isPlaced_iff] at hplaced ⊢
  exact hplaced.imp (mt h.orig.1) (mt h.finish.1)

end Statement

/-! ## Both walks -/

section Walks
variable {statements statements' : List Statement}

theorem SymbolTable.extend_twins (h : List.Forall₂ Statement.Twins statements statements')
    (table : SymbolTable) (counter : Option Int) :
    Mirrors False False Failure.Alike (fun a b => b = a) (table.extend counter statements)
      (table.extend counter statements') := by
  induction h generalizing table counter with
  | nil => exact .ok rfl
  | @cons s s' rest rest' hs _ ih =>
    rcases s.sort_cases with horig | hfinish | hplaced
    · rw [extend_orig horig, extend_orig (hs.orig.2 horig), hs.origin horig]
      refine (Mirrors.same s.origin fun e _ => .refl e).bind fun value _ heq => ?_
      rw [heq]
      exact ih table (some value)
    · rw [extend_finish hfinish, extend_finish (hs.finish.2 hfinish)]
      exact ih table none
    · have hplaced' := hs.isPlaced hplaced
      cases counter with
      | none =>
        rw [extend_nowhere hplaced, extend_nowhere hplaced']
        exact .error ⟨rfl, hs.location⟩
      | some address =>
        rw [extend_placed hplaced, extend_placed hplaced', hs.labels, hs.location, hs.footprint]
        split
        · refine (Mirrors.same _ fun e _ => .refl e).bind fun next _ hnext => ?_
          refine (Mirrors.same s.footprint fun e _ => .refl e).bind fun size _ hsize => ?_
          rw [hnext, hsize]
          exact ih next (some (address + size))
        · exact .error (.refl _)

/-- Blocks with the same words in the same place. -/
structure Block.Twins (b b' : Block) : Prop where
  address : b'.address = b.address
  words : b'.words = b.words

theorem Block.encodeFrom_twins (h : List.Forall₂ Statement.Twins statements statements')
    (table : SymbolTable) (counter : Option Int) :
    Mirrors False False Failure.Alike (List.Forall₂ Block.Twins)
      (encodeFrom table counter statements) (encodeFrom table counter statements') := by
  induction h generalizing counter with
  | nil => exact .ok .nil
  | @cons s s' rest rest' hs _ ih =>
    rcases s.sort_cases with horig | hfinish | hplaced
    · rw [encodeFrom_orig horig, encodeFrom_orig (hs.orig.2 horig), hs.origin horig]
      refine (Mirrors.same s.origin fun e _ => .refl e).bind fun value _ heq => ?_
      rw [heq]
      exact ih (some value)
    · rw [encodeFrom_finish hfinish, encodeFrom_finish (hs.finish.2 hfinish)]
      exact ih none
    · have hplaced' := hs.isPlaced hplaced
      cases counter with
      | none =>
        rw [encodeFrom_nowhere hplaced, encodeFrom_nowhere hplaced']
        exact .error ⟨rfl, hs.location⟩
      | some address =>
        rw [encodeFrom_placed hplaced, encodeFrom_placed hplaced', hs.encode, hs.footprint]
        refine (Mirrors.same _ fun e _ => .refl e).bind fun words _ hwords => ?_
        refine (Mirrors.same s.footprint fun e _ => .refl e).bind fun size _ hsize => ?_
        rw [hwords, hsize]
        refine (ih (some (address + size))).map fun blocks blocks' hblocks => ?_
        exact .cons ⟨rfl, rfl⟩ hblocks

end Walks

end LittleComputer
