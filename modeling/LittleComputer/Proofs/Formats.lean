import LittleComputer.Proofs.Operands
import Mathlib.Tactic

/-! # Statements and formats

What the second walk makes of a single statement, one lemma for each format.

* `EncodeOutcome`: a statement becomes words that can be read back, or is refused, or is beyond
  the limits.
* `Statement.encode_outcome`: every statement that can stand in a region ends so.
-/

namespace LittleComputer
set_option autoImplicit false

variable {table : SymbolTable} {address : Int} {statement : Statement}

/-! ## Statements -/

/-- What comes of a statement at `address`. If it is encoded, it fits, it has as many words as its
size says, the words are the numbers that it makes, and a single word has the fields of the table. -/
inductive EncodeOutcome (table : SymbolTable) (address : Int) (statement : Statement) :
    Except Failure (List Word) → Prop
  | encoded {words : List Word} (hfits : statement.Fits table address)
    (hsize : statement.footprint = .ok words.length)
    (hpacks : statement.parts ≠ [] → ∃ word, words = [word] ∧
      Packs table address statement.operands 16 statement.parts word)
    (hmakes : statement.Makes table address (words.map BitVec.toNat)) :
    EncodeOutcome table address statement (.ok words)
  | refused {diagnostic : Diagnostic} (h : Refusal table address statement diagnostic) :
    EncodeOutcome table address statement (.error diagnostic.failure)
  | beyond {fault : Fault} (h : ¬ statement.WithinLimits) :
    EncodeOutcome table address statement (.error (.fault fault))

/-- A statement of one word whose operands fit is encoded. -/
theorem EncodeOutcome.single {word : Word} (hsize : statement.footprint = .ok 1)
    (hfits : statement.Fits table address)
    (hpacks : Packs table address statement.operands 16 statement.parts word) :
    EncodeOutcome table address statement (.ok [word]) :=
  .encoded hfits hsize (fun _ => ⟨word, rfl, hpacks⟩) (.single (hpacks.combines le_rfl))

/-- A statement of one word whose other operands fit is encoded exactly when the checked one
fits. -/
theorem FieldOutcome.encode {token : Token} {width : Nat} {result : Except Failure Word}
    {word : Word → Word} (h : FieldOutcome table address statement token width result)
    (hsize : statement.footprint = .ok 1)
    (hothers : ∀ other ∈ statement.operands,
      other = token ∨ other.Fits table address statement.mnemonic)
    (hpacks : ∀ bits : BitVec width, token.Denotes table address bits.toInt →
      Packs table address statement.operands 16 statement.parts (word (bits.setWidth 16))) :
    EncodeOutcome table address statement (result >>= fun bits => .ok [word bits]) := by
  cases h with
  | fits bits h hvalue =>
    refine .single hsize (fun other hother => ?_) (hpacks bits hvalue)
    rcases hothers other hother with rfl | hfits
    · exact h
    · exact hfits
  | refused h => exact .refused h
  | beyond h => exact .beyond h

/-- A register operand fits, and its number makes a field of three bits at any place. -/
theorem Statement.WellFormed.register {token : Token} {operand : Nat} (table : SymbolTable)
    (address : Int) (h : statement.WellFormed)
    (hoperand : statement.operands[operand]? = some token)
    (haccepts : OperandKind.register.accepts token.kind = true) :
    ∃ bits : BitVec 3,
      (∀ place, token.registerBits place = .ok (bits.setWidth 16 <<< place)) ∧
      (Meaning.register operand).Holds table address statement.operands bits ∧
      token.Fits table address statement.mnemonic := by
  have hkind := OperandKind.accepts_register haccepts
  have hmem := List.mem_of_getElem? hoperand
  obtain ⟨number, hlt, hnumber⟩ := (h.operands token hmem).registerNumber hkind
  have hbits : (BitVec.ofNat 3 number).toNat = number := by
    rw [BitVec.toNat_ofNat, Nat.mod_eq_of_lt hlt]
  refine ⟨BitVec.ofNat 3 number, fun place => ?_, ?_, Token.fits_of_kind (.inl hkind)⟩
  · rw [Token.registerBits, hnumber, ← BitVec.ofNat_toNat, hbits]
    rfl
  · exact ⟨token, hoperand, by rw [hnumber, hbits]⟩

/-! ## Formats -/

theorem Statement.WellFormed.operands_of_format? {format : Format} (h : statement.WellFormed)
    (hformat : statement.mnemonic.format? = some format) :
    Fills format.signature statement.operands := by
  rw [← Mnemonic.signature_of_format? hformat]
  exact h.fills

theorem encodeAs_operate (h : statement.WellFormed)
    (hformat : statement.mnemonic.format? = some .operate) (hsize : statement.footprint = .ok 1) :
    EncodeOutcome table address statement (statement.encodeAs .operate table (address + 1)) := by
  obtain ⟨target, left, right, hoperands, htarget, hleft, hright⟩ :=
    Fills.three (h.operands_of_format? hformat)
  obtain ⟨opcode, hopcode, hparts⟩ := Statement.parts_of_format? hformat nofun nofun nofun
  have hfirst : statement.operands[0]? = some target := by rw [hoperands]; rfl
  have hsecond : statement.operands[1]? = some left := by rw [hoperands]; rfl
  have hthird : statement.operands[2]? = some right := by rw [hoperands]; rfl
  obtain ⟨m, hm, hmeans, hfits⟩ := h.register table address hfirst htarget
  obtain ⟨n, hn, hmeans', hfits'⟩ := h.register table address hsecond hleft
  simp only [Statement.encodeAs, Statement.threeOperands, hoperands, ok_bind, hm, hn, hopcode]
  rw [Statement.operandParts, hthird] at hparts
  -- the kind of the third operand decides between the two forms of the word
  rcases OperandKind.accepts_registerOrImmediate hright with hkind | hkind
  · obtain ⟨k, hk, hmeans'', hfits''⟩ :=
      h.register table address hthird (by rw [hkind]; rfl)
    rw [if_neg (by rw [hkind]; decide), hk, ok_bind]
    refine .single hsize (by rw [Statement.Fits, hoperands]; simp [hfits, hfits', hfits'']) ?_
    rw [hparts, if_neg (by simp [hkind])]
    refine Packs.of_eq (.cons opcode rfl (.cons m hmeans (.cons n hmeans' (.cons 0#3 rfl
      (.cons k hmeans'' .nil))))) ?_
    simp [BitVec.or_assoc]
  · rw [if_pos hkind]
    refine (Token.immediateBits_outcome hformat rfl (List.mem_of_getElem? hthird)
      (h.operands right (List.mem_of_getElem? hthird)) hkind).encode hsize
        (by rw [hoperands]; simp [hfits, hfits']) fun bits hbits => ?_
    rw [hparts, if_pos (by simp [hkind])]
    refine Packs.of_eq (.cons opcode rfl (.cons m hmeans (.cons n hmeans' (.cons 1#1 rfl
      (.cons bits ⟨right, hthird, hbits.immediateValue hkind⟩ .nil))))) ?_
    simp [BitVec.or_assoc]

theorem encodeAs_complement (h : statement.WellFormed)
    (hformat : statement.mnemonic.format? = some .complement)
    (hsize : statement.footprint = .ok 1) :
    EncodeOutcome table address statement (statement.encodeAs .complement table (address + 1)) := by
  obtain ⟨target, source, hoperands, htarget, hsource⟩ := Fills.two (h.operands_of_format? hformat)
  obtain ⟨opcode, hopcode, hparts⟩ := Statement.parts_of_format? hformat nofun nofun nofun
  have hfirst : statement.operands[0]? = some target := by rw [hoperands]; rfl
  have hsecond : statement.operands[1]? = some source := by rw [hoperands]; rfl
  obtain ⟨m, hm, hmeans, hfits⟩ := h.register table address hfirst htarget
  obtain ⟨n, hn, hmeans', hfits'⟩ := h.register table address hsecond hsource
  simp only [Statement.encodeAs, Statement.twoOperands, hoperands, ok_bind, hm, hn, hopcode]
  refine .single hsize (by rw [Statement.Fits, hoperands]; simp [hfits, hfits']) ?_
  rw [hparts]
  refine Packs.of_eq (.cons opcode rfl (.cons m hmeans (.cons n hmeans' (.cons 0x3F#6 rfl
    .nil)))) ?_
  simp [BitVec.or_assoc]

theorem encodeAs_branch (h : statement.WellFormed)
    (hformat : statement.mnemonic.format? = some .branch) (hsize : statement.footprint = .ok 1) :
    EncodeOutcome table address statement (statement.encodeAs .branch table (address + 1)) := by
  obtain ⟨label, hoperands, hlabel⟩ := Fills.one (h.operands_of_format? hformat)
  obtain ⟨opcode, hopcode, hparts⟩ := Statement.parts_of_format? hformat nofun nofun nofun
  obtain ⟨conditions, hletters, hconditions⟩ := Mnemonic.conditions_of_format? hformat
  have hkind := OperandKind.accepts_label hlabel
  have hfirst : statement.operands[0]? = some label := by rw [hoperands]; rfl
  simp only [Statement.encodeAs, Statement.oneOperand, hoperands, ok_bind, hconditions, hopcode]
  refine (Token.offsetBits_outcome hformat rfl (List.mem_of_getElem? hfirst) hkind).encode hsize
    (by rw [hoperands]; simp) fun bits hbits => ?_
  rw [hparts]
  refine Packs.of_eq (.cons opcode rfl (.cons conditions hletters (.cons bits
    ⟨label, label.content, hfirst, Token.labelName_eq hkind, hbits.address? hkind⟩ .nil))) ?_
  simp [BitVec.or_assoc]

theorem encodeAs_base (h : statement.WellFormed)
    (hformat : statement.mnemonic.format? = some .base) (hsize : statement.footprint = .ok 1) :
    EncodeOutcome table address statement (statement.encodeAs .base table (address + 1)) := by
  obtain ⟨base, hoperands, hbase⟩ := Fills.one (h.operands_of_format? hformat)
  obtain ⟨opcode, hopcode, hparts⟩ := Statement.parts_of_format? hformat nofun nofun nofun
  have hfirst : statement.operands[0]? = some base := by rw [hoperands]; rfl
  obtain ⟨n, hn, hmeans, hfits⟩ := h.register table address hfirst hbase
  simp only [Statement.encodeAs, Statement.oneOperand, hoperands, ok_bind, hn, hopcode]
  refine .single hsize (by rw [Statement.Fits, hoperands]; simp [hfits]) ?_
  rw [hparts]
  refine Packs.of_eq (.cons opcode rfl (.cons 0#3 rfl (.cons n hmeans (.cons 0#6 rfl .nil)))) ?_
  simp

theorem encodeAs_goBack (h : statement.WellFormed)
    (hformat : statement.mnemonic.format? = some .goBack) (hsize : statement.footprint = .ok 1) :
    EncodeOutcome table address statement (statement.encodeAs .goBack table (address + 1)) := by
  have hoperands := List.forall₂_nil_left_iff.1 (h.operands_of_format? hformat)
  obtain ⟨opcode, hopcode, hparts⟩ := Statement.parts_of_format? hformat nofun nofun nofun
  simp only [Statement.encodeAs, hopcode]
  refine .single hsize (by rw [Statement.Fits, hoperands]; simp) ?_
  rw [hparts]
  refine Packs.of_eq (.cons opcode rfl (.cons 0#3 rfl (.cons 7#3 rfl (.cons 0#6 rfl .nil)))) ?_
  simp

theorem encodeAs_bare (h : statement.WellFormed)
    (hformat : statement.mnemonic.format? = some .bare) (hsize : statement.footprint = .ok 1) :
    EncodeOutcome table address statement (statement.encodeAs .bare table (address + 1)) := by
  have hoperands := List.forall₂_nil_left_iff.1 (h.operands_of_format? hformat)
  obtain ⟨opcode, hopcode, hparts⟩ := Statement.parts_of_format? hformat nofun nofun nofun
  simp only [Statement.encodeAs, hopcode]
  refine .single hsize (by rw [Statement.Fits, hoperands]; simp) ?_
  rw [hparts]
  refine Packs.of_eq (.cons opcode rfl (.cons 0#12 rfl .nil)) ?_
  simp

theorem encodeAs_call (h : statement.WellFormed)
    (hformat : statement.mnemonic.format? = some .call) (hsize : statement.footprint = .ok 1) :
    EncodeOutcome table address statement (statement.encodeAs .call table (address + 1)) := by
  obtain ⟨label, hoperands, hlabel⟩ := Fills.one (h.operands_of_format? hformat)
  obtain ⟨opcode, hopcode, hparts⟩ := Statement.parts_of_format? hformat nofun nofun nofun
  have hkind := OperandKind.accepts_label hlabel
  have hfirst : statement.operands[0]? = some label := by rw [hoperands]; rfl
  simp only [Statement.encodeAs, Statement.oneOperand, hoperands, ok_bind, hopcode]
  refine (Token.offsetBits_outcome hformat rfl (List.mem_of_getElem? hfirst) hkind).encode hsize
    (by rw [hoperands]; simp) fun bits hbits => ?_
  rw [hparts]
  refine Packs.of_eq (.cons opcode rfl (.cons 1#1 rfl (.cons bits
    ⟨label, label.content, hfirst, Token.labelName_eq hkind, hbits.address? hkind⟩ .nil))) ?_
  simp [BitVec.or_assoc]

/-- A trap vector is cut to its field, so it is never refused. -/
theorem encodeAs_vector (h : statement.WellFormed)
    (hformat : statement.mnemonic.format? = some .vector) (hsize : statement.footprint = .ok 1) :
    EncodeOutcome table address statement (statement.encodeAs .vector table (address + 1)) := by
  obtain ⟨vector, hoperands, hvector⟩ := Fills.one (h.operands_of_format? hformat)
  obtain ⟨opcode, hopcode, hparts⟩ := Statement.parts_of_format? hformat nofun nofun nofun
  have hkind := OperandKind.accepts_immediate hvector
  have hfirst : statement.operands[0]? = some vector := by rw [hoperands]; rfl
  have hmem := List.mem_of_getElem? hfirst
  have hfits : vector.Fits table address statement.mnemonic :=
    Token.fits_of_unchecked hkind (Mnemonic.checkedField?_of_format? hformat)
  simp only [Statement.encodeAs, Statement.oneOperand, hoperands, ok_bind, hopcode]
  rcases (h.operands vector hmem).immediateValue hkind with
    ⟨value, hvalue, -⟩ | ⟨fault, hfault, hlimits⟩
  · have hbyte : ((BitVec.ofInt 8 value).toNat : Int) = value % 256 := by
      rw [BitVec.toNat_ofInt, Int.toNat_of_nonneg (Int.emod_nonneg _ (by decide))]
      rfl
    rw [hvalue, ok_bind]
    refine .single hsize (by rw [Statement.Fits, hoperands]; simp [hfits]) ?_
    rw [hparts]
    refine Packs.of_eq (.cons opcode rfl (.cons 0#4 rfl (.cons (BitVec.ofInt 8 value)
      ⟨vector, value, hfirst, hvalue, hbyte⟩ .nil))) ?_
    simp
  · rw [hfault]
    exact .beyond fun hwithin => hlimits (hwithin.1 vector hmem)

theorem encodeAs_relative (h : statement.WellFormed)
    (hformat : statement.mnemonic.format? = some .relative)
    (hsize : statement.footprint = .ok 1) :
    EncodeOutcome table address statement (statement.encodeAs .relative table (address + 1)) := by
  obtain ⟨register, label, hoperands, hregister, hlabel⟩ :=
    Fills.two (h.operands_of_format? hformat)
  obtain ⟨opcode, hopcode, hparts⟩ := Statement.parts_of_format? hformat nofun nofun nofun
  have hkind := OperandKind.accepts_label hlabel
  have hfirst : statement.operands[0]? = some register := by rw [hoperands]; rfl
  have hsecond : statement.operands[1]? = some label := by rw [hoperands]; rfl
  obtain ⟨n, hn, hmeans, hfits⟩ := h.register table address hfirst hregister
  simp only [Statement.encodeAs, Statement.twoOperands, hoperands, ok_bind, hn, hopcode]
  refine (Token.offsetBits_outcome hformat rfl (List.mem_of_getElem? hsecond) hkind).encode hsize
    (by rw [hoperands]; simp [hfits]) fun bits hbits => ?_
  rw [hparts]
  refine Packs.of_eq (.cons opcode rfl (.cons n hmeans (.cons bits
    ⟨label, label.content, hsecond, Token.labelName_eq hkind, hbits.address? hkind⟩ .nil))) ?_
  simp [BitVec.or_assoc]

theorem encodeAs_indexed (h : statement.WellFormed)
    (hformat : statement.mnemonic.format? = some .indexed) (hsize : statement.footprint = .ok 1) :
    EncodeOutcome table address statement (statement.encodeAs .indexed table (address + 1)) := by
  obtain ⟨register, base, displacement, hoperands, hregister, hbase, hdisplacement⟩ :=
    Fills.three (h.operands_of_format? hformat)
  obtain ⟨opcode, hopcode, hparts⟩ := Statement.parts_of_format? hformat nofun nofun nofun
  have hkind := OperandKind.accepts_immediate hdisplacement
  have hfirst : statement.operands[0]? = some register := by rw [hoperands]; rfl
  have hsecond : statement.operands[1]? = some base := by rw [hoperands]; rfl
  have hthird : statement.operands[2]? = some displacement := by rw [hoperands]; rfl
  obtain ⟨m, hm, hmeans, hfits⟩ := h.register table address hfirst hregister
  obtain ⟨n, hn, hmeans', hfits'⟩ := h.register table address hsecond hbase
  simp only [Statement.encodeAs, Statement.threeOperands, hoperands, ok_bind, hm, hn, hopcode]
  refine (Token.immediateBits_outcome hformat rfl (List.mem_of_getElem? hthird)
    (h.operands displacement (List.mem_of_getElem? hthird)) hkind).encode hsize
      (by rw [hoperands]; simp [hfits, hfits']) fun bits hbits => ?_
  rw [hparts]
  refine Packs.of_eq (.cons opcode rfl (.cons m hmeans (.cons n hmeans' (.cons bits
    ⟨displacement, hthird, hbits.immediateValue hkind⟩ .nil)))) ?_
  simp [BitVec.or_assoc]

theorem encodeAs_datum (h : statement.WellFormed) (hfill : statement.mnemonic = .fill) :
    EncodeOutcome table address statement (statement.encodeAs .datum table (address + 1)) := by
  have hformat : statement.mnemonic.format? = some .datum := by rw [hfill]; rfl
  have hsize : statement.footprint = .ok 1 := by
    apply Statement.footprint_of_ne <;> rw [hfill] <;> decide
  have hparts : statement.parts = [⟨16, .signed 0⟩] := by
    unfold Statement.parts
    rw [hfill]
  obtain ⟨value, hoperands, hvalue⟩ := Fills.one (h.operands_of_format? hformat)
  have hkind := OperandKind.accepts_immediate hvalue
  have hfirst : statement.operands[0]? = some value := by rw [hoperands]; rfl
  have hmem := List.mem_of_getElem? hfirst
  simp only [Statement.encodeAs, Statement.oneOperand, hoperands, ok_bind]
  refine (Token.immediateBits_outcome hformat rfl hmem (h.operands value hmem) hkind).encode hsize
    (by rw [hoperands]; simp) fun bits hbits => ?_
  rw [hparts]
  refine Packs.of_eq (.cons bits ⟨value, hfirst, hbits.immediateValue hkind⟩ .nil) ?_
  simp

theorem encodeAs_reserve (h : statement.WellFormed) (hblkw : statement.mnemonic = .blkw) :
    EncodeOutcome table address statement (statement.encodeAs .reserve table (address + 1)) := by
  obtain ⟨token, hoperands, hkind, hlexical, hfootprint⟩ := h.blkw hblkw
  have hmem : token ∈ statement.operands := by rw [hoperands]; simp
  have hfits : token.Fits table address statement.mnemonic := Token.fits_of_kind (.inr hkind)
  simp only [Statement.encodeAs]
  rcases hlexical.numberValue hkind with ⟨count, hcount, -⟩ | ⟨fault, hfault, hlimits⟩
  · have hsize : statement.footprint = .ok count.toNat := by rw [hfootprint, hcount]; rfl
    rw [hsize, ok_bind]
    by_cases hmax : count.toNat ≤ Statement.maxBlock
    · rw [if_pos hmax]
      refine .encoded (by rw [Statement.Fits, hoperands]; simp [hfits]) ?_ (fun hparts => ?_) ?_
      · rw [hsize, List.length_replicate]
      · exact absurd (Statement.parts_of_blkw hblkw) hparts
      · rw [List.map_replicate]
        exact .zeros hblkw hsize
    · rw [if_neg hmax]
      refine .beyond fun hwithin => hmax ?_
      have hle := hwithin.2 hblkw token hmem count hcount
      omega
  · rw [hfootprint, hfault]
    exact .beyond fun hwithin => hlimits (hwithin.1 token hmem)

theorem encodeAs_characters (h : statement.WellFormed) (hstringz : statement.mnemonic = .stringz) :
    EncodeOutcome table address statement (statement.encodeAs .characters table (address + 1)) := by
  obtain ⟨token, hoperands, hkind, hfootprint⟩ := h.stringz hstringz
  have hmem : token ∈ statement.operands := by rw [hoperands]; simp
  have htext := Token.stringText_eq hkind
  simp only [Statement.encodeAs, Statement.oneOperand, hoperands, ok_bind, htext]
  rcases Statement.characterWords_outcome token.location token.content.tail.dropLast with
    ⟨hwords, hall⟩ | ⟨narrow, c, rest, hsplit, hnarrow, hwide, herror⟩
  · rw [hwords, ok_bind]
    have hfits : token.Fits table address statement.mnemonic := by
      refine ⟨fun hlabel => ?_, fun value field hvalue => ?_, fun text htext' => ?_⟩
      · rw [hkind] at hlabel
        cases hlabel
      · cases hvalue with
        | immediate himmediate =>
          rw [hkind] at himmediate
          cases himmediate
        | distance hlabel =>
          rw [hkind] at hlabel
          cases hlabel
      · rw [htext] at htext'
        rw [← Except.ok.inj htext']
        exact hall
    refine .encoded (by rw [Statement.Fits, hoperands]; simp [hfits]) ?_ (fun hparts => ?_) ?_
    · rw [hfootprint, List.length_append, List.length_map, List.length_singleton]
    · exact absurd (Statement.parts_of_stringz hstringz) hparts
    · have hpoints : (token.content.tail.dropLast.map fun c => BitVec.ofNat 16 c.toNat).map
          BitVec.toNat = token.content.tail.dropLast.map Char.toNat := by
        rw [List.map_map]
        refine List.map_congr_left fun c hc => ?_
        exact Nat.mod_eq_of_lt (Nat.lt_succ_of_le (hall c hc))
      rw [List.map_append, hpoints]
      exact .characters hstringz hoperands htext
  · rw [herror]
    exact .refused (.character hmem htext hsplit hnarrow hwide)

/-! ## All statements -/

/-- **One statement of the second walk.** A statement that can stand in a region is encoded if it
fits and refused if not, unless it is beyond the limits. -/
theorem Statement.encode_outcome (h : statement.WellFormed)
    (horig : statement.mnemonic ≠ .orig) (hfinish : statement.mnemonic ≠ .finish) :
    EncodeOutcome table address statement (statement.encode table (address + 1)) := by
  obtain ⟨format, hformat⟩ := Mnemonic.format?_isSome h.noAlias horig hfinish
  have hone : format ≠ .reserve → format ≠ .characters → statement.footprint = .ok 1 := by
    intro hreserve hcharacters
    obtain ⟨hstringz, hblkw⟩ := Mnemonic.ne_of_format? hformat hreserve hcharacters
    exact footprint_of_ne hstringz hblkw
  simp only [encode, hformat]
  cases format with
  | operate => exact encodeAs_operate h hformat (hone nofun nofun)
  | complement => exact encodeAs_complement h hformat (hone nofun nofun)
  | branch => exact encodeAs_branch h hformat (hone nofun nofun)
  | base => exact encodeAs_base h hformat (hone nofun nofun)
  | goBack => exact encodeAs_goBack h hformat (hone nofun nofun)
  | call => exact encodeAs_call h hformat (hone nofun nofun)
  | bare => exact encodeAs_bare h hformat (hone nofun nofun)
  | vector => exact encodeAs_vector h hformat (hone nofun nofun)
  | relative => exact encodeAs_relative h hformat (hone nofun nofun)
  | indexed => exact encodeAs_indexed h hformat (hone nofun nofun)
  | datum => exact encodeAs_datum h (Mnemonic.eq_fill_of_format? hformat)
  | reserve => exact encodeAs_reserve h (Mnemonic.eq_blkw_of_format? hformat)
  | characters => exact encodeAs_characters h (Mnemonic.eq_stringz_of_format? hformat)

end LittleComputer
