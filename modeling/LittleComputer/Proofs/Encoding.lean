import LittleComputer.Proofs.Formats
import LittleComputer.Proofs.Layout
import Mathlib.Tactic

/-! # The second walk

The walk that makes the blocks is compared with the declared addresses and with what is asked of
the operands.

* `Emits table before blocks`: the blocks of the statements `before`.
* `StopsEncoding`: what ends the walk at a statement.
* `Block.encodeFrom_outcome`: the walk emits a block for every placed statement, or stops at the
  first that stands nowhere or does not fit, or meets a literal beyond the limits.
* `encoding_exact`: behind a successful first walk, only statements that do not fit stop it.
-/

namespace LittleComputer
set_option autoImplicit false

/-! ## What the walk emits -/

/-- A statement behind `before` stands somewhere and fits there. -/
def FitsBehind (table : SymbolTable) (before : List Statement) (statement : Statement) : Prop :=
  ∃ address, Stands before address ∧ statement.Fits table address

/-- A block is that of its statement behind `earlier`. -/
structure Block.Holds (table : SymbolTable) (earlier : List Statement) (block : Block) : Prop where
  stands : Stands earlier block.address
  fits : block.statement.Fits table block.address
  size : block.statement.footprint = .ok block.words.length
  packs : block.statement.parts ≠ [] → ∃ word, block.words = [word] ∧
    Packs table block.address block.statement.operands 16 block.statement.parts word
  makes : block.statement.Makes table block.address (block.words.map BitVec.toNat)

/-- The blocks of the statements `before`: one for each placed statement, in order. -/
structure Emits (table : SymbolTable) (before : List Statement) (blocks : List Block) : Prop where
  statements : blocks.map Block.statement = before.filter Statement.isPlaced
  each : EveryPlaced (fun earlier statement => ∃ block,
    blocks[(earlier.filter Statement.isPlaced).length]? = some block ∧
      block.statement = statement ∧ block.Holds table earlier) before

section Emits
variable {table : SymbolTable} {before : List Statement} {blocks : List Block} {last : Statement}

theorem emits_nil : Emits table [] [] :=
  ⟨rfl, everyPlaced_nil _⟩

theorem Emits.length_eq (h : Emits table before blocks) :
    blocks.length = (before.filter Statement.isPlaced).length := by
  rw [← h.statements, List.length_map]

theorem Emits.concat_of_not (h : Emits table before blocks) (hlast : last.isPlaced = false) :
    Emits table (before ++ [last]) blocks := by
  refine ⟨?_, h.each.concat_of_not hlast⟩
  rw [h.statements, List.filter_append]
  simp [hlast]

theorem Emits.concat {block : Block} (h : Emits table before blocks)
    (hplaced : block.statement.isPlaced = true) (hblock : block.Holds table before) :
    Emits table (before ++ [block.statement]) (blocks ++ [block]) := by
  refine ⟨?_, everyPlaced_concat.2 ⟨h.each.imp ?_, fun _ => ⟨block, ?_, rfl, hblock⟩⟩⟩
  · rw [List.map_append, h.statements, List.filter_append]
    simp [hplaced]
  · rintro earlier statement ⟨first, hfirst, hholds⟩
    refine ⟨first, ?_, hholds⟩
    have hlt := (List.getElem?_eq_some_iff.1 hfirst).1
    rw [List.getElem?_append_left hlt]
    exact hfirst
  · rw [← h.length_eq, List.getElem?_concat_length]

/-- Emitted statements fit where they stand. -/
theorem Emits.fits (h : Emits table before blocks) : EveryPlaced (FitsBehind table) before := by
  refine h.each.imp ?_
  rintro earlier _ ⟨block, -, rfl, hblock⟩
  exact ⟨block.address, hblock.stands, hblock.fits⟩

end Emits

/-! ## What stops the walk -/

/-- What ends the second walk at a statement behind `before`: it stands nowhere, or one of its
operands is refused. -/
inductive StopsEncoding (table : SymbolTable) (before : List Statement) (statement : Statement) :
    Failure → Prop
  | nowhere (hnowhere : ∀ address, ¬ Stands before address) :
    StopsEncoding table before statement
      (Diagnostic.plain (.outsideRegion .encoding statement) statement.location).failure
  | refused {address : Int} {diagnostic : Diagnostic} (hstands : Stands before address)
    (hrefusal : Refusal table address statement diagnostic) :
    StopsEncoding table before statement diagnostic.failure

namespace Block
variable {table : SymbolTable} {counter : Option Int} {statement : Statement}
  {rest : List Statement}

theorem encodeFrom_orig (h : statement.mnemonic = .orig) :
    encodeFrom table counter (statement :: rest) =
      statement.origin.bind fun address => encodeFrom table (some address) rest := by
  rw [encodeFrom.eq_def]
  simp only [h]
  rfl

theorem encodeFrom_finish (h : statement.mnemonic = .finish) :
    encodeFrom table counter (statement :: rest) = encodeFrom table none rest := by
  rw [encodeFrom.eq_def]
  simp only [h]

theorem encodeFrom_nowhere (h : statement.isPlaced = true) :
    encodeFrom table none (statement :: rest) = .error
      (Diagnostic.plain (.outsideRegion .encoding statement) statement.location).failure := by
  obtain ⟨horig, hfinish⟩ := Statement.isPlaced_iff.1 h
  rw [encodeFrom.eq_def]
  dsimp only
  split
  · exact absurd ‹_› horig
  · exact absurd ‹_› hfinish
  · rfl

theorem encodeFrom_placed {address : Int} (h : statement.isPlaced = true) :
    encodeFrom table (some address) (statement :: rest) =
      (statement.encode table (address + 1)).bind fun words =>
        statement.footprint.bind fun size =>
          (encodeFrom table (some (address + size)) rest).map
            (⟨address, statement, words⟩ :: ·) := by
  obtain ⟨horig, hfinish⟩ := Statement.isPlaced_iff.1 h
  rw [encodeFrom.eq_def]
  dsimp only
  split
  · exact absurd ‹_› horig
  · exact absurd ‹_› hfinish
  · rfl

/-! ## The whole walk -/

/-- **The second walk.** It emits a block for every placed statement, stops at the first that
stands nowhere or is refused, or meets a literal beyond the limits. -/
theorem encodeFrom_outcome {before statements : List Statement} {done : List Block}
    (hwell : ∀ statement ∈ statements, statement.WellFormed) (htracks : Tracks before counter)
    (hemits : Emits table before done) :
    WalkOutcome (Emits table) (StopsEncoding table) before statements
      ((encodeFrom table counter statements).map (done ++ ·)) := by
  -- `done` are the blocks of `before`; they lead the result, so that it is about all statements
  induction statements generalizing before counter done with
  | nil =>
    rw [encodeFrom, Except.map, List.append_nil]
    exact .nil hemits
  | cons statement rest ih =>
    have hhead := hwell statement List.mem_cons_self
    have hrest : ∀ s ∈ rest, s.WellFormed := fun s hs => hwell s (List.mem_cons_of_mem _ hs)
    rcases statement.sort_cases with horig | hfinish | hplaced
    · rw [encodeFrom_orig horig]
      rcases hhead.origin_outcome horig with ⟨value, hvalue, -⟩ | ⟨fault, hfault, hlimits⟩
      · have hnot := Statement.not_isPlaced_of_orig horig
        rw [hvalue]
        exact (ih hrest (Tracks.orig horig hvalue) (hemits.concat_of_not hnot)).cons
      · rw [hfault]
        exact .beyond List.mem_cons_self hlimits
    · rw [encodeFrom_finish hfinish]
      have hnot := Statement.not_isPlaced_of_finish hfinish
      exact (ih hrest (Tracks.finish hfinish) (hemits.concat_of_not hnot)).cons
    · cases counter with
      | none =>
        rw [encodeFrom_nowhere hplaced]
        exact .head hplaced hemits (.nowhere fun a ha => nomatch (htracks a).1 ha)
      | some address =>
        have hstands : Stands before address := (htracks address).2 rfl
        have houtcome : EncodeOutcome table address statement
            (statement.encode table (address + 1)) :=
          Statement.encode_outcome hhead (Statement.isPlaced_iff.1 hplaced).1
            (Statement.isPlaced_iff.1 hplaced).2
        rw [encodeFrom_placed hplaced]
        cases hencode : statement.encode table (address + 1) with
        | error failure =>
          rw [hencode] at houtcome
          cases houtcome with
          | refused hrefusal => exact .head hplaced hemits (.refused hstands hrefusal)
          | beyond hlimits => exact .beyond List.mem_cons_self hlimits
        | ok words =>
          rw [hencode] at houtcome
          cases houtcome with
          | encoded hfits hsize hpacks hmakes =>
            have hblock : Holds table before ⟨address, statement, words⟩ :=
              ⟨hstands, hfits, hsize, hpacks, hmakes⟩
            have hnext := hemits.concat hplaced hblock
            have hstep := ih hrest (htracks.placed hplaced hsize) hnext
            rw [hsize]
            simp only [Except.bind]
            cases hresult : encodeFrom table (some (address + words.length)) rest with
            | error failure =>
              rw [hresult] at hstep
              exact hstep.cons
            | ok blocks =>
              rw [hresult, Except.map, List.append_assoc] at hstep
              exact hstep.cons

theorem ofStatements_outcome (table : SymbolTable) {statements : List Statement}
    (hwell : ∀ statement ∈ statements, statement.WellFormed) :
    WalkOutcome (Emits table) (StopsEncoding table) [] statements
      (ofStatements table statements) := by
  have h : WalkOutcome (Emits table) (StopsEncoding table) [] statements
      ((encodeFrom table none statements).map ([] ++ ·)) :=
    encodeFrom_outcome hwell tracks_nil emits_nil
  rw [ofStatements]
  cases hresult : encodeFrom table none statements with
  | error failure =>
    rw [hresult] at h
    exact h
  | ok blocks =>
    rw [hresult] at h
    exact h

theorem emits_of_ofStatements {statements : List Statement} {blocks : List Block}
    (hwell : ∀ statement ∈ statements, statement.WellFormed)
    (h : ofStatements table statements = .ok blocks) : Emits table statements blocks := by
  have houtcome := ofStatements_outcome table hwell
  rw [h] at houtcome
  exact houtcome.good

end Block

/-! ## Reports -/

theorem Records.inMemory {before : List Statement} {table : SymbolTable} {name : Text}
    {target : Int} (h : Records before table) (htarget : table.address? name = some target) :
    InMemory target := by
  obtain ⟨symbol, hfind, rfl⟩ := Option.map_eq_some_iff.1 htarget
  obtain ⟨earlier, statement, later, hsplit, hplaced, -, hstands, -⟩ :=
    h.source (List.mem_of_find?_eq_some hfind)
  obtain ⟨address, hstands', hmemory, -⟩ := h.entries earlier statement later hsplit hplaced
  rw [hstands.unique hstands']
  exact hmemory

section Reports
variable {table : SymbolTable} {address : Int} {statement : Statement}

/-- What an operand within the limits puts into a field can be written. -/
theorem Token.Denotes.natAbs_lt {token : Token} {value : Int}
    (h : token.Denotes table address value) (hlexical : token.IsLexical)
    (hlimits : token.WithinLimits) (hmemory : InMemory address)
    (htable : ∀ name target, table.address? name = some target → InMemory target) :
    value.natAbs < 10 ^ Numeral.limit := by
  cases h with
  | immediate hkind hvalue =>
    rcases hlexical.immediateValue hkind with ⟨other, hother, hlt⟩ | ⟨fault, hfault, -⟩
    · rw [hvalue] at hother
      rw [Except.ok.inj hother]
      exact hlt hlimits
    · rw [hvalue] at hfault
      cases hfault
  | distance hkind htarget =>
    obtain ⟨hlow, hhigh⟩ := htable _ _ htarget
    obtain ⟨hlow', hhigh'⟩ := hmemory
    have htop : maxAddress = 65535 := rfl
    have hpow := Numeral.ten_pow_le
    omega

theorem fieldLimits_natAbs_lt {mnemonic : Mnemonic} {field : FieldLimits}
    (h : mnemonic.checkedField? = some field) :
    field.bits < 10 ^ 5 ∧ field.least.natAbs < 10 ^ 5 ∧ field.greatest.natAbs < 10 ^ 5 := by
  cases mnemonic <;> cases h <;> decide

/-- The report about a statement within the limits can be written. -/
theorem Refusal.failure_eq {diagnostic : Diagnostic}
    (h : Refusal table address statement diagnostic) (hwell : statement.WellFormed)
    (hlimits : statement.WithinLimits) (hmemory : InMemory address)
    (htable : ∀ name target, table.address? name = some target → InMemory target) :
    diagnostic.failure = .diagnostic diagnostic := by
  cases h with
  | undefined => exact Diagnostic.failure_eq (fun _ => nofun) (fun n hn => nomatch hn)
  | character => exact Diagnostic.failure_eq (fun _ => nofun) (fun n hn => nomatch hn)
  | @range token value field htoken hvalue hfield =>
    obtain ⟨hbits, hleast, hgreatest⟩ := fieldLimits_eq hfield
    have hwritable := hvalue.natAbs_lt (hwell.operands token htoken) (hlimits.1 token htoken)
      hmemory htable
    have hsmall := fieldLimits_natAbs_lt hfield
    have hpow := Numeral.ten_pow_le
    apply Diagnostic.failure_eq
    · intro other hother
      injection hother with _ hzero
      exact hbits hzero
    · intro n hn
      have hn : n = value ∨ n = field.bits ∨ n = field.least ∨ n = field.greatest := by
        simpa [Diagnostic.plain, Problem.integers, hleast, hgreatest] using hn
      rcases hn with rfl | rfl | rfl | rfl
      · exact hwritable
      all_goals omega

/-- A refusal is none of the reports about statements that cannot be encoded at all. -/
theorem Refusal.problem_ne {diagnostic : Diagnostic}
    (h : Refusal table address statement diagnostic) :
    (∀ other, diagnostic.problem ≠ .outsideRegion .encoding other) ∧
      ∀ mnemonic, diagnostic.problem ≠ .noEncoding mnemonic := by
  cases h <;> exact ⟨fun _ => nofun, fun _ => nofun⟩

end Reports

/-! ## Acceptance -/

theorem Statement.WellFormed.fits_of_trap {statement : Statement} (h : statement.WellFormed)
    (htrap : statement.mnemonic = .trap) (table : SymbolTable) (address : Int) :
    statement.Fits table address := by
  have hfills := h.fills
  rw [htrap] at hfills
  obtain ⟨vector, hoperands, hvector⟩ := Fills.one hfills
  intro token htoken
  rw [hoperands, List.mem_singleton] at htoken
  rw [htoken, htrap]
  exact Token.fits_of_unchecked (OperandKind.accepts_immediate hvector) rfl

/-- How the second walk ends behind a first one that recorded all statements: the only statements
that stop it are those that do not fit. -/
theorem Records.encoding_cases {statements : List Statement} {table : SymbolTable}
    (hrecords : Records statements table)
    (hwell : ∀ statement ∈ statements, statement.WellFormed) :
    (∃ blocks, Block.ofStatements table statements = .ok blocks ∧ Emits table statements blocks) ∨
      (∃ before statement after address diagnostic, statements = before ++ statement :: after ∧
        statement.isPlaced = true ∧ Stands before address ∧ InMemory address ∧
        EveryPlaced (FitsBehind table) before ∧ Refusal table address statement diagnostic ∧
        Block.ofStatements table statements = .error diagnostic.failure) ∨
      ∃ statement fault, statement ∈ statements ∧ ¬ statement.WithinLimits ∧
        Block.ofStatements table statements = .error (.fault fault) := by
  have houtcome := Block.ofStatements_outcome table hwell
  generalize Block.ofStatements table statements = result at houtcome
  cases houtcome with
  | finished hemits => exact .inl ⟨_, rfl, hemits⟩
  | @stopped before after statement failure blocks hsplit hplaced hemits hstops =>
    obtain ⟨address, hstands, hmemory, -⟩ := hrecords.entries before statement after hsplit hplaced
    rw [List.nil_append] at hemits hstops
    cases hstops with
    | nowhere hnowhere => exact absurd hstands (hnowhere address)
    | refused hstands' hrefusal =>
      rw [hstands'.unique hstands] at hrefusal
      exact .inr (.inl ⟨before, statement, after, address, _, hsplit, hplaced, hstands, hmemory,
        hemits.fits, hrefusal, rfl⟩)
  | beyond hmem hlimits => exact .inr (.inr ⟨_, _, hmem, hlimits, rfl⟩)

/-- **Exact acceptance of the second walk.** Behind a successful first walk, and within the limits
of numbers, the second succeeds exactly when every placed statement fits where it stands. A
diagnostic is always about the first statement that does not fit; it is never about a statement
outside every region or without an encoding. A trap fits with any vector. -/
theorem encoding_exact {source : Source} {tokens : List Token} {reading : Reading}
    {table : SymbolTable} (hread : source.read = .ok (tokens, reading))
    (htable : SymbolTable.ofStatements reading.statements = .ok table) :
    ((∀ statement ∈ reading.statements, statement.WithinLimits) →
        ((∃ blocks, Block.ofStatements table reading.statements = .ok blocks) ↔
          EveryPlaced (FitsBehind table) reading.statements) ∧
        ∀ failure, Block.ofStatements table reading.statements = .error failure →
          ∃ diagnostic, failure = .diagnostic diagnostic) ∧
      (∀ diagnostic, Block.ofStatements table reading.statements = .error (.diagnostic diagnostic) →
        (∃ before statement after address, reading.statements = before ++ statement :: after ∧
          statement.isPlaced = true ∧ Stands before address ∧
          EveryPlaced (FitsBehind table) before ∧ ¬ statement.Fits table address ∧
          Refusal table address statement diagnostic) ∧
        (∀ other, diagnostic.problem ≠ .outsideRegion .encoding other) ∧
        ∀ mnemonic, diagnostic.problem ≠ .noEncoding mnemonic) ∧
      ∀ statement ∈ reading.statements, statement.mnemonic = .trap →
        ∀ address, statement.Fits table address := by
  have hwell := Source.read_wellFormed hread
  have hrecords := SymbolTable.records_of_ofStatements hwell htable
  refine ⟨fun hlimits => ?_, ?_,
    fun statement hmem htrap => (hwell statement hmem).fits_of_trap htrap table⟩
  · rcases hrecords.encoding_cases hwell with ⟨blocks, hok, hemits⟩ |
      ⟨before, statement, after, address, diagnostic, hsplit, hplaced, hstands, hmemory, hfront,
        hrefusal, herror⟩ | ⟨statement, fault, hmem, hbeyond, -⟩
    · refine ⟨⟨fun _ => hemits.fits, fun _ => ⟨blocks, hok⟩⟩, fun failure hfailure => ?_⟩
      rw [hok] at hfailure
      cases hfailure
    · have hmem : statement ∈ reading.statements := by rw [hsplit]; simp
      refine ⟨⟨?_, ?_⟩, fun failure hfailure => ⟨diagnostic, ?_⟩⟩
      · rintro ⟨blocks, hok⟩
        rw [herror] at hok
        cases hok
      · intro hfits
        obtain ⟨other, hother, hfits⟩ := hfits before statement after hsplit hplaced
        rw [hother.unique hstands] at hfits
        exact absurd hfits hrefusal.not_fits
      · rw [herror] at hfailure
        rw [← Except.error.inj hfailure]
        exact hrefusal.failure_eq (hwell statement hmem) (hlimits statement hmem) hmemory
          fun name target => hrecords.inMemory
    · exact absurd (hlimits statement hmem) hbeyond
  · intro diagnostic hdiagnostic
    rcases hrecords.encoding_cases hwell with ⟨blocks, hok, -⟩ |
      ⟨before, statement, after, address, reported, hsplit, hplaced, hstands, -, hfront, hrefusal,
        herror⟩ | ⟨statement, fault, -, -, herror⟩
    · rw [hok] at hdiagnostic
      cases hdiagnostic
    · rw [herror] at hdiagnostic
      have hreported : diagnostic = reported :=
        Diagnostic.eq_of_failure_eq (Except.error.inj hdiagnostic)
      rw [hreported]
      exact ⟨⟨before, statement, after, address, hsplit, hplaced, hstands, hfront,
        hrefusal.not_fits, hrefusal⟩, hrefusal.problem_ne⟩
    · rw [herror] at hdiagnostic
      cases hdiagnostic

/-- Every field at an end of its range: the label is 255 words behind the instruction. -/
def Source.extremes : Source :=
  ⟨[], (".ORIG x3000 TOP LD R1 FAR ADD R2 R1 #-16 LDR R3 R2 #31 BRn TOP TRAP x1FF " ++
    ".STRINGZ \"hi\" .BLKW 248 FAR .FILL x-8000 .END").toList⟩

theorem encoding_exact_extremes :
    ∃ tokens reading table, Source.extremes.read = .ok (tokens, reading) ∧
      SymbolTable.ofStatements reading.statements = .ok table ∧
      EveryPlaced (FitsBehind table) reading.statements := by
  have hprogram : ∃ result, Source.extremes.read = .ok result ∧
      ∃ table, SymbolTable.ofStatements result.2.statements = .ok table ∧
      (∀ statement ∈ result.2.statements, statement.WithinLimits) ∧
      ∃ blocks, Block.ofStatements table result.2.statements = .ok blocks ∧ blocks.length = 8 := by
    decide +kernel
  obtain ⟨⟨tokens, reading⟩, hread, table, htable, hlimits, blocks, hblocks, -⟩ := hprogram
  exact ⟨tokens, reading, table, hread, htable,
    ((encoding_exact hread htable).1 hlimits).1.1 ⟨blocks, hblocks⟩⟩

end LittleComputer
