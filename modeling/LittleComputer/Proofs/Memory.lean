import LittleComputer.Proofs.Assembly
import Mathlib.Tactic

/-! # Words and the memory

The address of a statement is checked, but not where its last word lies. The next statement of the
region is checked in its turn, so only a block or a string at the end of a region can reach past the
last address. A listing shows the words that do at the addresses from zero on.

* `Statement.EndsRegion`: no statement of the region follows.
* `Emits.end_le`: every other block ends in the memory.
* `words_in_memory`: the addresses of all words.
-/

namespace LittleComputer
set_option autoImplicit false

/-- With `after` behind it, a statement is the last of its region. -/
def Statement.EndsRegion (after : List Statement) : Prop :=
  ∀ next ∈ after.head?, next.isPlaced = false

/-- The statements whose words may reach past the last address: blocks and strings that end their
region. -/
def Statement.MayOverhang (statement : Statement) (after : List Statement) : Prop :=
  (statement.mnemonic = .blkw ∨ statement.mnemonic = .stringz) ∧ EndsRegion after

instance (statement : Statement) (after : List Statement) :
    Decidable (statement.MayOverhang after) :=
  inferInstanceAs (Decidable (_ ∧ ∀ next ∈ after.head?, _))

theorem Word.toNat_ofInteger_mod (n : Int) : (Word.ofInteger n).toNat = (n % 0x10000).toNat := by
  rw [Word.ofInteger, BitVec.toNat_ofInt]
  rfl

theorem Word.toNat_ofInteger {address : Int} (h : InMemory address) :
    ((Word.ofInteger address).toNat : Int) = address := by
  have htop : maxAddress = 65535 := rfl
  obtain ⟨hlow, hhigh⟩ := h
  rw [toNat_ofInteger_mod]
  omega

section Emits
variable {table : SymbolTable} {statements : List Statement} {blocks : List Block} {block : Block}

theorem Block.Holds.length_eq_one {before : List Statement} (h : block.Holds table before)
    (hblkw : block.statement.mnemonic ≠ .blkw) (hstringz : block.statement.mnemonic ≠ .stringz) :
    block.words.length = 1 := by
  have hsize := h.size
  rw [Statement.footprint_of_ne hstringz hblkw] at hsize
  exact (Except.ok.inj hsize).symm

/-- A block that may not overhang ends in the memory: it has one word, or the next block starts
behind it. -/
theorem Emits.end_le {before after : List Statement} (h : Emits table statements blocks)
    (hrecords : Records statements table) (hsplit : statements = before ++ block.statement :: after)
    (hplaced : block.statement.isPlaced = true)
    (hblock : blocks[(before.filter Statement.isPlaced).length]? = some block)
    (hoverhang : ¬ block.statement.MayOverhang after) :
    block.address + block.words.length ≤ maxAddress + 1 := by
  have hmemory := (h.labels hrecords (List.mem_of_getElem? hblock)).1.2
  by_cases hends : Statement.EndsRegion after
  · -- an operator of one word
    have hmnemonic : block.statement.mnemonic ≠ .blkw ∧ block.statement.mnemonic ≠ .stringz :=
      ⟨fun hblkw => hoverhang ⟨.inl hblkw, hends⟩, fun hstringz => hoverhang ⟨.inr hstringz, hends⟩⟩
    obtain ⟨same, hsame, -, hholds⟩ := h.each before _ after hsplit hplaced
    rw [hblock] at hsame
    rw [← Option.some.inj hsame] at hholds
    rw [hholds.length_eq_one hmnemonic.1 hmnemonic.2]
    omega
  · -- a neighbour in the region
    cases after with
    | nil => exact absurd (by simp [Statement.EndsRegion]) hends
    | cons next after =>
      have hnext : next.isPlaced = true := by simpa [Statement.EndsRegion] using hends
      obtain ⟨same, neighbour, hsame, hneighbour, -, -, haddress⟩ :=
        h.adjacent hsplit hplaced hnext
      rw [hblock] at hsame
      rw [← Option.some.inj hsame] at haddress
      have hmemory' := (h.labels hrecords (List.mem_of_getElem? hneighbour)).1.2
      omega

end Emits

/-- **Where the words lie.** In an assembled source every placed statement has its block, and the
block starts in the memory. All its words lie in the memory, at the addresses that a listing shows,
unless it is that of a block or a string with no further statement in its region. -/
theorem words_in_memory {source : Source} {assembly : Assembly}
    (h : source.assemble = .ok assembly) :
    assembly.blocks.map Block.statement = assembly.statements.filter Statement.isPlaced ∧
      ∀ before statement after, assembly.statements = before ++ statement :: after →
        statement.isPlaced = true →
        ∃ block : Block,
          assembly.blocks[(before.filter Statement.isPlaced).length]? = some block ∧
          block.statement = statement ∧ (0 ≤ block.address ∧ block.address ≤ 0xFFFF) ∧
          ∀ i : Nat, i < block.words.length → 0 ≤ block.address + i ∧
            (¬ statement.MayOverhang after → block.address + i ≤ 0xFFFF ∧
              ((Word.ofInteger (block.address + i)).toNat : Int) = block.address + i) := by
  obtain ⟨tokens, reading, hread, hstatements, htable, hblocks⟩ := Source.assemble_eq_ok h
  have hwell := Source.read_wellFormed hread
  have hrecords := SymbolTable.records_of_ofStatements hwell htable
  have hemits := Block.emits_of_ofStatements hwell hblocks
  rw [hstatements]
  refine ⟨hemits.statements, ?_⟩
  intro before statement after hsplit hplaced
  obtain ⟨block, hblock, rfl, -⟩ := hemits.each before statement after hsplit hplaced
  have hmemory : InMemory block.address :=
    (hemits.labels hrecords (List.mem_of_getElem? hblock)).1
  refine ⟨block, hblock, rfl, hmemory, fun i hi => ?_⟩
  have hlow : 0 ≤ block.address + i := by
    have := hmemory.1
    omega
  refine ⟨hlow, fun hoverhang => ?_⟩
  have hend := hemits.end_le hrecords hsplit hplaced hblock hoverhang
  have hword : InMemory (block.address + i) := ⟨hlow, by omega⟩
  exact ⟨hword.2, Word.toNat_ofInteger hword⟩

/-- A string and a block in front of the last address. -/
def Source.fullMemory : Source :=
  ⟨[], ".ORIG xFFF9 .STRINGZ \"end\" .BLKW 2 HALT .END".toList⟩

theorem words_in_memory_fullMemory :
    ∃ assembly block, Source.fullMemory.assemble = .ok assembly ∧
      block ∈ assembly.blocks ∧ block.words.length = 2 ∧
      ∀ i : Nat, i < block.words.length → block.address + i ≤ 0xFFFF := by
  have hprogram : ∃ assembly, Source.fullMemory.assemble = .ok assembly ∧
      (∀ block ∈ assembly.blocks, block.statement.mnemonic = .blkw → block.words.length = 2) ∧
      ∃ statement ∈ assembly.statements[2]?,
        assembly.statements = assembly.statements.take 2 ++ statement :: assembly.statements.drop 3 ∧
        statement.isPlaced = true ∧ statement.mnemonic = .blkw ∧
        ¬ statement.MayOverhang (assembly.statements.drop 3) := by
    decide +kernel
  obtain ⟨assembly, h, hlength, statement, -, hsplit, hplaced, hblkw, hoverhang⟩ := hprogram
  obtain ⟨block, hblock, rfl, -, hwords⟩ := (words_in_memory h).2 _ statement _ hsplit hplaced
  have hmem : block ∈ assembly.blocks := List.mem_of_getElem? hblock
  exact ⟨assembly, block, h, hmem, hlength block hmem hblkw,
    fun i hi => ((hwords i hi).2 hoverhang).1⟩

/-- A block of two words at the last address. -/
def Source.overhang : Source :=
  ⟨[], ".ORIG xFFFF .BLKW 2 .END".toList⟩

/-- The second word of a block at the last address lies outside the memory. -/
theorem words_past_memory :
    ∃ assembly, Source.overhang.assemble = .ok assembly ∧
      ∃ block ∈ assembly.blocks, ∃ i : Nat, i < block.words.length ∧
        ¬ (0 ≤ block.address + i ∧ block.address + i ≤ 0xFFFF) := by
  decide +kernel

end LittleComputer
