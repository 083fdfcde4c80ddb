import LittleComputer.Assembly
import LittleComputer.Proofs.Encoding
import Mathlib.Tactic

/-! # Assembled sources

The walk that fills the symbol table and the walk that makes the blocks keep counters of their own.
Both counters track the declared addresses, so a label means the address of its block, and a word
that refers to a label can be decoded.

* `Emits.split`: every block is that of a statement of the program.
* `Emits.adjacent`: neighbours in a region have adjacent blocks.
* `walks_agree`: table and blocks of an assembled source agree on every address.
* `words_decode`: the word of every instruction gives back the instruction.
-/

namespace LittleComputer
set_option autoImplicit false

theorem Assembly.ofStatements_eq_ok {statements : List Statement} {assembly : Assembly} :
    Assembly.ofStatements statements = .ok assembly ↔
      assembly.statements = statements ∧
        SymbolTable.ofStatements statements = .ok assembly.symbols ∧
        Block.ofStatements assembly.symbols statements = .ok assembly.blocks := by
  constructor
  · intro h
    obtain ⟨table, htable, h⟩ := bind_eq_ok.1 h
    obtain ⟨blocks, hblocks, h⟩ := bind_eq_ok.1 h
    cases h
    exact ⟨rfl, htable, hblocks⟩
  · rintro ⟨rfl, htable, hblocks⟩
    exact bind_eq_ok.2 ⟨_, htable, bind_eq_ok.2 ⟨_, hblocks, rfl⟩⟩

/-- What an assembled source consists of. -/
theorem Source.assemble_eq_ok {source : Source} {assembly : Assembly}
    (h : source.assemble = .ok assembly) :
    ∃ tokens reading, source.read = .ok (tokens, reading) ∧
      assembly.statements = reading.statements ∧
      SymbolTable.ofStatements reading.statements = .ok assembly.symbols ∧
      Block.ofStatements assembly.symbols reading.statements = .ok assembly.blocks := by
  obtain ⟨⟨tokens, reading⟩, hread, h⟩ := bind_eq_ok.1 h
  exact ⟨tokens, reading, hread, Assembly.ofStatements_eq_ok.1 h⟩

section Emits
variable {table : SymbolTable} {statements : List Statement} {blocks : List Block}

/-- Every block is that of a statement of the program. -/
theorem Emits.split {block : Block} (h : Emits table statements blocks) (hblock : block ∈ blocks) :
    ∃ before after, statements = before ++ block.statement :: after ∧
      block.statement.isPlaced = true ∧ block.Holds table before := by
  obtain ⟨front, back, rfl⟩ := List.append_of_mem hblock
  have hstatements := h.statements
  rw [List.map_append, List.map_cons, eq_comm, List.filter_eq_append_iff] at hstatements
  obtain ⟨earlier, later, hsplit, hearlier, hlater⟩ := hstatements
  obtain ⟨skipped, after, rfl, hskipped, hplaced, -⟩ := List.filter_eq_cons_iff.1 hlater
  have hbefore : statements = (earlier ++ skipped) ++ block.statement :: after := by
    rw [hsplit, List.append_assoc]
  -- only unplaced statements were skipped, so the place of the block is the length of `front`
  have hlength : ((earlier ++ skipped).filter Statement.isPlaced).length = front.length := by
    rw [List.filter_append, hearlier, List.filter_eq_nil_iff.2 hskipped, List.append_nil,
      List.length_map]
  obtain ⟨same, hsame, -, hholds⟩ := h.each (earlier ++ skipped) _ after hbefore hplaced
  rw [hlength, List.getElem?_append_right le_rfl, Nat.sub_self, List.getElem?_cons_zero] at hsame
  rw [← Option.some.inj hsame] at hholds
  exact ⟨earlier ++ skipped, after, hbefore, hplaced, hholds⟩

/-- The blocks of neighbours in a region are adjacent. -/
theorem Emits.adjacent {before after : List Statement} {first second : Statement}
    (h : Emits table statements blocks) (hsplit : statements = before ++ first :: second :: after)
    (hfirst : first.isPlaced = true) (hsecond : second.isPlaced = true) :
    ∃ b c : Block, blocks[(before.filter Statement.isPlaced).length]? = some b ∧
      blocks[(before.filter Statement.isPlaced).length + 1]? = some c ∧
      b.statement = first ∧ c.statement = second ∧ c.address = b.address + b.words.length := by
  obtain ⟨b, hb, rfl, hholds⟩ := h.each before first (second :: after) hsplit hfirst
  have hsplit' : statements = (before ++ [b.statement]) ++ second :: after := by
    rw [hsplit, List.append_assoc, List.singleton_append]
  obtain ⟨c, hc, rfl, hholds'⟩ := h.each _ second after hsplit' hsecond
  have hlength : ((before ++ [b.statement]).filter Statement.isPlaced).length =
      (before.filter Statement.isPlaced).length + 1 := by
    rw [List.filter_append, List.length_append]
    simp [hfirst]
  rw [hlength] at hc
  refine ⟨b, c, hb, hc, rfl, rfl, hholds'.stands.unique ?_⟩
  exact stands_concat.2 (.inr ⟨hfirst, b.address, b.words.length, hholds.stands, hholds.size, rfl⟩)

/-- A label of a block has the address of the block, which is one of the machine. -/
theorem Emits.labels {block : Block} (h : Emits table statements blocks)
    (hrecords : Records statements table) (hblock : block ∈ blocks) :
    InMemory block.address ∧
      ∀ label ∈ block.statement.labels, table.address? label = some block.address := by
  obtain ⟨before, after, hsplit, hplaced, hholds⟩ := h.split hblock
  obtain ⟨address, hstands, hmemory, hfind⟩ := hrecords.find? before _ after hsplit hplaced
  rw [hstands.unique hholds.stands] at hmemory hfind
  refine ⟨hmemory, fun label hlabel => ?_⟩
  rw [SymbolTable.address?, hfind label hlabel]
  rfl

theorem Emits.mem_names {name : Text} (h : Emits table statements blocks)
    (hrecords : Records statements table) :
    name ∈ table.names ↔ ∃ block ∈ blocks, name ∈ block.statement.labels := by
  rw [hrecords.names, attachedLabels, ← h.statements, List.mem_flatMap]
  constructor
  · rintro ⟨statement, hstatement, hname⟩
    obtain ⟨block, hblock, rfl⟩ := List.mem_map.1 hstatement
    exact ⟨block, hblock, hname⟩
  · rintro ⟨block, hblock, hname⟩
    exact ⟨block.statement, List.mem_map_of_mem hblock, hname⟩

end Emits

/-- **Both walks agree on every address.** An assembled source has one block for each placed
statement, in order; every label of a statement means the address of its block, and the table has
no other names; a block is as long as its statement's size says, so neighbours in a region are
adjacent. -/
theorem walks_agree {source : Source} {assembly : Assembly} (h : source.assemble = .ok assembly) :
    (∃ tokens reading, source.read = .ok (tokens, reading) ∧
        assembly.statements = reading.statements) ∧
      assembly.blocks.map Block.statement = assembly.statements.filter Statement.isPlaced ∧
      (∀ block ∈ assembly.blocks, (0 ≤ block.address ∧ block.address ≤ 0xFFFF) ∧
        (∀ label ∈ block.statement.labels,
          assembly.symbols.address? label = some block.address) ∧
        block.statement.footprint = .ok block.words.length) ∧
      (∀ name, name ∈ assembly.symbols.names ↔
        ∃ block ∈ assembly.blocks, name ∈ block.statement.labels) ∧
      ∀ before first second after,
        assembly.statements = before ++ first :: second :: after →
        first.isPlaced = true → second.isPlaced = true →
        ∃ b c : Block, assembly.blocks[(before.filter Statement.isPlaced).length]? = some b ∧
          assembly.blocks[(before.filter Statement.isPlaced).length + 1]? = some c ∧
          b.statement = first ∧ c.statement = second ∧
          c.address = b.address + b.words.length := by
  obtain ⟨tokens, reading, hread, hstatements, htable, hblocks⟩ := Source.assemble_eq_ok h
  have hwell := Source.read_wellFormed hread
  have hrecords := SymbolTable.records_of_ofStatements hwell htable
  have hemits := Block.emits_of_ofStatements hwell hblocks
  refine ⟨⟨tokens, reading, hread, hstatements⟩, ?_, ?_, fun name => hemits.mem_names hrecords, ?_⟩
  · rw [hstatements]
    exact hemits.statements
  · intro block hblock
    obtain ⟨hmemory, hlabels⟩ := hemits.labels hrecords hblock
    obtain ⟨_, _, -, -, hholds⟩ := hemits.split hblock
    exact ⟨hmemory, hlabels, hholds.size⟩
  · intro before first second after hsplit hfirst hsecond
    rw [hstatements] at hsplit
    exact hemits.adjacent hsplit hfirst hsecond

/-- Regions that are reopened, left open and empty, labels that name nothing, and a block without
words. -/
def Source.regions : Source :=
  ⟨[], ("N .ORIG x3000 A LEA R0 C B .BLKW 0 C .STRINGZ \"hi\" TRAP x22 .END " ++
    ".ORIG x4000 .ORIG x5000 D E BR D F HALT .END G").toList⟩

theorem walks_agree_regions :
    ∃ assembly, Source.regions.assemble = .ok assembly ∧
      assembly.blocks.map Block.address = [0x3000, 0x3001, 0x3001, 0x3004, 0x5000, 0x5001] ∧
      ∀ block ∈ assembly.blocks, ∀ label ∈ block.statement.labels,
        assembly.symbols.address? label = some block.address := by
  have hprogram : ∃ assembly, Source.regions.assemble = .ok assembly ∧
      assembly.blocks.map Block.address = [0x3000, 0x3001, 0x3001, 0x3004, 0x5000, 0x5001] := by
    decide +kernel
  obtain ⟨assembly, h, haddresses⟩ := hprogram
  exact ⟨assembly, h, haddresses, fun block hblock => ((walks_agree h).2.2.1 block hblock).2.1⟩

/-! ## Decoding -/

/-- The word of an emitted instruction is read back by the table of formats. -/
theorem Emits.reads {table : SymbolTable} {statements : List Statement} {blocks : List Block}
    {block : Block} (h : Emits table statements blocks)
    (hwell : ∀ statement ∈ statements, statement.WellFormed) (hblock : block ∈ blocks)
    (hpseudo : block.statement.mnemonic.isPseudo = false) :
    ∃ word, block.words = [word] ∧
      Reads table block.address block.statement.operands word 16 block.statement.parts := by
  obtain ⟨before, after, hsplit, -, hholds⟩ := h.split hblock
  have hmem : block.statement ∈ statements := by rw [hsplit]; simp
  have hparts := Statement.parts_ne_nil hpseudo (hwell _ hmem).noAlias
  obtain ⟨word, hwords, hpacks⟩ := hholds.packs hparts
  exact ⟨word, hwords, hpacks.reads le_rfl fun i _ => rfl⟩

/-- The words of an assembled source are the numbers that its statements make. -/
theorem Source.makes_of_assemble {source : Source} {assembly : Assembly}
    (h : source.assemble = .ok assembly) {block : Block} (hblock : block ∈ assembly.blocks) :
    block.statement.Makes assembly.symbols block.address (block.words.map BitVec.toNat) := by
  obtain ⟨tokens, reading, hread, -, -, hblocks⟩ := Source.assemble_eq_ok h
  have hemits := Block.emits_of_ofStatements (Source.read_wellFormed hread) hblocks
  obtain ⟨_, _, -, -, hholds⟩ := hemits.split hblock
  exact hholds.makes

/-- **Decoding recovers every instruction.** In an assembled source every word has sixteen bits
without anything being cut off, and an instruction has a single word. Read by the table of formats,
that word gives back the opcode and the other fixed bits, the numbers of the registers, the
immediate, the address of the label and the low byte of the trap vector. -/
theorem words_decode {source : Source} {assembly : Assembly}
    (h : source.assemble = .ok assembly) :
    ∀ block ∈ assembly.blocks, (∀ word ∈ block.words, word.toNat ≤ 0xFFFF) ∧
      block.statement.Makes assembly.symbols block.address (block.words.map BitVec.toNat) ∧
      (block.statement.mnemonic.isPseudo = false → ∃ word, block.words = [word] ∧
        Reads assembly.symbols block.address block.statement.operands word 16
          block.statement.parts) := by
  obtain ⟨tokens, reading, hread, -, -, hblocks⟩ := Source.assemble_eq_ok h
  have hwell := Source.read_wellFormed hread
  have hemits := Block.emits_of_ofStatements hwell hblocks
  intro block hblock
  exact ⟨fun word _ => Nat.le_of_lt_succ word.isLt, Source.makes_of_assemble h hblock,
    hemits.reads hwell hblock⟩

/-- Labels on both sides, both forms of an addition, and a vector that is cut to its byte. -/
def Source.loop : Source :=
  ⟨[], (".ORIG x3000 TOP ADD R1 R2 #-1 ADD R1 R2 R3 NOT R4 R5 BRnp TOP JSR SUB LD R0 K " ++
    "TRAP x1FF SUB LDR R6 R7 #-32 RET K .FILL #-2 .END").toList⟩

theorem words_decode_loop :
    ∃ assembly, Source.loop.assemble = .ok assembly ∧
      assembly.words = [0x12BF, 0x1283, 0x997F, 0x0BFC, 0x4802, 0x2003, 0xF0FF, 0x6DE0, 0xC1C0,
        0xFFFE] ∧
      ∀ block ∈ assembly.blocks, block.statement.mnemonic.isPseudo = false →
        ∃ word, block.words = [word] ∧
          Reads assembly.symbols block.address block.statement.operands word 16
            block.statement.parts := by
  have hprogram : ∃ assembly, Source.loop.assemble = .ok assembly ∧
      assembly.words = [0x12BF, 0x1283, 0x997F, 0x0BFC, 0x4802, 0x2003, 0xF0FF, 0x6DE0, 0xC1C0,
        0xFFFE] := by
    decide +kernel
  obtain ⟨assembly, h, hwords⟩ := hprogram
  exact ⟨assembly, h, hwords, fun block hblock => (words_decode h block hblock).2.2⟩

end LittleComputer
