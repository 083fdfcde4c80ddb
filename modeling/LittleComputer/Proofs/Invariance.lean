import LittleComputer.Proofs.ChangedReading
import Mathlib.Tactic

/-! # What a change leaves alone

Two consequences of the fact that both walks keep in step.

* `relocation_exact`: a program whose `.ORIG` values are all moved by one distance makes the same
  words at addresses moved by that distance, or fails in the same way.
* `renaming_invariant`: an injective renaming of the labels changes nothing but the names in the
  table.
-/

namespace LittleComputer
set_option autoImplicit false

/-! ## The change that leaves names and places alone -/

namespace Change
variable {d : Int}

theorem MapsStatement.eq {s s' : Statement} (h : identity.MapsStatement d s s')
    (horig : s.mnemonic ≠ .orig) : s' = s := by
  have hoperands : s'.operands = s.operands := by
    have htokens := (h.operands horig).imp fun _ _ ht => ht.eq.symm
    rw [List.forall₂_eq_eq_eq] at htokens
    exact htokens.symm
  obtain ⟨labels, mnemonic, operands, location⟩ := s
  obtain ⟨labels', mnemonic', operands', location'⟩ := s'
  have hlabels : labels' = labels.map id := h.labels
  have hmnemonic : mnemonic' = mnemonic := h.mnemonic
  have hplace : location' = location := eq_of_option_rel h.place
  rw [List.map_id] at hlabels
  have hoperands : operands' = operands := hoperands
  rw [hlabels, hmnemonic, hplace, hoperands]

theorem MapsProblem.eq {p p' : Problem} (h : identity.MapsProblem p p') : p' = p := by
  cases h with
  | same => rfl
  | operatorExpected h => rw [h.eq]
  | operandMismatch _ _ _ h => rw [h.eq]
  | outsideRegion _ h horig => rw [h.eq horig]
  | duplicateLabel name h => rw [eq_of_option_rel h]; rfl
  | undefinedLabel name h => rw [h rfl]; rfl

theorem MapsFailure.eq {e e' : Failure} (h : identity.MapsFailure e e') : e' = e := by
  cases h with
  | fault h =>
    cases h with
    | same => rfl
    | wrongKind _ h => rw [h.eq]
  | diagnostic h =>
    cases h with
    | plain hproblem hplace => rw [hproblem.eq, eq_of_option_rel hplace]

end Change

/-! ## Moving a program -/

/-- A statement and the same statement moved: the operand of an `.ORIG` is replaced by one whose
value is `d` larger, all others stay. -/
def Statement.Moved (d : Int) (s s' : Statement) : Prop :=
  if s.mnemonic = .orig then
    s' = { s with operands := s'.operands } ∧ s'.operands.length = 1 ∧
      ∃ value, s.origin = .ok value ∧ s'.origin = .ok (value + d)
  else s' = s

instance (d : Int) (s s' : Statement) : Decidable (s.Moved d s') :=
  inferInstanceAs (Decidable (ite _ (_ ∧ _ ∧ ∃ value, s.origin = .ok value ∧ _) _))

/-- A table with every address moved. -/
def SymbolTable.moved (d : Int) (table : SymbolTable) : SymbolTable :=
  ⟨table.symbols.map fun symbol => { symbol with address := symbol.address + d }⟩

/-- A block at a moved address. -/
def Block.moved (d : Int) (block : Block) : Block :=
  { block with address := block.address + d }

theorem Statement.Moved.maps {d : Int} {s s' : Statement} (h : s.Moved d s') :
    Change.identity.MapsStatement d s s' := by
  unfold Statement.Moved at h
  split at h
  · next horig =>
    obtain ⟨hsame, -, value, hvalue, hvalue'⟩ := h
    rw [hsame]
    refine ⟨(List.map_id _).symm, rfl, option_rel_refl _, fun hne => absurd horig hne, ?_⟩
    intro _ left right
    rw [← hsame, hvalue, hvalue']
    exact .ok rfl
  · next horig =>
    rw [h]
    refine ⟨(List.map_id _).symm, rfl, option_rel_refl _, fun _ => ?_, fun heq => absurd heq horig⟩
    exact List.forall₂_same.2 fun t _ => Change.mapsToken_identity t

theorem Change.MapsTable.eq_moved {d : Int} {table table' : SymbolTable}
    (h : identity.MapsTable d table table') : table' = table.moved d := by
  have hsymbols : table'.symbols.map id = (table.moved d).symbols := by
    refine map_eq_of_forall₂ h fun x x' hx => ?_
    obtain ⟨name, address, location⟩ := x
    obtain ⟨name', address', location'⟩ := x'
    have hname : name' = name := hx.name
    have haddress : address' = address + d := hx.address
    have hplace : location' = location := eq_of_option_rel hx.place
    rw [hname, haddress, hplace, id_eq]
  rw [List.map_id] at hsymbols
  exact congrArg SymbolTable.mk hsymbols

theorem Change.eq_moved_of_blocks {d : Int} {blocks blocks' : List Block}
    (h : List.Forall₂ (identity.MapsBlock d) blocks blocks') :
    blocks' = blocks.map (Block.moved d) := by
  rw [← List.map_id blocks']
  refine map_eq_of_forall₂ h fun b b' hb => ?_
  obtain ⟨address, statement, words⟩ := b
  obtain ⟨address', statement', words'⟩ := b'
  have haddress : address' = address + d := hb.address
  have hstatement : statement' = statement := hb.statement.eq hb.placed
  have hwords : words' = words := hb.words
  rw [haddress, hstatement, hwords, Block.moved, id_eq]

/-- **Relocation.** Let a program be moved by `d`. If both programs pass the first walk, the table
of the moved one has every address moved by `d`; and the second walk makes the same words at moved
addresses, or fails in both programs with one and the same failure. -/
theorem relocation_exact {d : Int} {statements moved : List Statement}
    {table table' : SymbolTable} (h : List.Forall₂ (Statement.Moved d) statements moved)
    (htable : SymbolTable.ofStatements statements = .ok table)
    (htable' : SymbolTable.ofStatements moved = .ok table') :
    table' = table.moved d ∧
      Block.ofStatements table' moved =
        (Block.ofStatements table statements).map (List.map (Block.moved d)) := by
  have hmaps : List.Forall₂ (Change.identity.MapsStatement d) statements moved :=
    h.imp fun _ _ => Statement.Moved.maps
  have hwalk : Mirrors True True Change.identity.MapsFailure (Change.identity.MapsTable d)
      (SymbolTable.ofStatements statements) (SymbolTable.ofStatements moved) :=
    Change.mirrors_extend hmaps Change.mapsTable_empty (.inr ⟨trivial, trivial⟩) none
  rw [htable, htable'] at hwalk
  cases hwalk with
  | ok hmapsTable =>
    refine ⟨hmapsTable.eq_moved, ?_⟩
    have hblocks : Mirrors False False Change.identity.MapsFailure
        (List.Forall₂ (Change.identity.MapsBlock d)) (Block.ofStatements table statements)
        (Block.ofStatements table' moved) :=
      Change.mirrors_encodeFrom hmaps (hmapsTable.lookup False False) none
    generalize Block.ofStatements table statements = x at hblocks ⊢
    generalize Block.ofStatements table' moved = y at hblocks ⊢
    cases hblocks with
    | ok hblocks => rw [Change.eq_moved_of_blocks hblocks]; rfl
    | error herror => rw [herror.eq]; rfl
    | first h => exact h.elim
    | second h => exact h.elim

/-- Two regions that refer to each other, at `x3000` and behind it. -/
def Source.neighbours (first second : String) : Source :=
  ⟨[], (".ORIG " ++ first ++ " A LD R1 B BRn A .END .ORIG " ++ second ++
    " B .BLKW 2 LEA R0 A JSR B .END").toList⟩

theorem relocation_exact_neighbours :
    ∃ statements moved table table',
      SymbolTable.ofStatements statements = .ok table ∧
      SymbolTable.ofStatements moved = .ok table' ∧
      List.Forall₂ (Statement.Moved (-0x2FFF)) statements moved ∧
      table'.symbols.map Symbol.address = [0x1, 0x81] ∧
      Block.ofStatements table' moved =
        (Block.ofStatements table statements).map (List.map (Block.moved (-0x2FFF))) := by
  have hprograms : ∃ p, (Source.neighbours "x3000" "x3080").read = .ok p ∧
      ∃ q, (Source.neighbours "x0001" "#+129").read = .ok q ∧
      ∃ table, SymbolTable.ofStatements p.2.statements = .ok table ∧
      ∃ table', SymbolTable.ofStatements q.2.statements = .ok table' ∧
      p.2.statements.length = q.2.statements.length ∧
      (∀ pair ∈ p.2.statements.zip q.2.statements, pair.1.Moved (-0x2FFF) pair.2) ∧
      table'.symbols.map Symbol.address = [0x1, 0x81] := by
    decide +kernel
  obtain ⟨p, -, q, -, table, htable, table', htable', hlength, hmoved, haddresses⟩ := hprograms
  have h : List.Forall₂ (Statement.Moved (-0x2FFF)) p.2.statements q.2.statements :=
    List.forall₂_iff_zip.2 ⟨hlength, fun hmem => hmoved _ hmem⟩
  exact ⟨_, _, table, table', htable, htable', h, haddresses,
    (relocation_exact h htable htable').2⟩

/-! ## Renaming the labels -/

/-- A token with another name if it is a label, and as it is otherwise. -/
def Token.renamed (r : Text → Text) (token : Token) : Token :=
  if token.kind = .label then { token with content := r token.content } else token

/-- A table with other names. -/
def SymbolTable.renamed (r : Text → Text) (table : SymbolTable) : SymbolTable :=
  ⟨table.symbols.map fun symbol => { symbol with name := r symbol.name }⟩

section Renaming
variable {r : Text → Text}

/-- The change that renames labels in place. -/
def Change.ofRenaming (hr : Function.Injective r) : Change :=
  ⟨r, hr, Eq⟩

theorem Change.maps_renamed (hr : Function.Injective r) (tokens : List Token) :
    List.Forall₂ (ofRenaming hr).MapsToken tokens (tokens.map (Token.renamed r)) := by
  rw [List.forall₂_map_right_iff, List.forall₂_same]
  intro token _
  unfold Token.renamed
  split
  · next hkind => exact ⟨rfl, fun _ => rfl, fun hne => absurd hkind hne, rfl⟩
  · next hkind => exact ⟨rfl, fun heq => absurd heq hkind, fun _ => rfl, rfl⟩

theorem Change.MapsTable.eq_renamed {hr : Function.Injective r} {table table' : SymbolTable}
    (h : (ofRenaming hr).MapsTable 0 table table') : table' = table.renamed r := by
  have hsymbols : table'.symbols.map id = (table.renamed r).symbols := by
    refine map_eq_of_forall₂ h fun x x' hx => ?_
    obtain ⟨name, address, location⟩ := x
    obtain ⟨name', address', location'⟩ := x'
    have hname : name' = r name := hx.name
    have haddress : address' = address + 0 := hx.address
    have hplace : location' = location := eq_of_option_rel hx.place
    rw [hname, haddress, hplace, Int.add_zero, id_eq]
  rw [List.map_id] at hsymbols
  exact congrArg SymbolTable.mk hsymbols

/-- **Label names do not matter.** Renaming the labels of a list of tokens by an injective function
changes neither the outcome nor the words nor their addresses; the table has the new names in the
old order; and a failure stays of its sort, at its stage and place. -/
theorem renaming_invariant (hr : Function.Injective r) (tokens : List Token) :
    ((∃ assembly, Token.assemble tokens = .ok assembly) ↔
        ∃ renamed, Token.assemble (tokens.map (Token.renamed r)) = .ok renamed) ∧
      (∀ assembly renamed, Token.assemble tokens = .ok assembly →
        Token.assemble (tokens.map (Token.renamed r)) = .ok renamed →
        renamed.words = assembly.words ∧
          renamed.blocks.map Block.words = assembly.blocks.map Block.words ∧
          renamed.blocks.map Block.address = assembly.blocks.map Block.address ∧
          renamed.symbols = assembly.symbols.renamed r) ∧
      ∀ stage stage' failure failure', Token.assemble tokens = .error (stage, failure) →
        Token.assemble (tokens.map (Token.renamed r)) = .error (stage', failure') →
        stage' = stage ∧ failure'.sort = failure.sort ∧ failure'.location = failure.location := by
  have hmirrors : Mirrors False False _ _ (Token.assemble tokens)
      (Token.assemble (tokens.map (Token.renamed r))) :=
    Change.mirrors_assemble (Change.maps_renamed hr tokens)
  generalize Token.assemble tokens = x at hmirrors ⊢
  generalize Token.assemble (tokens.map (Token.renamed r)) = y at hmirrors ⊢
  cases hmirrors with
  | first h => exact h.elim
  | second h => exact h.elim
  | @ok a b h =>
    refine ⟨⟨fun _ => ⟨b, rfl⟩, fun _ => ⟨a, rfl⟩⟩, ?_, fun _ _ _ _ herror => nomatch herror⟩
    rintro _ _ ⟨⟩ ⟨⟩
    exact ⟨h.words, h.blockWords, h.blockAddresses, h.symbols.eq_renamed⟩
  | @error e e' h =>
    refine ⟨⟨fun ⟨_, hok⟩ => (nomatch hok), fun ⟨_, hok⟩ => (nomatch hok)⟩,
      fun _ _ hok => (nomatch hok), ?_⟩
    rintro stage stage' failure failure' ⟨⟩ ⟨⟩
    exact ⟨h.1, h.2.sort_eq, eq_of_option_rel h.2.location_rel⟩

end Renaming

/-- Labels in front of the same statement, repeated labels, and references on both sides. -/
def Source.labelled : Source :=
  ⟨[], (".ORIG x3000 TOP TOP HERE ADD R0 R0 #1 BRp HERE JSR END LD R1 K END RET K .FILL x-1 " ++
    ".END TOP").toList⟩

theorem renaming_invariant_labelled :
    ∃ assembly renamed,
      Token.assemble (Source.labelled.scan Source.labelled.start).1 = .ok assembly ∧
      Token.assemble ((Source.labelled.scan Source.labelled.start).1.map
        (Token.renamed ('_' :: ·))) = .ok renamed ∧
      renamed.words = [0x1021, 0x03FE, 0x4801, 0x2201, 0xC1C0, 0xFFFF] ∧
      renamed.symbols.names = ["_TOP", "_HERE", "_END", "_K"].map String.toList := by
  have hr : Function.Injective ('_' :: · : Text → Text) := List.cons_injective
  have hprogram : ∃ assembly,
      Token.assemble (Source.labelled.scan Source.labelled.start).1 = .ok assembly ∧
      assembly.words = [0x1021, 0x03FE, 0x4801, 0x2201, 0xC1C0, 0xFFFF] ∧
      (assembly.symbols.renamed ('_' :: ·)).names =
        ["_TOP", "_HERE", "_END", "_K"].map String.toList := by
    decide +kernel
  obtain ⟨assembly, hassembly, hwords, hnames⟩ := hprogram
  have hinvariant := renaming_invariant hr (Source.labelled.scan Source.labelled.start).1
  obtain ⟨renamed, hrenamed⟩ := hinvariant.1.1 ⟨assembly, hassembly⟩
  obtain ⟨hsame, -, -, hsymbols⟩ := hinvariant.2.1 assembly renamed hassembly hrenamed
  exact ⟨assembly, renamed, hassembly, hrenamed, hsame.trans hwords, by rw [hsymbols, hnames]⟩

end LittleComputer
