import LittleComputer.Proofs.ChangedReading
import LittleComputer.Proofs.Kinds
import Mathlib.Tactic

/-! # Spacing does not matter

Two sources with the same tokens may differ in white space, commas, comments and line breaks, and
so in the places of their tokens. Places are kept in tokens, statements and symbols, but nothing
that is computed from these depends on them.

* `Change.MapsProblem.message_eq`: what is said about a problem.
* `Change.MapsAssembly.listing_eq` and its neighbours: what is shown of a program.
* `spacing_irrelevant`: the whole assembly.
-/

namespace LittleComputer
set_option autoImplicit false

/-- What a failure says, without places and hints. -/
def Failure.message : Failure → Text
  | diagnostic d => d.message
  | fault f => f.message

theorem Statement.text_congr {s s' : Statement} (hlabels : s'.labels = s.labels)
    (hmnemonic : s'.mnemonic = s.mnemonic)
    (hoperands : s'.operands.map Token.text = s.operands.map Token.text) : s'.text = s.text := by
  have hempty : s'.operands.isEmpty = s.operands.isEmpty := by
    rw [← List.isEmpty_map (f := Token.text), hoperands, List.isEmpty_map]
  simp only [text, hlabels, hmnemonic, hoperands, hempty]

namespace Change

theorem mapsToken_of_agrees {t u : Token} (h : t.agrees u = true) : anywhere.MapsToken t u := by
  simp only [Token.agrees, Bool.and_eq_true, beq_iff_eq] at h
  exact ⟨h.1.symm, fun _ => h.2.symm, fun _ => h.2.symm, trivial⟩

/-! ## Texts -/

theorem MapsToken.content_eq {t t' : Token} (h : anywhere.MapsToken t t') :
    t'.content = t.content := by
  by_cases hkind : t.kind = .label
  · exact h.label hkind
  · exact h.content hkind

theorem MapsToken.text_eq {t t' : Token} (h : anywhere.MapsToken t t') : t'.text = t.text := by
  rw [Token.text, Token.text, h.kind, h.content_eq]

theorem MapsPhrase.text_eq {s s' : Statement} (h : anywhere.MapsPhrase s s') : s'.text = s.text :=
  Statement.text_congr (h.labels.trans (List.map_id _)) h.mnemonic
    (map_eq_of_forall₂ h.operands fun _ _ ht => ht.text_eq)

theorem MapsStatement.text_eq {d : Int} {s s' : Statement} (h : anywhere.MapsStatement d s s')
    (horig : s.mnemonic ≠ .orig) : s'.text = s.text :=
  Statement.text_congr (h.labels.trans (List.map_id _)) h.mnemonic
    (map_eq_of_forall₂ (h.operands horig) fun _ _ ht => ht.text_eq)

/-! ## Failures -/

theorem MapsToken.foundText_eq {t t' : Token} (h : anywhere.MapsToken t t') :
    Problem.foundText t' = Problem.foundText t := by
  rw [Problem.foundText, Problem.foundText, h.kind, h.content_eq]

theorem MapsProblem.message_eq {p p' : Problem} (h : anywhere.MapsProblem p p') :
    p'.message = p.message := by
  cases h with
  | same => rfl
  | operatorExpected h => exact congrArg (_ ++ ·) h.foundText_eq
  | operandMismatch _ _ _ h => exact congrArg (_ ++ ·) h.foundText_eq
  | outsideRegion _ h horig =>
    exact congrArg (Text.named · ++ _) (h.text_eq horig)
  | duplicateLabel => rfl
  | undefinedLabel => rfl

theorem MapsFailure.message_eq {e e' : Failure} (h : anywhere.MapsFailure e e')
    (hkinds : ∀ wanted found, e ≠ .fault (.wrongKind wanted found)) : e'.message = e.message := by
  cases h with
  | diagnostic h =>
    cases h with
    | plain hproblem => exact hproblem.message_eq
  | fault h =>
    cases h with
    | same => rfl
    | wrongKind wanted h => exact absurd rfl (hkinds wanted _)

/-! ## Renderings -/

/-- A symbol without the place of its definition. -/
def unplaced (symbol : Symbol) : Symbol :=
  { symbol with location := none }

theorem MapsTable.unplaced_eq {table table' : SymbolTable} (h : anywhere.MapsTable 0 table table') :
    table'.symbols.map unplaced = table.symbols.map unplaced := by
  refine map_eq_of_forall₂ h fun x x' hx => ?_
  have hname : x'.name = x.name := hx.name
  have haddress : x'.address = x.address := hx.address.trans (Int.add_zero _)
  rw [unplaced, unplaced, hname, haddress]

/-- Symbols are sorted by address and name, and their lines show nothing else. -/
theorem MapsTable.text_eq {table table' : SymbolTable} (h : anywhere.MapsTable 0 table table') :
    table'.text = table.text := by
  have hlines : ∀ table : SymbolTable,
      (table.symbols.mergeSort SymbolTable.precedes).map SymbolTable.line =
        ((table.symbols.map unplaced).mergeSort SymbolTable.precedes).map SymbolTable.line := by
    intro table
    have hsort : (table.symbols.mergeSort SymbolTable.precedes).map unplaced =
        (table.symbols.map unplaced).mergeSort SymbolTable.precedes :=
      List.map_mergeSort fun a _ b _ => rfl
    rw [← hsort, List.map_map]
    rfl
  rw [SymbolTable.text, SymbolTable.text, hlines table', hlines table, h.unplaced_eq]

theorem MapsBlock.blockLines_eq {b b' : Block} (h : anywhere.MapsBlock 0 b b') :
    Assembly.blockLines b' = Assembly.blockLines b := by
  have haddress : b'.address = b.address := h.address.trans (Int.add_zero _)
  rw [Assembly.blockLines, Assembly.blockLines, haddress, h.words, h.statement.text_eq h.placed]

namespace MapsAssembly
variable {a a' : Assembly}

theorem statementsText_eq (h : anywhere.MapsAssembly a a') :
    a'.statementsText = a.statementsText := by
  have htexts : a'.statements.map Statement.text = a.statements.map Statement.text :=
    map_eq_of_forall₂ h.statements fun _ _ hs => hs.text_eq
  rw [Assembly.statementsText, Assembly.statementsText, Statement.lines, Statement.lines, htexts]

theorem listing_eq (h : anywhere.MapsAssembly a a') : a'.listing = a.listing := by
  have hlines : a'.blocks.map Assembly.blockLines = a.blocks.map Assembly.blockLines :=
    map_eq_of_forall₂ h.blocks fun _ _ hb => hb.blockLines_eq
  have hsymbols : a'.symbolsText = a.symbolsText := h.symbols.text_eq
  rw [Assembly.listing, Assembly.listing, List.flatMap_def, List.flatMap_def, hlines, hsymbols]

end MapsAssembly

end Change

/-! ## Sources -/

/-- Reading a source never ends at a token of another kind, and neither do the walks. -/
theorem Source.assemble_keepsKinds (source : Source) : KeepsKinds source.assemble := by
  unfold Source.assemble
  cases hread : source.read with
  | error failure =>
    unfold Source.read at hread
    split at hread
    · rw [← hread]
      exact .report _
    · split at hread
      · rw [← hread]
        exact .report _
      · cases hread
  | ok result =>
    have hwell := Source.read_wellFormed hread
    have htable : KeepsKinds (SymbolTable.ofStatements result.2.statements) :=
      SymbolTable.extend_keepsKinds hwell _ none
    have hblocks : ∀ table, KeepsKinds (Block.ofStatements table result.2.statements) :=
      fun table => Block.encodeFrom_keepsKinds hwell table none
    rw [ok_bind]
    exact htable.bind fun table => (hblocks table).bind fun blocks => .ok _

/-- **Spacing does not matter.** Two sources in any files, whose tokens agree one by one in kind and
content, are both assembled or both not. If they are, words, addresses and renderings are the same,
and so are the names and addresses of the labels in the order of their definition. If not, the
failures are of one sort and say the same. -/
theorem spacing_irrelevant {p q : Source} {ts us : List Token} (hp : p.tokens = .ok ts)
    (hq : q.tokens = .ok us) (h : List.Forall₂ (fun t u => t.agrees u = true) ts us) :
    ((∃ a, p.assemble = .ok a) ↔ ∃ b, q.assemble = .ok b) ∧
      (∀ a b, p.assemble = .ok a → q.assemble = .ok b →
        b.words = a.words ∧ b.blocks.map Block.words = a.blocks.map Block.words ∧
          b.blocks.map Block.address = a.blocks.map Block.address ∧
          b.symbols.symbols.map (fun symbol => (symbol.name, symbol.address)) =
            a.symbols.symbols.map (fun symbol => (symbol.name, symbol.address)) ∧
          b.statementsText = a.statementsText ∧ b.symbolsText = a.symbolsText ∧
          b.wordsText = a.wordsText ∧ b.listing = a.listing) ∧
      ∀ e e', p.assemble = .error e → q.assemble = .error e' →
        e'.sort = e.sort ∧ e'.message = e.message := by
  have hkinds := p.assemble_keepsKinds
  have hmaps : List.Forall₂ Change.anywhere.MapsToken ts us :=
    h.imp fun _ _ => Change.mapsToken_of_agrees
  have hmirrors : Mirrors False False Change.anywhere.MapsFailure Change.anywhere.MapsAssembly
      p.assemble q.assemble := by
    rw [Source.assemble_of_tokens hp, Source.assemble_of_tokens hq]
    exact (Change.mirrors_assemble hmaps).mapError fun _ _ he => he.2
  generalize p.assemble = x at hmirrors hkinds ⊢
  generalize q.assemble = y at hmirrors ⊢
  cases hmirrors with
  | first h => exact h.elim
  | second h => exact h.elim
  | @ok a b hab =>
    refine ⟨⟨fun _ => ⟨b, rfl⟩, fun _ => ⟨a, rfl⟩⟩, ?_, fun _ _ herror => (by cases herror)⟩
    rintro _ _ ⟨⟩ ⟨⟩
    have hsymbols : b.symbols.symbols.map (fun symbol => (symbol.name, symbol.address)) =
        a.symbols.symbols.map (fun symbol => (symbol.name, symbol.address)) :=
      map_eq_of_forall₂ hab.symbols fun x x' hx =>
        Prod.ext hx.name (hx.address.trans (Int.add_zero _))
    have hwords : b.wordsText = a.wordsText := by
      rw [Assembly.wordsText, Assembly.wordsText, hab.words]
    exact ⟨hab.words, hab.blockWords, hab.blockAddresses, hsymbols, hab.statementsText_eq,
      hab.symbols.text_eq, hwords, hab.listing_eq⟩
  | @error e e' he =>
    refine ⟨⟨fun ⟨_, hok⟩ => (by cases hok), fun ⟨_, hok⟩ => (by cases hok)⟩,
      fun _ _ hok => (by cases hok), ?_⟩
    rintro _ _ ⟨⟩ ⟨⟩
    refine ⟨he.sort_eq, he.message_eq fun wanted found heq => ?_⟩
    exact hkinds wanted found (congrArg Except.error heq)

/-- A program in one line. -/
def Source.cramped (last : String) : Source :=
  ⟨[], (".ORIG x3000 A ADD R0 R0 #-1 T .STRINGZ \"a ;\" BRp A " ++ last).toList⟩

/-- The same program in several lines, with commas and comments. -/
def Source.airy (last : String) : Source :=
  ⟨"b.asm".toList, ("; start\n\t.ORIG x3000\nA ADD R0, R0, #-1;\nT\n\n.STRINGZ,\"a ;\" ;\"\n" ++
    " BRp A\n " ++ last ++ " ; end").toList⟩

theorem spacing_irrelevant_airy :
    (∃ a b, (Source.cramped ".END").assemble = .ok a ∧ (Source.airy ".END").assemble = .ok b ∧
      b.statements ≠ a.statements ∧ b.listing = a.listing) ∧
    ∃ e e', (Source.cramped "A HALT").assemble = .error e ∧
      (Source.airy "A HALT").assemble = .error e' ∧ e'.text ≠ e.text ∧
      e'.message = "duplicate label 'A'".toList := by
  have htokens : ∀ last ∈ [".END", "A HALT"], ∃ ts, (Source.cramped last).tokens = .ok ts ∧
      ∃ us, (Source.airy last).tokens = .ok us ∧ ts.length = us.length ∧
        ∀ pair ∈ ts.zip us, pair.1.agrees pair.2 = true := by
    decide +kernel
  have hends : ∃ a, (Source.cramped ".END").assemble = .ok a ∧
      ∃ b, (Source.airy ".END").assemble = .ok b ∧ b.statements ≠ a.statements := by
    decide +kernel
  have hfails : (Source.cramped "A HALT").assemble = .error (.diagnostic (.plain
        (.duplicateLabel "A".toList (some ⟨[], 1, 15⟩)) (some ⟨[], 1, 54⟩))) ∧
      (Source.airy "A HALT").assemble = .error (.diagnostic (.plain
        (.duplicateLabel "A".toList (some ⟨"b.asm".toList, 3, 3⟩))
        (some ⟨"b.asm".toList, 8, 4⟩))) := by
    decide +kernel
  obtain ⟨ts, hts, us, hus, hlength, hagrees⟩ := htokens ".END" (by simp)
  obtain ⟨vs, hvs, ws, hws, hlength', hagrees'⟩ := htokens "A HALT" (by simp)
  obtain ⟨a, ha, b, hb, hdiffer⟩ := hends
  have hsame := (spacing_irrelevant hts hus
    (List.forall₂_iff_zip.2 ⟨hlength, fun hmem => hagrees _ hmem⟩)).2.1 a b ha hb
  have hsaid := (spacing_irrelevant hvs hws
    (List.forall₂_iff_zip.2 ⟨hlength', fun hmem => hagrees' _ hmem⟩)).2.2 _ _ hfails.1 hfails.2
  refine ⟨⟨a, b, ha, hb, hdiffer, hsame.2.2.2.2.2.2.2⟩, _, _, hfails.1, hfails.2, ?_, ?_⟩
  · decide +kernel
  · exact hsaid.2

end LittleComputer
