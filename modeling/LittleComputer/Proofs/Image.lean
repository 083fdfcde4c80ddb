import LittleComputer.Proofs.Assembly
import LittleComputer.Proofs.Numerals
import LittleComputer.Proofs.RoundTrip
import Mathlib.Tactic

/-! # Memory images

Any words can be put into the memory from address zero on, with one `.FILL` for each of them. The
source is printed and read back, so its statements have the words for their operands; then both
walks go over them one by one.

* `Statement.Stores`: a statement that makes one given word.
* `SymbolTable.extend_image`, `SymbolTable.extend_image_past`: the first walk over words that fit
  into the memory and over more.
* `Block.encodeFrom_image`: the second walk.
* `IsImage`: the statements of an image, and what both walks make of them.
* `image_exact`: what is assembled is the image.
-/

namespace LittleComputer
set_option autoImplicit false

/-! ## The source of an image -/

/-- The source of a memory image: each word stands on a line of its own, as the signed integer that
it denotes. -/
def Source.image (file : Text) (words : List Word) : Source :=
  ⟨file, Text.unlines (".ORIG x0".toList ::
    (words.map (fun word => ".FILL #".toList ++ Numeral.integer word.toInt) ++ [".END".toList]))⟩

theorem Lexeme.IsDigit.isWordChar {base : Nat} {c : Char} (h : IsDigit base c) :
    isWordChar c = true := by
  have hc := isHexadecimal_iff.1 h.isHexadecimal
  have hblank : Text.isBlank c = false := Text.isBlank_eq_false (by omega) (by omega)
  have hcomma : c ≠ ',' := h.ne rfl
  have hsemicolon : c ≠ ';' := h.ne rfl
  simp [LittleComputer.isWordChar, isSeparator, hblank, hcomma, hsemicolon]

/-- The immediate of an integer in decimal. -/
def Token.decimal (n : Int) : Token :=
  ⟨.immediate, '#' :: Numeral.integer n, ⟨[], 0, 0⟩⟩

theorem Token.decimal_isLexical (n : Int) : (decimal n).IsLexical := by
  have hliteral : Numeral.IsLiteral 10 (Numeral.integer n) :=
    Numeral.signed_isLiteral Numeral.isBase_ten n
  refine ⟨List.cons_ne_nil _ _, ?_, by simp [decimal], ?_⟩
  · intro c hc
    rcases List.mem_cons.1 hc with rfl | hc
    · decide
    · rcases Numeral.mem_of_mem_numeral hc with rfl | rfl | hc
      · decide
      · decide
      · exact (hliteral.2 c hc).isWordChar
  · have himmediate : Lexeme.isImmediate ('#' :: Numeral.integer n) = true :=
      Numeral.isNumeral_of_isLiteral (fun _ => Lexeme.IsDigit.isDecimal) hliteral
    exact TokenKind.ofWord_of_isImmediate himmediate

theorem Token.immediateValue_of_agrees {t u : Token} (h : t.agrees u = true)
    (hkind : t.kind = .immediate) : u.immediateValue = t.immediateValue := by
  simp only [agrees, Bool.and_eq_true, beq_iff_eq] at h
  rw [immediateValue, immediateValue, require_eq_ok hkind, require_eq_ok (h.1 ▸ hkind), h.2]

theorem Token.immediateValue_decimal {n : Int} (h : n.natAbs < 10 ^ Numeral.limit) :
    (decimal n).immediateValue = .ok n := by
  have hread : readNumeral 10 (Numeral.integer n) = .ok n := by
    rw [readNumeral, Numeral.read_integer h]
    rfl
  exact hread

namespace Statement

-- the first statement of an image, one for each word, and the last

def opening : Statement :=
  ⟨[], .orig, [⟨.immediate, "x0".toList, ⟨[], 0, 0⟩⟩], none⟩

def filling (word : Word) : Statement :=
  ⟨[], .fill, [.decimal word.toInt], none⟩

def closing : Statement :=
  ⟨[], .finish, [], none⟩

theorem filling_writable (word : Word) : (filling word).Writable := by
  refine ⟨⟨List.nodup_nil, rfl, .cons rfl .nil, ?_⟩, by simp [filling]⟩
  intro token htoken
  rw [List.mem_singleton.1 htoken]
  exact Token.decimal_isLexical word.toInt

end Statement

theorem Source.image_text (file : Text) (words : List Word) :
    (image file words).text = Statement.print '\n'
      (Statement.opening :: (words.map Statement.filling ++ [Statement.closing])) := by
  have hfilling : ∀ word : Word,
      (Statement.filling word).written = ".FILL #".toList ++ Numeral.integer word.toInt :=
    fun _ => rfl
  rw [Statement.print, List.map_cons, List.map_append, List.map_map, image, Text.unlines]
  simp only [Function.comp_def, hfilling]
  rfl

/-! ## The statements of an image -/

/-- A statement without labels that makes a word. -/
structure Statement.Stores (word : Word) (statement : Statement) : Prop where
  labels : statement.labels = []
  mnemonic : statement.mnemonic = .fill
  operand : ∃ token, statement.operands = [token] ∧ token.immediateValue = .ok word.toInt

namespace Statement
variable {word : Word} {statement : Statement}

theorem operandsAgree_singleton {t : Token} {tokens : List Token}
    (h : operandsAgree [t] tokens = true) : ∃ u, tokens = [u] ∧ t.agrees u = true := by
  rcases tokens with _ | ⟨u, _ | ⟨v, rest⟩⟩
  · simp [operandsAgree] at h
  · exact ⟨u, rfl, by simpa [operandsAgree] using h⟩
  · simp [operandsAgree] at h

theorem stores_of_agrees (h : (filling word).agrees statement = true) : statement.Stores word := by
  obtain ⟨hlabels, hmnemonic, hoperands⟩ := agrees_iff.1 h
  obtain ⟨token, hoperands, htoken⟩ := operandsAgree_singleton hoperands
  refine ⟨hlabels.symm, hmnemonic.symm, token, hoperands, ?_⟩
  rw [Token.immediateValue_of_agrees htoken rfl]
  apply Token.immediateValue_decimal
  have hlow := word.le_toInt
  have hhigh := word.toInt_lt
  have hpow := Numeral.ten_pow_le
  omega

theorem origin_of_agrees (h : opening.agrees statement = true) :
    statement.mnemonic = .orig ∧ statement.origin = .ok 0 := by
  obtain ⟨-, hmnemonic, hoperands⟩ := agrees_iff.1 h
  obtain ⟨token, hoperands, htoken⟩ := operandsAgree_singleton hoperands
  refine ⟨hmnemonic.symm, ?_⟩
  rw [origin, firstOperand, hoperands]
  exact Token.immediateValue_of_agrees htoken rfl

theorem Stores.isPlaced (h : statement.Stores word) : statement.isPlaced = true :=
  isPlaced_iff.2 (by rw [h.mnemonic]; decide)

theorem Stores.footprint (h : statement.Stores word) : statement.footprint = .ok 1 :=
  footprint_of_ne (by rw [h.mnemonic]; decide) (by rw [h.mnemonic]; decide)

theorem Stores.encode (h : statement.Stores word) (table : SymbolTable) (next : Int) :
    statement.encode table next = .ok [word] := by
  obtain ⟨token, hoperands, hvalue⟩ := h.operand
  have hfield : encodeField word.toInt 16 (some token.location) = .ok word := by
    have hrange : fieldMinimum 16 ≤ word.toInt ∧ word.toInt ≤ fieldMaximum 16 :=
      ⟨word.le_toInt, Int.le_sub_one_of_lt word.toInt_lt⟩
    rw [encodeField, if_neg (by decide), if_pos hrange, BitVec.ofInt_toInt]
  rw [Statement.encode, h.mnemonic]
  simp only [Mnemonic.format?, encodeAs, oneOperand, hoperands, Token.immediateBits, hvalue, ok_bind,
    hfield, BitVec.setWidth_eq]

end Statement

/-- The statements of an image: an `.ORIG` of zero, one statement for each word, and an `.END`. -/
inductive IsImage (words : List Word) : List Statement → Prop
  | mk {first last : Statement} {middle : List Statement} (horig : first.mnemonic = .orig)
    (horigin : first.origin = .ok 0)
    (hmiddle : List.Forall₂ (fun word statement => statement.Stores word) words middle)
    (hlast : last.mnemonic = .finish) : IsImage words (first :: (middle ++ [last]))

theorem Source.read_image (file : Text) (words : List Word) :
    ∃ tokens reading, (image file words).read = .ok (tokens, reading) ∧
      IsImage words reading.statements := by
  have hwritable : ∀ s ∈ Statement.opening :: (words.map Statement.filling ++ [Statement.closing]),
      s.Writable := by
    intro s hs
    rcases List.mem_cons.1 hs with rfl | hs
    · decide +kernel
    · rcases List.mem_append.1 hs with hs | hs
      · obtain ⟨word, -, rfl⟩ := List.mem_map.1 hs
        exact Statement.filling_writable word
      · rw [List.mem_singleton.1 hs]
        decide +kernel
  have hseparator : isSeparator '\n' = true := by decide
  obtain ⟨tokens, reading, hread, hagrees, -⟩ := read_print hwritable hseparator file
  rw [← image_text file words] at hread
  obtain ⟨first, rest, hfirst, hrest, hstatements⟩ := List.forall₂_cons_left_iff.1 hagrees
  obtain ⟨middle, last, rfl, hmiddle, hlast⟩ := forall₂_concat hrest
  obtain ⟨horig, horigin⟩ := Statement.origin_of_agrees hfirst
  refine ⟨tokens, reading, hread, hstatements ▸ .mk horig horigin ?_ ?_⟩
  · exact (List.forall₂_map_left_iff.1 hmiddle).imp fun _ _ => Statement.stores_of_agrees
  · exact (Statement.agrees_iff.1 hlast).2.1.symm

/-! ## Both walks -/

section Walks
variable {words : List Word} {middle rest : List Statement} {last : Statement} {address : Int}

theorem Statement.Stores.extend {word : Word} {statement : Statement} (h : statement.Stores word)
    (hmemory : InMemory address) (table : SymbolTable) :
    table.extend (some address) (statement :: rest) = table.extend (some (address + 1)) rest := by
  rw [SymbolTable.extend_placed h.isPlaced, if_pos hmemory, h.labels, h.footprint]
  rfl

theorem SymbolTable.extend_image
    (h : List.Forall₂ (fun word statement => statement.Stores word) words middle)
    (hlow : 0 ≤ address) (hhigh : address + words.length ≤ maxAddress + 1) (table : SymbolTable) :
    table.extend (some address) (middle ++ rest) =
      table.extend (some (address + words.length)) rest := by
  induction h generalizing address with
  | nil => simp
  | @cons word statement words middle hstores _ ih =>
    rw [List.length_cons] at hhigh ⊢
    push_cast at hhigh ⊢
    rw [List.cons_append, hstores.extend ⟨hlow, by omega⟩, ih (by omega) (by omega), add_assoc,
      add_comm 1]

/-- More words than the memory has reach the address behind it. -/
theorem SymbolTable.extend_image_past
    (h : List.Forall₂ (fun word statement => statement.Stores word) words middle)
    (hlow : 0 ≤ address) (haddress : address ≤ maxAddress + 1)
    (hhigh : maxAddress + 1 < address + words.length) (table : SymbolTable) :
    ∃ location, table.extend (some address) (middle ++ rest) =
      .error (Diagnostic.plain (.addressRange (maxAddress + 1)) location).failure := by
  induction h generalizing address with
  | nil =>
    simp only [List.length_nil] at hhigh
    omega
  | @cons word statement words middle hstores _ ih =>
    rw [List.length_cons] at hhigh
    push_cast at hhigh
    by_cases hmemory : InMemory address
    · rw [List.cons_append, hstores.extend hmemory]
      have htop := hmemory.2
      exact ih (by omega) (by omega) (by omega)
    · have htop : address = maxAddress + 1 := by
        by_contra hne
        exact hmemory ⟨hlow, by omega⟩
      rw [List.cons_append, extend_placed hstores.isPlaced, if_neg hmemory, htop]
      exact ⟨_, rfl⟩

theorem Block.encodeFrom_image
    (h : List.Forall₂ (fun word statement => statement.Stores word) words middle)
    (hlast : last.mnemonic = .finish) (table : SymbolTable) (start : Nat) :
    ∃ blocks, encodeFrom table (some (start : Int)) (middle ++ [last]) = .ok blocks ∧
      allWords blocks = words ∧
      blocks.map Block.address = (List.range' start words.length).map Nat.cast := by
  induction h generalizing start with
  | nil => exact ⟨[], encodeFrom_finish hlast, rfl, rfl⟩
  | @cons word statement words middle hstores _ ih =>
    obtain ⟨blocks, hblocks, hwords, haddresses⟩ := ih (start + 1)
    refine ⟨⟨start, statement, [word]⟩ :: blocks, ?_, ?_, ?_⟩
    · rw [List.cons_append, encodeFrom_placed hstores.isPlaced, hstores.encode, hstores.footprint]
      simp only [Except.bind, ← Nat.cast_add, hblocks]
      rfl
    · rw [← hwords]
      rfl
    · rw [List.length_cons, List.range'_succ, List.map_cons, List.map_cons, haddresses]

end Walks

/-! ## Images -/

namespace IsImage
variable {words : List Word} {statements : List Statement}

theorem symbols_eq_ok (h : IsImage words statements) (hlength : words.length ≤ 0x10000) :
    SymbolTable.ofStatements statements = .ok SymbolTable.empty := by
  cases h with
  | mk horig horigin hmiddle hlast =>
    have hhigh : (0 : Int) + words.length ≤ maxAddress + 1 := by
      have hmax : maxAddress = 0xFFFF := rfl
      omega
    rw [SymbolTable.ofStatements, SymbolTable.extend_orig horig, horigin]
    simp only [Except.bind]
    rw [SymbolTable.extend_image hmiddle le_rfl hhigh, SymbolTable.extend_finish hlast]
    rfl

theorem symbols_eq_error (h : IsImage words statements) (hlength : 0x10000 < words.length) :
    ∃ location, SymbolTable.ofStatements statements =
      .error (.diagnostic (.plain (.addressRange 0x10000) location)) := by
  cases h with
  | @mk first last middle horig horigin hmiddle hlast =>
    have hmax : maxAddress + 1 = 0x10000 := rfl
    obtain ⟨location, hpast⟩ : ∃ location, SymbolTable.empty.extend (some 0) (middle ++ [last]) =
        .error (Diagnostic.plain (.addressRange (maxAddress + 1)) location).failure :=
      SymbolTable.extend_image_past hmiddle le_rfl (by omega) (by omega) SymbolTable.empty
    have hfailure : (Diagnostic.plain (.addressRange (maxAddress + 1)) location).failure =
        .diagnostic (.plain (.addressRange 0x10000) location) := by
      apply Diagnostic.failure_eq
      · intro value hvalue
        cases hvalue
      · intro n hn
        rw [Diagnostic.plain, Problem.integers, List.mem_singleton] at hn
        have hpow := Numeral.ten_pow_le
        omega
    refine ⟨location, ?_⟩
    rw [SymbolTable.ofStatements, SymbolTable.extend_orig horig, horigin, ← hfailure, ← hpast]
    rfl

theorem blocks_eq_ok (h : IsImage words statements) (table : SymbolTable) :
    ∃ blocks, Block.ofStatements table statements = .ok blocks ∧ Block.allWords blocks = words ∧
      blocks.map Block.address = (List.range words.length).map Nat.cast := by
  cases h with
  | mk horig horigin hmiddle hlast =>
    obtain ⟨blocks, hblocks, hwords, haddresses⟩ := Block.encodeFrom_image hmiddle hlast table 0
    refine ⟨blocks, ?_, hwords, ?_⟩
    · rw [Block.ofStatements, Block.encodeFrom_orig horig, horigin]
      exact hblocks
    · rw [List.range_eq_range']
      exact haddresses

end IsImage

/-- **Every memory image can be written.** Up to as many words as the memory has are assembled to
just these words, each at its place; with more, the statement behind the last address is
reported. -/
theorem image_exact (file : Text) (words : List Word) :
    (words.length ≤ 0x10000 → ∃ assembly, (Source.image file words).assemble = .ok assembly ∧
      assembly.words = words ∧
      assembly.blocks.map Block.address = (List.range words.length).map Nat.cast) ∧
    (0x10000 < words.length → ∃ location, (Source.image file words).assemble =
      .error (.diagnostic (.plain (.addressRange 0x10000) location))) := by
  obtain ⟨tokens, reading, hread, himage⟩ := Source.read_image file words
  have hassemble : (Source.image file words).assemble =
      Assembly.ofStatements reading.statements := by
    rw [Source.assemble, hread]
    rfl
  rw [hassemble]
  constructor
  · intro hlength
    obtain ⟨blocks, hblocks, hwords, haddresses⟩ := himage.blocks_eq_ok SymbolTable.empty
    refine ⟨⟨reading.statements, SymbolTable.empty, blocks⟩, ?_, hwords, haddresses⟩
    exact Assembly.ofStatements_eq_ok.2 ⟨rfl, himage.symbols_eq_ok hlength, hblocks⟩
  · intro hlength
    obtain ⟨location, herror⟩ := himage.symbols_eq_error hlength
    refine ⟨location, ?_⟩
    rw [Assembly.ofStatements, herror]
    rfl

/-- The words at both ends of the range of signed integers and around zero. -/
theorem image_exact_extremes :
    (∃ assembly, (Source.image [] [0x8000, 0x7FFF, 0xFFFF, 0]).assemble = .ok assembly ∧
      assembly.words = [0x8000, 0x7FFF, 0xFFFF, 0] ∧
      assembly.blocks.map Block.address = [0, 1, 2, 3]) ∧
    ∃ location, (Source.image [] (List.replicate 0x10001 0xFFFF)).assemble =
      .error (.diagnostic (.plain (.addressRange 0x10000) location)) := by
  refine ⟨(image_exact [] _).1 (by decide), (image_exact [] _).2 ?_⟩
  rw [List.length_replicate]
  decide

end LittleComputer
