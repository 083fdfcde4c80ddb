import LittleComputer.Proofs.Joining
import LittleComputer.Proofs.Memory
import LittleComputer.Proofs.Numerals
import LittleComputer.Proofs.RoundTrip
import Mathlib.Tactic

/-! # The lines of a listing

A listing has a line for every word. It shows texts that come from the source: names and words hold
no white space, so they break no line and lose nothing at its end. A string is different: it is
shown as it is, and a newline in it breaks its line.

* `Block.ListedAs`: the lines that show a block.
* `Statement.Writable.newline_notMem_text`: the statements that fit on a line.
* `listing_lines`: all lines of a listing, and when none of them is broken.
* `newline_breaks_listing`: a listing with a broken line.
-/

namespace LittleComputer
set_option autoImplicit false

/-! ## Joined and trimmed texts -/

namespace Text

theorem mem_join {c : Char} {separator : Text} (h : c ∉ separator) (parts : List Text) :
    c ∈ join separator parts ↔ ∃ part ∈ parts, c ∈ part := by
  induction parts with
  | nil => simp [join]
  | cons part rest ih =>
    cases rest with
    | nil => simp [join]
    | cons next rest =>
      rw [join, List.mem_append, List.mem_append, ih]
      simp [h]

/-- The text does not end in white space. -/
def Trimmed (text : Text) : Prop :=
  ∃ front c, text = front ++ [c] ∧ isBlank c = false

theorem Trimmed.append {text : Text} (h : text.Trimmed) (front : Text) :
    Trimmed (front ++ text) := by
  obtain ⟨inner, c, rfl, hc⟩ := h
  exact ⟨front ++ inner, c, (List.append_assoc _ _ _).symm, hc⟩

theorem Trimmed.join {last : Text} (h : last.Trimmed) (separator : Text) (parts : List Text) :
    Trimmed (join separator (parts ++ [last])) := by
  induction parts with
  | nil => exact h
  | cons part rest ih =>
    cases rest with
    | nil => exact (ih.append separator).append part
    | cons next rest => exact (ih.append separator).append part

theorem Trimmed.trimEnd_append {text blanks : Text} (h : text.Trimmed)
    (hblanks : ∀ c ∈ blanks, isBlank c = true) : trimEnd (text ++ blanks) = text := by
  obtain ⟨front, c, rfl, hc⟩ := h
  have hback : ∀ d ∈ blanks.reverse, isBlank d = true :=
    fun d hd => hblanks d (List.mem_reverse.1 hd)
  rw [trimEnd, List.reverse_append, List.dropWhile_append_of_pos hback, List.reverse_concat,
    List.dropWhile_cons_of_neg (by rw [hc]; exact Bool.false_ne_true), ← List.reverse_concat,
    List.reverse_reverse]

theorem Trimmed.trimEnd_eq {text : Text} (h : text.Trimmed) : trimEnd text = text := by
  have hnone : ∀ c ∈ ([] : Text), isBlank c = true := by simp
  rw [← List.append_nil text, h.trimEnd_append hnone, List.append_nil]

theorem newline_notMem {text : Text} (h : ∀ c ∈ text, isBlank c = false) : '\n' ∉ text := by
  intro hmem
  exact absurd (h '\n' hmem) (by decide)

theorem trimmed_of_forall {text : Text} (hne : text ≠ []) (h : ∀ c ∈ text, isBlank c = false) :
    text.Trimmed :=
  ⟨text.dropLast, text.getLast hne, (List.dropLast_append_getLast hne).symm,
    h _ (List.getLast_mem hne)⟩

end Text

/-! ## Statements -/

theorem not_isBlank_of_isWordChar {c : Char} (h : isWordChar c = true) :
    Text.isBlank c = false := by
  cases hc : Text.isBlank c with
  | false => rfl
  | true => simp [isWordChar, isSeparator, hc] at h

theorem Token.IsLexical.text_trimmed {token : Token} (h : token.IsLexical) :
    token.text.Trimmed := by
  have hcontent : token.content.Trimmed := by
    unfold IsLexical at h
    split at h
    · obtain ⟨text, hcontent⟩ := h
      exact ⟨'"' :: text, '"', hcontent, by decide⟩
    · exact Text.trimmed_of_forall h.1 fun c hc => not_isBlank_of_isWordChar (h.2.1 c hc)
  exact hcontent.append [token.kind.tag, ':']

theorem newline_notMem_word {word : Text} (h : ∀ c ∈ word, isWordChar c = true) : '\n' ∉ word :=
  Text.newline_notMem fun c hc => not_isBlank_of_isWordChar (h c hc)

/-- Only strings hold newlines. -/
theorem Token.IsLexical.newline_notMem {token : Token} (h : token.IsLexical)
    (hkind : token.kind ≠ .string) : '\n' ∉ token.content := by
  rw [IsLexical, if_neg hkind] at h
  exact newline_notMem_word h.2.1

theorem Token.newline_mem_text (token : Token) : '\n' ∈ token.text ↔ '\n' ∈ token.content := by
  have htag : '\n' ≠ token.kind.tag := by
    cases token.kind <;> decide
  have hcolon : '\n' ≠ ':' := by decide
  simp only [text, List.mem_cons, htag, hcolon, false_or]

theorem Statement.Writable.text_trimmed {statement : Statement} (h : statement.Writable) :
    statement.text.Trimmed := by
  have hoperator : Text.Trimmed ("<".toList ++ statement.mnemonic.spelling ++ ">".toList) :=
    ⟨_, '>', rfl, by decide⟩
  unfold text
  rcases List.eq_nil_or_concat statement.operands with hnone | ⟨front, last, hsome⟩
  · rw [hnone]
    simp only [List.isEmpty_nil, if_true, List.append_nil]
    exact hoperator.join _ _
  · have hlast : last.text.Trimmed :=
      (h.wellFormed.operands last (by rw [hsome]; simp)).text_trimmed
    have hne : statement.operands.isEmpty = false := by rw [hsome]; simp
    simp only [hne, Bool.false_eq_true, if_false]
    refine Text.Trimmed.join ?_ _ _
    rw [hsome, List.concat_eq_append, List.map_append]
    exact hlast.join _ _

theorem Statement.Writable.newline_mem_text {statement : Statement} (h : statement.Writable) :
    '\n' ∈ statement.text ↔ ∃ token ∈ statement.operands, '\n' ∈ token.content := by
  have hlabels : '\n' ∉ "[".toList ++ Text.join ", ".toList statement.labels ++ "]".toList := by
    rw [List.mem_append, List.mem_append, Text.mem_join (by decide)]
    rintro ((hopen | ⟨name, hname, hmem⟩) | hclose)
    · exact absurd hopen (by decide)
    · exact newline_notMem_word (h.labels name hname).2.1 hmem
    · exact absurd hclose (by decide)
  have hoperator : '\n' ∉ "<".toList ++ statement.mnemonic.spelling ++ ">".toList := by
    rw [List.mem_append, List.mem_append]
    rintro ((hopen | hmem) | hclose)
    · exact absurd hopen (by decide)
    · exact newline_notMem_word (statement.mnemonic.spelling_isLexical ⟨[], 0, 0⟩).2.1 hmem
    · exact absurd hclose (by decide)
  have hoperands : '\n' ∈ Text.join ", ".toList (statement.operands.map Token.text) ↔
      ∃ token ∈ statement.operands, '\n' ∈ token.content := by
    simp only [Text.mem_join (show '\n' ∉ ", ".toList by decide), List.mem_map,
      exists_exists_and_eq_and, Token.newline_mem_text]
  rw [text, Text.mem_join (by decide)]
  constructor
  · rintro ⟨part, hpart, hmem⟩
    rcases List.mem_append.1 hpart with hpart | hpart
    · rcases List.mem_append.1 hpart with hpart | hpart
      · split at hpart
        · cases hpart
        · exact absurd (List.mem_singleton.1 hpart ▸ hmem) hlabels
      · exact absurd (List.mem_singleton.1 hpart ▸ hmem) hoperator
    · split at hpart
      · cases hpart
      · exact hoperands.1 (List.mem_singleton.1 hpart ▸ hmem)
  · rintro ⟨token, htoken, hmem⟩
    refine ⟨_, List.mem_append_right _ ?_, hoperands.2 ⟨token, htoken, hmem⟩⟩
    rw [if_neg (by simpa using List.ne_nil_of_mem htoken)]
    exact List.mem_singleton_self _

theorem Statement.Writable.newline_notMem_text {statement : Statement} (h : statement.Writable) :
    '\n' ∉ statement.text ↔
      ∀ token ∈ statement.operands, token.kind = .string → '\n' ∉ token.content := by
  rw [h.newline_mem_text, not_exists]
  refine forall_congr' fun token => ?_
  rw [not_and]
  refine forall_congr' fun htoken => ⟨fun hnone _ => hnone, fun hstring => ?_⟩
  by_cases hkind : token.kind = .string
  · exact hstring hkind
  · exact (h.wellFormed.operands token htoken).newline_notMem hkind

/-! ## Blocks -/

/-- A line of a listing: the address, which wraps around at the end of the memory, the word in
hexadecimal and in binary, and the rest. -/
def ShowsWord (address : Int) (word : Word) (rest line : Text) : Prop :=
  ∃ place hexadecimal binary, Numeral.Writes 16 4 (address % 0x10000).toNat place ∧
    Numeral.Writes 16 4 word.toNat hexadecimal ∧ Numeral.Writes 2 16 word.toNat binary ∧
    line = "x".toList ++ place ++ "  x".toList ++ hexadecimal ++ "  ".toList ++ binary ++ rest

/-- How a listing shows a block: on a line for each word, or on a single line. The statement stands
on the first. -/
structure Block.ListedAs (block : Block) (shown : List Text) : Prop where
  length : shown.length = max 1 block.words.length
  word : ∀ (j : Nat) (word : Word), block.words[j]? = some word → ∃ line, shown[j]? = some line ∧
    ShowsWord (block.address + j) word
      (if j = 0 then "  ".toList ++ block.statement.text else []) line
  empty : block.words = [] → ∃ place, Numeral.Writes 16 4 (block.address % 0x10000).toNat place ∧
    shown = ["x".toList ++ place ++ List.replicate 27 ' ' ++ block.statement.text]

theorem Numeral.writes_address {n : Nat} (h : n < 0x10000) : Writes 16 4 n (address n) := by
  rw [address, if_neg (by omega), Int.natAbs_natCast]
  exact writes_padded (.inr rfl) (by omega) h

theorem ShowsWord.count_newline {address : Int} {word : Word} {rest line : Text}
    (h : ShowsWord address word rest line) : line.count '\n' = rest.count '\n' := by
  obtain ⟨place, hexadecimal, binary, hplace, hhexadecimal, hbinary, rfl⟩ := h
  have hnone : ∀ {base places n : Nat} {text : Text}, Numeral.Writes base places n text →
      base ≤ 16 → text.count '\n' = 0 :=
    fun hwrites hbase => List.count_eq_zero.2 (Text.newline_notMem (hwrites.not_isBlank hbase))
  simp [List.count_append, hnone hplace, hnone hhexadecimal, hnone hbinary]

theorem showsWord_rendered (address : Int) (word : Word) (rest : Text) :
    ShowsWord address word rest
      ("x".toList ++ Numeral.address (Word.ofInteger address).toNat ++ "  x".toList ++
        Numeral.padded 16 4 word.toNat ++ "  ".toList ++ word.bits ++ rest) := by
  refine ⟨_, _, _, ?_, Numeral.writes_padded (.inr rfl) (by omega) word.isLt,
    Numeral.writes_bits word, rfl⟩
  rw [← Word.toNat_ofInteger_mod]
  exact Numeral.writes_address (Word.ofInteger address).isLt

namespace Assembly

theorem showsWord_wordLine (address : Int) (word : Word) {text : Text} (h : text.Trimmed) :
    ShowsWord address word ("  ".toList ++ text) (wordLine address word text) := by
  rw [wordLine, (h.append _).trimEnd_eq, List.append_assoc _ _ text]
  exact showsWord_rendered address word _

theorem showsWord_wordLine_nil (address : Int) (word : Word) :
    ShowsWord address word [] (wordLine address word []) := by
  have hbits : Text.Trimmed word.bits :=
    Text.trimmed_of_forall (List.cons_ne_nil _ _)
      ((Numeral.writes_bits word).not_isBlank (by omega))
  have hblanks : ("  ".toList).all Text.isBlank = true := by decide
  have hline := showsWord_rendered address word []
  rw [wordLine, List.append_nil, (hbits.append _).trimEnd_append (List.all_eq_true.1 hblanks)]
  rwa [List.append_nil] at hline

theorem getElem?_furtherLines (address : Int) (words : List Word) (j : Nat) :
    (furtherLines address words)[j]? = words[j]?.map (wordLine (address + j) · []) := by
  induction words generalizing address j with
  | nil => rfl
  | cons word rest ih =>
    cases j with
    | zero => simp [furtherLines]
    | succ j =>
      have hnext : address + 1 + (j : Int) = address + (j + 1 : Nat) := by push_cast; ring
      rw [furtherLines, List.getElem?_cons_succ, List.getElem?_cons_succ, ih, hnext]

theorem length_furtherLines (address : Int) (words : List Word) :
    (furtherLines address words).length = words.length := by
  induction words generalizing address with
  | nil => rfl
  | cons word rest ih => rw [furtherLines, List.length_cons, List.length_cons, ih]

theorem listedAs_blockLines {block : Block} (hmemory : InMemory block.address)
    (htext : block.statement.text.Trimmed) : block.ListedAs (blockLines block) := by
  unfold blockLines
  cases hwords : block.words with
  | nil =>
    refine ⟨by rw [hwords]; rfl, by rw [hwords]; simp, fun _ => ⟨_, ?_, rfl⟩⟩
    obtain ⟨hlow, hhigh⟩ := hmemory
    have htop : maxAddress = 65535 := rfl
    have haddress := Numeral.writes_address (n := (block.address % 0x10000).toNat) (by omega)
    have hsame : ((block.address % 0x10000).toNat : Int) = block.address := by omega
    rwa [hsame] at haddress
  | cons word rest =>
    refine ⟨?_, ?_, fun hnone => by rw [hwords] at hnone; cases hnone⟩
    · rw [hwords, List.length_cons, List.length_cons, length_furtherLines]
      omega
    · intro j shown hshown
      rw [hwords] at hshown
      cases j with
      | zero =>
        cases hshown
        refine ⟨_, rfl, ?_⟩
        rw [if_pos rfl, Int.natCast_zero, add_zero]
        exact showsWord_wordLine _ _ htext
      | succ j =>
        rw [List.getElem?_cons_succ] at hshown
        have hnext : block.address + 1 + (j : Int) = block.address + (j + 1 : Nat) := by
          push_cast
          ring
        refine ⟨wordLine (block.address + (j + 1 : Nat)) shown [], ?_, ?_⟩
        · rw [List.getElem?_cons_succ, getElem?_furtherLines, hshown, hnext]
          rfl
        · rw [if_neg (by omega)]
          exact showsWord_wordLine_nil _ _

end Assembly

/-- Of the lines of a block only the first can break, where its statement does. -/
theorem Block.ListedAs.newline_notMem {block : Block} {shown : List Text}
    (h : block.ListedAs shown) :
    (∀ line ∈ shown, '\n' ∉ line) ↔ '\n' ∉ block.statement.text := by
  have hlength := h.length
  cases hwords : block.words with
  | nil =>
    obtain ⟨place, hplace, rfl⟩ := h.empty hwords
    have hnone := Text.newline_notMem (hplace.not_isBlank (by omega))
    simp [hnone]
  | cons first rest =>
    constructor
    · intro hlines
      obtain ⟨line, hline, hshows⟩ := h.word 0 first (by rw [hwords]; rfl)
      have hcount := hshows.count_newline
      rw [if_pos rfl, List.count_append, List.count_eq_zero.2
        (hlines line (List.mem_of_getElem? hline))] at hcount
      exact List.count_eq_zero.1 (by omega)
    · intro htext line hline
      obtain ⟨j, hj⟩ := List.getElem?_of_mem hline
      obtain ⟨hlt, -⟩ := List.getElem?_eq_some_iff.1 hj
      have hword : j < block.words.length := by
        rw [hwords] at hlength ⊢
        rw [List.length_cons] at hlength ⊢
        omega
      obtain ⟨same, hsame, hshows⟩ := h.word j _ (List.getElem?_eq_getElem hword)
      rw [hj] at hsame
      cases hsame
      have hcount := hshows.count_newline
      rw [← List.count_eq_zero, hcount]
      split
      · rw [List.count_append, List.count_eq_zero.2 htext]
        rfl
      · rfl

/-! ## The symbol table -/

theorem Numeral.newline_notMem_address (n : Int) : '\n' ∉ address n := by
  have hpadded : ∀ width m, '\n' ∉ padded 16 width m := by
    intro width m
    obtain ⟨places, hwrites⟩ := writes_leftpad (.inr rfl) width m
    exact Text.newline_notMem (hwrites.not_isBlank le_rfl)
  unfold address
  split
  · simp [hpadded]
  · exact hpadded 4 n.natAbs

theorem SymbolTable.lines_text {table : SymbolTable} (h : ∀ name ∈ table.names, '\n' ∉ name) :
    Text.lines table.text =
      "; Symbol table".toList :: (table.symbols.mergeSort precedes).map line := by
  rw [text, Text.lines_unlines (List.cons_ne_nil _ _), Text.flatMap_lines_eq_self]
  intro part hpart
  rcases List.mem_cons.1 hpart with rfl | hpart
  · decide
  · obtain ⟨symbol, hsymbol, rfl⟩ := List.mem_map.1 hpart
    have hname := h symbol.name (List.mem_map_of_mem (List.mem_mergeSort.1 hsymbol))
    simp [line, hname, Numeral.newline_notMem_address]

/-! ## The listing -/

theorem Assembly.lines_listing (assembly : Assembly) :
    Text.lines assembly.listing = listingHeader ++
      (assembly.blocks.map blockLines).flatten.flatMap Text.lines ++
        [] :: Text.lines assembly.symbolsText := by
  have hheader : listingHeader.flatMap Text.lines = listingHeader :=
    Text.flatMap_lines_eq_self.2 (by decide)
  rw [listing, Text.lines_unlines (by simp), List.flatMap_append, List.flatMap_append, hheader,
    List.flatMap_def (f := blockLines), List.flatMap_cons, List.flatMap_singleton]
  rfl

/-- **The lines of a listing.** Behind three lines of heading every block is shown in order, on a
line for each word or on a single line, then come an empty line, the heading of the symbol table and
a line for each label. A string with a newline in it breaks the line that shows it, and nothing else
does. -/
theorem listing_lines {source : Source} {assembly : Assembly} (h : source.assemble = .ok assembly) :
    ∃ (shown : List (List Text)) (entries : List Symbol),
      List.Forall₂ Block.ListedAs assembly.blocks shown ∧
      entries.Perm assembly.symbols.symbols ∧
      Text.lines assembly.listing = Assembly.listingHeader ++ shown.flatten.flatMap Text.lines ++
        [] :: "; Symbol table".toList :: entries.map SymbolTable.line ∧
      (shown.flatten.flatMap Text.lines = shown.flatten ↔
        ∀ block ∈ assembly.blocks, ∀ token ∈ block.statement.operands,
          token.kind = .string → '\n' ∉ token.content) := by
  obtain ⟨tokens, reading, hread, -, htable, hblocks⟩ := Source.assemble_eq_ok h
  have hwell := Source.read_wellFormed hread
  have hrecords := SymbolTable.records_of_ofStatements hwell htable
  have hemits := Block.emits_of_ofStatements hwell hblocks
  have hwritable := read_writable hread
  have hstatement : ∀ block ∈ assembly.blocks, block.statement.Writable := by
    intro block hblock
    obtain ⟨before, after, hsplit, -⟩ := hemits.split hblock
    exact hwritable _ (by rw [hsplit]; simp)
  have hlisted : ∀ block ∈ assembly.blocks, block.ListedAs (Assembly.blockLines block) :=
    fun block hblock => Assembly.listedAs_blockLines (hemits.labels hrecords hblock).1
      (hstatement block hblock).text_trimmed
  have hnames : ∀ name ∈ assembly.symbols.names, '\n' ∉ name := by
    intro name hname
    obtain ⟨block, hblock, hlabel⟩ := (hemits.mem_names hrecords).1 hname
    exact newline_notMem_word ((hstatement block hblock).labels name hlabel).2.1
  refine ⟨assembly.blocks.map Assembly.blockLines, _, ?_,
    List.mergeSort_perm _ SymbolTable.precedes, ?_, ?_⟩
  · exact List.forall₂_map_right_iff.2 (List.forall₂_same.2 hlisted)
  · rw [Assembly.lines_listing, Assembly.symbolsText, SymbolTable.lines_text hnames]
  · rw [Text.flatMap_lines_eq_self, ← List.flatMap_def, List.forall_mem_flatMap]
    refine forall₂_congr fun block hblock => ?_
    rw [(hlisted block hblock).newline_notMem, (hstatement block hblock).newline_notMem_text]

/-- A block without words and a string behind it that wraps around. -/
def Source.wrapped : Source :=
  ⟨[], ".ORIG xFFFE .BLKW 0 S .STRINGZ \"a;b\" .END".toList⟩

theorem listing_lines_wrapped :
    ∃ assembly, Source.wrapped.assemble = .ok assembly ∧
      (Text.lines assembly.listing)[3]? =
        some "xFFFE                           <.BLKW> N:0".toList ∧
      (Text.lines assembly.listing)[6]? = some "x0000  x0062  0000000001100010".toList ∧
      ∃ (shown : List (List Text)) (entries : List Symbol),
        List.Forall₂ Block.ListedAs assembly.blocks shown ∧
        entries.Perm assembly.symbols.symbols ∧
        Text.lines assembly.listing = Assembly.listingHeader ++ shown.flatten ++
          [] :: "; Symbol table".toList :: entries.map SymbolTable.line := by
  have hprogram : ∃ assembly, Source.wrapped.assemble = .ok assembly ∧
      (Text.lines assembly.listing)[3]? =
        some "xFFFE                           <.BLKW> N:0".toList ∧
      (Text.lines assembly.listing)[6]? = some "x0000  x0062  0000000001100010".toList ∧
      ∀ block ∈ assembly.blocks, ∀ token ∈ block.statement.operands,
        token.kind = .string → '\n' ∉ token.content := by
    decide +kernel
  obtain ⟨assembly, h, hempty, hover, hstrings⟩ := hprogram
  obtain ⟨shown, entries, hlisted, hentries, hlisting, hwhole⟩ := listing_lines h
  rw [hwhole.2 hstrings] at hlisting
  exact ⟨assembly, h, hempty, hover, shown, entries, hlisted, hentries, hlisting⟩

/-- A string that is a newline. -/
def Source.newlineString : Source :=
  ⟨[], ".ORIG x3000 .STRINGZ \"\\n\" .END".toList⟩

/-- The listing of a string with a newline has a line that shows no word: two words, three lines. -/
theorem newline_breaks_listing :
    ∃ assembly, Source.newlineString.assemble = .ok assembly ∧ assembly.words = [10, 0] ∧
      ¬ ∃ (shown : List (List Text)) (entries : List Symbol),
        List.Forall₂ Block.ListedAs assembly.blocks shown ∧
        entries.Perm assembly.symbols.symbols ∧
        Text.lines assembly.listing = Assembly.listingHeader ++ shown.flatten ++
          [] :: "; Symbol table".toList :: entries.map SymbolTable.line := by
  have hprogram : ∃ assembly, Source.newlineString.assemble = .ok assembly ∧
      assembly.words = [10, 0] ∧ (Text.lines assembly.listing).length = 8 ∧
      assembly.blocks.map (fun block => block.words.length) = [2] ∧
      assembly.symbols.symbols = [] := by
    decide +kernel
  obtain ⟨assembly, h, hwords, hlength, hblocks, hsymbols⟩ := hprogram
  refine ⟨assembly, h, hwords, ?_⟩
  rintro ⟨shown, entries, hlisted, hentries, hlines⟩
  rw [hsymbols, List.perm_nil] at hentries
  obtain ⟨block, hblock, htwo⟩ := List.map_eq_singleton_iff.1 hblocks
  rw [hblock] at hlisted
  obtain ⟨lines, rest, hblocklisted, hrest, rfl⟩ := List.forall₂_cons_left_iff.1 hlisted
  cases hrest
  have hcount := hblocklisted.length
  have hheader : Assembly.listingHeader.length = 3 := rfl
  rw [hlines, hentries] at hlength
  simp only [List.length_append, List.flatten_singleton, List.length_cons, List.length_map,
    List.length_nil] at hlength
  omega

end LittleComputer
