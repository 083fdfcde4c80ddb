import LittleComputer.Proofs.Encoding
import LittleComputer.Proofs.RoundTrip
import LittleComputer.Proofs.Unclosed
import Mathlib.Tactic

/-! # Strings in memory

A string may be written in many ways, since most characters stand for themselves with a backslash
or without. All of them are read as one token, and the words in the memory are the code points of
the characters that were meant.

* `Source.scan_agrees`: kinds and contents of tokens do not depend on the place of the text.
* `Source.tokens_string`: a literal in front of a text.
* `Source.stringz`: the program with nothing but a string.
* `Assembly.ofStatements_single`: a region with one statement.
* `strings_roundTrip`: what is written is what the memory holds.
-/

namespace LittleComputer
set_option autoImplicit false

namespace Source

/-! ## The literal -/

/-- The same tokens come from a text that stands in another place. -/
theorem scan_agrees {source : Source} {cursor : Cursor} (h : (source.scan cursor).2 = none)
    (other : Source) (position : Position) :
    ∃ tokens, other.scan ⟨position, cursor.rest⟩ = (tokens, none) ∧
      List.Forall₂ (fun t u => t.agrees u = true) (source.scan cursor).1 tokens := by
  fun_induction scan source cursor generalizing position with
  | case1 cursor diagnostic hnext => cases h
  | case2 cursor hnext =>
    have hrest : (splitGap false cursor.rest).2 = [] := next_eq_none.1 hnext
    have hother : other.next ⟨position, cursor.rest⟩ = .ok none := next_eq_none.2 hrest
    exact ⟨[], by rw [scan_eq, hother], .nil⟩
  | case3 cursor token behind hnext rest ih =>
    obtain ⟨gap, text, lead, hgap, hlead, rfl, rfl⟩ := leads_of_next hnext
    obtain ⟨tokens, hscan, hagrees⟩ := ih h ((position.after gap).after lead.written)
    have hscan : other.scan ⟨(position.after gap).after lead.written, lead.rest⟩ =
        (tokens, none) := hscan
    refine ⟨⟨lead.kind, lead.content, other.locate (position.after gap)⟩ :: tokens, ?_, ?_⟩
    · rw [scan_eq, next_of_leads other position hgap hlead]
      simp only [hscan]
    · exact .cons (by simp [Token.agrees]) hagrees

variable {written s : Text}

theorem scan_string (source : Source) (h : Resolves written s) (position : Position)
    (rest : Text) :
    ∃ behind, source.scan ⟨position, '"' :: (written ++ '"' :: rest)⟩ =
      (⟨.string, '"' :: (s ++ ['"']), source.locate position⟩ ::
          (source.scan ⟨behind, rest⟩).1, (source.scan ⟨behind, rest⟩).2) :=
  ⟨_, source.scan_leads (.string (h.splitString_closed rest)) position⟩

theorem tokens_string (h : Resolves written s) {other : Source} {ts : List Token}
    (hrest : other.tokens = .ok ts) (file : Text) :
    ∃ location us, (⟨file, '"' :: (written ++ '"' :: other.text)⟩ : Source).tokens =
        .ok (⟨.string, '"' :: (s ++ ['"']), location⟩ :: us) ∧
      List.Forall₂ (fun t u => t.agrees u = true) ts us := by
  generalize hsource : (⟨file, '"' :: (written ++ '"' :: other.text)⟩ : Source) = source
  have hstart : source.start = ⟨.start, '"' :: (written ++ '"' :: other.text)⟩ := by
    rw [← hsource]
    rfl
  have hother := tokens_eq_ok.1 hrest
  obtain ⟨behind, hliteral⟩ := source.scan_string h .start other.text
  obtain ⟨us, hus, hagrees⟩ := scan_agrees (congrArg Prod.snd hother) source behind
  have hus : source.scan ⟨behind, other.text⟩ = (us, none) := hus
  rw [hother] at hagrees
  refine ⟨source.locate .start, us, tokens_eq_ok.2 ?_, hagrees⟩
  rw [hstart, hliteral, hus]

/-! ## The program -/

/-- The program that puts a string at `x3000`. -/
def stringz (file written : Text) : Source :=
  ⟨file, ".ORIG x3000 .STRINGZ ".toList ++ '"' :: (written ++ '"' :: " .END".toList)⟩

theorem scan_word (source : Source) (word : Text)
    (h : word ≠ [] ∧ word.all isWordChar = true ∧ word.head? ≠ some '"') (position : Position)
    (rest : Text) :
    ∃ behind, source.scan ⟨position, word ++ ' ' :: rest⟩ =
      (⟨.ofWord word, word, source.locate position⟩ :: (source.scan ⟨behind, rest⟩).1,
        (source.scan ⟨behind, rest⟩).2) := by
  obtain ⟨hne, hword, hquote⟩ := h
  have hblank : isSeparator ' ' = true := by decide
  have hstop : ∀ c ∈ (' ' :: rest).head?, isWordChar c = false := by
    rintro c ⟨⟩
    decide
  have hlead := Leads.of_word hne (List.all_eq_true.1 hword) hquote hstop
  refine ⟨(position.after word).advance ' ', ?_⟩
  rw [source.scan_leads hlead, source.scan_separator hblank]

theorem tokens_stringz (h : Resolves written s) (file : Text) :
    ∃ a b c d e, (stringz file written).tokens = .ok [⟨.operator, ".ORIG".toList, a⟩,
      ⟨.immediate, "x3000".toList, b⟩, ⟨.operator, ".STRINGZ".toList, c⟩,
      ⟨.string, '"' :: (s ++ ['"']), d⟩, ⟨.operator, ".END".toList, e⟩] := by
  have hend : (⟨[], " .END".toList⟩ : Source).tokens =
      .ok [⟨.operator, ".END".toList, ⟨[], 1, 2⟩⟩] := by
    decide +kernel
  have hend := tokens_eq_ok.1 hend
  generalize hsource : stringz file written = source
  have hstart : source.start = ⟨.start, ".ORIG".toList ++ ' ' :: ("x3000".toList ++ ' ' ::
      (".STRINGZ".toList ++ ' ' :: '"' :: (written ++ '"' :: " .END".toList)))⟩ := by
    rw [← hsource]
    rfl
  obtain ⟨p, horig⟩ := source.scan_word ".ORIG".toList (by decide) .start _
  obtain ⟨q, hvalue⟩ := source.scan_word "x3000".toList (by decide) p _
  obtain ⟨r, hstringz⟩ := source.scan_word ".STRINGZ".toList (by decide) q _
  obtain ⟨behind, hliteral⟩ := source.scan_string h r " .END".toList
  obtain ⟨last, hlast, hagrees⟩ := scan_agrees (congrArg Prod.snd hend) source behind
  have hlast : source.scan ⟨behind, " .END".toList⟩ = (last, none) := hlast
  rw [hend] at hagrees
  obtain ⟨⟨kind, content, place⟩, _, hagree, hnil, rfl⟩ := List.forall₂_cons_left_iff.1 hagrees
  cases hnil
  obtain ⟨rfl, rfl⟩ : TokenKind.operator = kind ∧ ".END".toList = content := by
    simpa [Token.agrees] using hagree
  refine ⟨source.locate .start, source.locate p, source.locate q, source.locate r, place,
    tokens_eq_ok.2 ?_⟩
  rw [hstart, horig, hvalue, hstringz, hliteral, hlast]
  rfl

end Source

theorem Statement.read_stringz (a b c d e : Location) (text : Text) :
    ∃ first middle last, read [⟨.operator, ".ORIG".toList, a⟩, ⟨.immediate, "x3000".toList, b⟩,
        ⟨.operator, ".STRINGZ".toList, c⟩, ⟨.string, text, d⟩, ⟨.operator, ".END".toList, e⟩] =
        .ok ⟨[first, middle, last], []⟩ ∧
      first.mnemonic = .orig ∧ first.origin = .ok 0x3000 ∧
      middle = ⟨[], .stringz, [⟨.string, text, d⟩], some c⟩ ∧ last.mnemonic = .finish :=
  ⟨_, _, _, rfl, rfl, rfl, rfl, rfl⟩

/-- A region that holds one statement without labels. -/
theorem Assembly.ofStatements_single {first middle last : Statement} {address : Int} {size : Nat}
    (horig : first.mnemonic = .orig) (horigin : first.origin = .ok address)
    (hmemory : InMemory address) (hplaced : middle.isPlaced = true) (hlabels : middle.labels = [])
    (hsize : middle.footprint = .ok size) (hlast : last.mnemonic = .finish) :
    Assembly.ofStatements [first, middle, last] =
      (middle.encode .empty (address + 1)).map fun words =>
        ⟨[first, middle, last], .empty, [⟨address, middle, words⟩]⟩ := by
  have hsymbols : SymbolTable.ofStatements [first, middle, last] = .ok .empty := by
    rw [SymbolTable.ofStatements, SymbolTable.extend_orig horig, horigin]
    show SymbolTable.empty.extend (some address) [middle, last] = _
    rw [SymbolTable.extend_placed hplaced, if_pos hmemory, hlabels, hsize]
    show SymbolTable.empty.extend (some (address + size)) [last] = _
    rw [SymbolTable.extend_finish hlast]
    rfl
  have hblocks : Block.ofStatements .empty [first, middle, last] =
      (middle.encode .empty (address + 1)).map fun words => [⟨address, middle, words⟩] := by
    rw [Block.ofStatements, Block.encodeFrom_orig horig, horigin]
    show Block.encodeFrom .empty (some address) [middle, last] = _
    rw [Block.encodeFrom_placed hplaced, hsize]
    simp only [Except.bind, Block.encodeFrom_finish hlast]
    rfl
  rw [Assembly.ofStatements, hsymbols, ok_bind, hblocks]
  cases middle.encode .empty (address + 1) <;> rfl

theorem Source.assemble_stringz {written s : Text} (h : Resolves written s) (file : Text) :
    ∃ (location : Location) (assembly : List Word → Assembly),
      (∀ words, (assembly words).words = words ++ [0#16]) ∧
      (stringz file written).assemble =
        (Statement.characterWords location s).map assembly := by
  obtain ⟨a, b, c, d, e, htokens⟩ := tokens_stringz h file
  obtain ⟨first, middle, last, hread, horig, horigin, hmiddle, hlast⟩ :=
    Statement.read_stringz a b c d e ('"' :: (s ++ ['"']))
  have htext : (⟨.string, '"' :: (s ++ ['"']), d⟩ : Token).stringText = .ok s := by
    rw [Token.stringText_eq rfl, List.tail_cons, List.dropLast_concat]
  have hsize : middle.footprint = .ok (s.length + 1) := by
    simp only [hmiddle, Statement.footprint, Statement.firstOperand, ok_bind, htext]
  have hencode : middle.encode .empty (0x3000 + 1) =
      (Statement.characterWords d s).map (· ++ [0#16]) := by
    simp only [hmiddle, Statement.encode, Mnemonic.format?, Statement.encodeAs,
      Statement.oneOperand, ok_bind, htext]
    rfl
  have hplaced : middle.isPlaced = true := by rw [hmiddle]; rfl
  have hlabels : middle.labels = [] := by rw [hmiddle]
  have hassemble : (stringz file written).assemble =
      Assembly.ofStatements [first, middle, last] := by
    rw [Source.assemble, read_of_tokens htokens hread]
    rfl
  refine ⟨d, fun words => ⟨[first, middle, last], .empty, [⟨0x3000, middle, words ++ [0#16]⟩]⟩,
    fun words => List.append_nil _, ?_⟩
  rw [hassemble, Assembly.ofStatements_single horig horigin (by decide) hplaced hlabels hsize hlast,
    hencode]
  cases Statement.characterWords d s <;> rfl

/-- **Strings reach the memory as they are meant.** However a text is written between quotes, it is
read as one token with this text, and what follows is read as if it stood alone. In the program
that holds nothing else, its code points and a zero are the words; a character that no word can
hold is reported. -/
theorem strings_roundTrip {written s : Text} (h : Resolves written s) (file : Text) :
    (∀ (other : Source) (ts : List Token), other.tokens = .ok ts →
      ∃ string us, (⟨file, '"' :: (written ++ '"' :: other.text)⟩ : Source).tokens =
          .ok (string :: us) ∧
        string.kind = .string ∧ string.stringText = .ok s ∧
        List.Forall₂ (fun t u => t.agrees u = true) ts us) ∧
    ((∀ c ∈ s, c.toNat ≤ 0xFFFF) → ∃ assembly,
      (Source.stringz file written).assemble = .ok assembly ∧
        assembly.words.map BitVec.toNat = s.map Char.toNat ++ [0]) ∧
    ((∃ c ∈ s, 0xFFFF < c.toNat) → ∃ diagnostic,
      (Source.stringz file written).assemble = .error (.diagnostic diagnostic) ∧
        diagnostic.category = .encoding ∧
        ∃ c ∈ s, 0xFFFF < c.toNat ∧ diagnostic.problem = .wideCharacter c) := by
  obtain ⟨location, assembly, hwords, hassemble⟩ := Source.assemble_stringz h file
  have houtcome := Statement.characterWords_outcome location s
  refine ⟨?_, ?_, ?_⟩
  · intro other ts hts
    obtain ⟨place, us, htokens, hagrees⟩ := Source.tokens_string h hts file
    refine ⟨_, us, htokens, rfl, ?_, hagrees⟩
    rw [Token.stringText_eq rfl, List.tail_cons, List.dropLast_concat]
  · intro hnarrow
    rcases houtcome with ⟨hok, -⟩ | ⟨front, c, rest, rfl, -, hwide, -⟩
    · refine ⟨_, by rw [hassemble, hok]; rfl, ?_⟩
      rw [hwords, List.map_append, List.map_map]
      congr 1
      refine List.map_congr_left fun c hc => ?_
      exact (BitVec.toNat_ofNat _ _).trans (Nat.mod_eq_of_lt (Nat.lt_succ_of_le (hnarrow c hc)))
    · exact absurd (hnarrow c (by simp)) hwide
  · rintro ⟨c, hc, hwide⟩
    rcases houtcome with ⟨-, hnarrow⟩ | ⟨front, d, rest, rfl, -, hwide, herror⟩
    · exact absurd (hnarrow c hc) (Nat.not_le.2 hwide)
    · have hfailure : (Diagnostic.plain (.wideCharacter d) (some location)).failure =
          .diagnostic (.plain (.wideCharacter d) (some location)) := by
        apply Diagnostic.failure_eq
        · intro value hvalue
          cases hvalue
        · intro n hn
          cases hn
      refine ⟨_, by rw [hassemble, herror, hfailure]; rfl, rfl, d, by simp, Nat.not_le.1 hwide, rfl⟩

/-- A quote, a backslash in front of an `n`, a newline and a semicolon, with and without a
backslash, and a backslash at the end. -/
theorem strings_roundTrip_backslashes :
    (∃ us, (⟨[], "\"\\\"\\\\n\\n\n;\\;\\\\\"x1;".toList⟩ : Source).tokens = .ok us ∧
      ∃ string number, us = [string, number] ∧ string.stringText = .ok "\"\\n\n\n;;\\".toList) ∧
    (∃ assembly, (Source.stringz [] "\\\"\\\\n\\n\n;\\;\\\\".toList).assemble = .ok assembly ∧
      assembly.words.map BitVec.toNat = [34, 92, 110, 10, 10, 59, 59, 92, 0]) ∧
    ∃ diagnostic, (Source.stringz [] "é😀".toList).assemble = .error (.diagnostic diagnostic) ∧
      diagnostic.category = .encoding := by
  have hself : ∀ c : Char, c ≠ 'n' ∧ c ≠ 't' ∧ c ≠ 'b' → Escape c c :=
    fun c h => .itself h.1 h.2.1 h.2.2
  have hresolves : Resolves "\\\"\\\\n\\n\n;\\;\\\\".toList "\"\\n\n\n;;\\".toList :=
    .escape (hself '"' (by decide)) <| .escape (hself '\\' (by decide)) <|
      .plain (by decide) (by decide) <| .escape .newline <| .plain (by decide) (by decide) <|
      .plain (by decide) (by decide) <| .escape (hself ';' (by decide)) <|
      .escape (hself '\\' (by decide)) .nil
  have hwide : Resolves "é😀".toList "é😀".toList :=
    .plain (by decide) (by decide) (.plain (by decide) (by decide) .nil)
  have hrest : (⟨[], "x1;".toList⟩ : Source).tokens =
      .ok [⟨.immediate, "x1".toList, ⟨[], 1, 1⟩⟩] := by
    decide +kernel
  have hnarrow : ∀ c ∈ "\"\\n\n\n;;\\".toList, c.toNat ≤ 0xFFFF := by
    have hall : ("\"\\n\n\n;;\\".toList.all fun c => decide (c.toNat ≤ 0xFFFF)) = true := by
      decide
    exact fun c hc => of_decide_eq_true (List.all_eq_true.1 hall c hc)
  obtain ⟨string, us, htokens, -, htext, hagrees⟩ :=
    (strings_roundTrip hresolves []).1 _ _ hrest
  obtain ⟨number, _, -, hnil, rfl⟩ := List.forall₂_cons_left_iff.1 hagrees
  cases hnil
  refine ⟨⟨_, htokens, string, number, rfl, htext⟩, ?_, ?_⟩
  · exact (strings_roundTrip hresolves []).2.1 hnarrow
  · obtain ⟨diagnostic, herror, hcategory, -⟩ :=
      (strings_roundTrip hwide []).2.2 ⟨'😀', by decide, by decide⟩
    exact ⟨diagnostic, herror, hcategory⟩

end LittleComputer
