import LittleComputer.Proofs.Joining
import LittleComputer.Proofs.Reports
import LittleComputer.Proofs.Turns
import Mathlib.Tactic

/-! # Strings that are not closed

Reading tokens fails for one reason: behind complete gaps and lexemes stands a quote that opens a
string, and no quote closes it.

* `Source.LeavesOpen`: a source with such a quote.
* `Source.tokens_of_leavesOpen`: the report on it.
* `Text.getElem?_lines`: the line of a place by its number, and
  `Text.getElem?_lines_eq_lineAround`: the search for newlines finds that line.
* `lexing_exact`: when reading fails, where the report points and what it shows.
-/

namespace LittleComputer
set_option autoImplicit false

/-! ## Lexemes that are read back -/

theorem Escape.unescape_eq {c d : Char} (h : Escape c d) : unescape c = d := by
  cases h with
  | newline => rfl
  | tab => rfl
  | backspace => rfl
  | itself hn ht hb =>
    unfold unescape
    split
    · exact absurd rfl hn
    · exact absurd rfl ht
    · exact absurd rfl hb
    · rfl

theorem splitString_cons {c : Char} (hquote : c ≠ '"') (hbackslash : c ≠ '\\') (rest : Text) :
    splitString (c :: rest) =
      (splitString rest).map fun split => ⟨c :: split.lexeme, c :: split.content, split.rest⟩ :=
  splitString.eq_5 c rest hquote (fun h _ => hbackslash h) fun _ _ h _ => hbackslash h

namespace Resolves
variable {body inner : Text}

theorem splitString_closed (h : Resolves body inner) (after : Text) :
    splitString (body ++ '"' :: after) = some ⟨body ++ ['"'], inner ++ ['"'], after⟩ := by
  induction h with
  | nil => rfl
  | plain hquote hbackslash _ ih =>
    rw [List.cons_append, splitString_cons hquote hbackslash, ih]
    rfl
  | escape hescape _ ih =>
    rw [List.cons_append, List.cons_append, splitString, ih, Option.map_some, hescape.unescape_eq]
    rfl

/-- At its end a backslash escapes nothing. -/
theorem splitString_open (h : Resolves body inner) :
    splitString body = none ∧ splitString (body ++ ['\\']) = none := by
  induction h with
  | nil => exact ⟨rfl, rfl⟩
  | plain hquote hbackslash _ ih =>
    rw [List.cons_append, splitString_cons hquote hbackslash, splitString_cons hquote hbackslash,
      ih.1, ih.2]
    exact ⟨rfl, rfl⟩
  | escape _ _ ih =>
    rw [List.cons_append, List.cons_append, splitString, splitString, ih.1, ih.2]
    exact ⟨rfl, rfl⟩

end Resolves

theorem Unclosed.splitString_eq_none {text : Text} (h : Unclosed text) :
    splitString text = none := by
  obtain ⟨body, inner, hresolves, rfl | rfl⟩ := h
  · exact hresolves.splitString_open.1
  · exact hresolves.splitString_open.2

theorem Token.WrittenAs.leads {token : Token} {after lexeme : Text}
    (h : token.WrittenAs after lexeme) :
    Leads (lexeme ++ after) ⟨token.kind, token.content, lexeme, after⟩ := by
  cases h with
  | word hkind hcontent hne hword hquote hafter =>
    rw [hkind, hcontent]
    refine .of_word hne (fun c hc => ?_) hquote fun c hc => breaksWord_iff.1 (hafter c hc)
    have hbreaks := mt breaksWord_iff.2 (hword c hc)
    simpa using hbreaks
  | @string body inner hkind hcontent hresolves =>
    rw [hkind, hcontent, List.cons_append, List.append_assoc]
    exact .string (hresolves.splitString_closed after)

/-! ## Pieces that are read back -/

theorem Piece.EachSits.cons {file before rest : Text} {piece : Piece} {pieces : List Piece}
    (h : EachSits file before (piece :: pieces) rest) :
    piece.Sits file before (texts pieces ++ rest) ∧
      EachSits file (before ++ piece.text) pieces rest := by
  constructor
  · have hpiece := h [] piece pieces rfl
    rwa [texts, List.flatMap_nil, List.append_nil] at hpiece
  · intro earlier other later hsplit
    have hother := h (piece :: earlier) other later (congrArg (piece :: ·) hsplit)
    rwa [texts, List.flatMap_cons, ← List.append_assoc] at hother

namespace Source

theorem scan_eachSits (source : Source) {before rest : Text} {pieces : List Piece}
    (h : Piece.EachSits source.file before pieces rest) :
    source.scan ⟨Position.start.after before, Piece.texts pieces ++ rest⟩ =
      (pieces.map Piece.token ++
          (source.scan ⟨Position.start.after (before ++ Piece.texts pieces), rest⟩).1,
        (source.scan ⟨Position.start.after (before ++ Piece.texts pieces), rest⟩).2) := by
  induction pieces generalizing before with
  | nil => simp [Piece.texts]
  | cons piece pieces ih =>
    obtain ⟨hpiece, hpieces⟩ := h.cons
    have htext : Piece.texts (piece :: pieces) ++ rest =
        piece.gap ++ (piece.lexeme ++ (Piece.texts pieces ++ rest)) := by
      simp [Piece.texts, Piece.text]
    have hbehind : ((Position.start.after before).after piece.gap).after piece.lexeme =
        Position.start.after (before ++ piece.text) := by
      rw [Piece.text, Position.after_append, Position.after_append]
    have hbefore : before ++ Piece.texts (piece :: pieces) =
        before ++ piece.text ++ Piece.texts pieces := by
      simp [Piece.texts]
    have htoken : (⟨piece.token.kind, piece.token.content,
        source.locate ((Position.start.after before).after piece.gap)⟩ : Token) = piece.token := by
      rw [← Position.after_append, locate_after, ← hpiece.location]
    rw [htext, source.scan_gap hpiece.gap, source.scan_leads hpiece.lexeme.leads, hbehind, htoken,
      ih hpieces, hbefore]
    rfl

/-- In front of a quote the source is complete gaps and lexemes, and behind it no quote closes the
string. -/
def LeavesOpen (source : Source) (before body : Text) : Prop :=
  ∃ pieces gap, before = Piece.texts pieces ++ gap ∧
    source.Partition pieces (gap ++ '"' :: body) ∧ IsGap ('"' :: body) gap ∧ Unclosed body

theorem LeavesOpen.text_eq {source : Source} {before body : Text}
    (h : source.LeavesOpen before body) : source.text = before ++ '"' :: body := by
  obtain ⟨pieces, gap, rfl, hpartition, -⟩ := h
  rw [← hpartition.text, List.append_assoc]

theorem tokens_of_leavesOpen {source : Source} {before body : Text}
    (h : source.LeavesOpen before body) :
    source.tokens =
      .error (source.unterminated ⟨Position.start.after before, '"' :: body⟩) := by
  obtain ⟨pieces, gap, rfl, hpartition, hgap, hbody⟩ := h
  have hsits : Piece.EachSits source.file [] pieces (gap ++ '"' :: body) := hpartition.pieces
  have hscan := source.scan_eachSits hsits
  rw [source.scan_gap hgap, hpartition.text, ← Position.after_append,
    source.scan_unclosed hbody.splitString_eq_none] at hscan
  rw [tokens_eq_error]
  exact congrArg Prod.snd hscan

theorem leavesOpen_of_tokens {source : Source} {diagnostic : Diagnostic}
    (h : source.tokens = .error diagnostic) : ∃ before body, source.LeavesOpen before body := by
  obtain ⟨pieces, gap, body, hpartition, hgap, hbody, -⟩ := tokens_points h
  exact ⟨_, body, pieces, gap, rfl, hpartition, hgap, hbody⟩

end Source

/-! ## The line around a place -/

namespace Text

theorem head?_lines (text : Text) : (lines text).head? = some (text.takeWhile (· ≠ '\n')) := by
  induction text with
  | nil => rfl
  | cons c rest ih =>
    rw [lines, split]
    by_cases hc : c = '\n'
    · rw [if_pos hc, List.takeWhile_cons_of_neg (by simpa using hc)]
      rfl
    · rw [if_neg hc, List.takeWhile_cons_of_pos (by simpa using hc)]
      have ih : (split '\n' rest).head? = _ := ih
      cases hsplit : split '\n' rest with
      | nil => exact absurd hsplit (split_ne_nil '\n' rest)
      | cons piece pieces =>
        rw [hsplit] at ih
        exact congrArg (Option.map (c :: ·)) ih

/-- The line of a place reaches from the last newline in front of it to the next one behind it. -/
theorem getElem?_lines (before after : Text) :
    (lines (before ++ after))[before.count '\n']? =
      some (before.rtakeWhile (· ≠ '\n') ++ after.takeWhile (· ≠ '\n')) := by
  induction before using List.reverseRecOn generalizing after with
  | nil =>
    rw [List.nil_append, List.count_nil, ← List.head?_eq_getElem?, head?_lines]
    rfl
  | append_singleton before c ih =>
    rw [List.append_assoc, List.singleton_append, List.count_append]
    by_cases hc : c = '\n'
    · subst hc
      have hlength : (lines before).length = before.count '\n' + 1 := length_split '\n' before
      rw [lines_joined, List.rtakeWhile_concat_neg _ _ _ (by simp), List.count_singleton_self,
        ← hlength, List.getElem?_append_right le_rfl, Nat.sub_self, ← List.head?_eq_getElem?,
        head?_lines]
      rfl
    · have hnone : List.count '\n' [c] = 0 := List.count_eq_zero.2 (by simpa using Ne.symm hc)
      rw [List.rtakeWhile_concat_pos _ _ _ (by simpa using hc), hnone, add_zero, ih,
        List.takeWhile_cons_of_pos (by simpa using hc), List.append_assoc, List.singleton_append]

/-- The search for newlines finds the line that the line number of a place says. -/
theorem getElem?_lines_eq_lineAround (before after : Text) :
    (lines (before ++ after))[before.count '\n']? =
      some (lineAround (before ++ after) before.length) := by
  rw [getElem?_lines, lineAround_append]

end Text

/-! ## The report -/

/-- The report is the problem at its place, the line and a caret below it. -/
theorem Source.unterminated_text (source : Source) {quote : Cursor} (h : 0 < quote.position.column) :
    (source.unterminated quote).text =
      (source.locate quote.position).text ++ ": ".toList ++
          ("error: ".toList ++ (source.unterminated quote).message) ++
        '\n' :: ("    ".toList ++ source.text.lineAround (source.offset quote) ++
          '\n' :: (List.replicate (4 + (quote.position.column - 1)) ' ' ++ ['^'])) := by
  have hexcerpt : (source.unterminated quote).excerpt =
      ["    ".toList ++ source.text.lineAround (source.offset quote),
        List.replicate (4 + (quote.position.column - 1)) ' ' ++ ['^']] :=
    if_pos (Int.natCast_pos.2 h)
  have hhint : (source.unterminated quote).hint = none := rfl
  have hplace : (source.unterminated quote).location = some (source.locate quote.position) := rfl
  simp only [Diagnostic.text, hexcerpt, hhint, hplace]
  rfl

/-- The line that is shown has the quote in the column of the report. -/
theorem Source.LeavesOpen.line {source : Source} {before body : Text}
    (h : source.LeavesOpen before body) :
    '\n' ∉ source.text.lineAround before.length ∧
      (source.text.lineAround before.length)[(Position.start.after before).column - 1]? =
        some '"' := by
  rw [h.text_eq, Text.lineAround_append, Position.after_column, Nat.add_sub_cancel_left,
    List.takeWhile_cons_of_pos (by decide)]
  constructor
  · intro hmem
    rcases List.mem_append.1 hmem with hmem | hmem
    · have hne := List.mem_rtakeWhile_imp hmem
      simp at hne
    · rcases List.mem_cons.1 hmem with heq | hmem
      · exact absurd heq (by decide)
      · have hne := List.mem_takeWhile_imp hmem
        simp at hne
  · rw [List.getElem?_append_right le_rfl, Nat.sub_self]
    rfl

/-- **When reading tokens fails.** Within as many turns as the text has characters the lexer has
delivered all tokens or failed, and no character is unrecognized. It fails exactly for a source in
which complete gaps and lexemes are followed by a quote that opens a string and no quote closes it.
The report points at that quote, shows its line and puts a caret below it. -/
theorem lexing_exact (source : Source) :
    (∃ tokens stop, source.turns source.text.length source.start = some (tokens, stop) ∧
      (stop = .ended ∧ source.tokens = .ok tokens ∨
        ∃ diagnostic, stop = .failed diagnostic ∧ source.tokens = .error diagnostic)) ∧
      ((∃ diagnostic, source.tokens = .error diagnostic) ↔
        ∃ before body, source.LeavesOpen before body) ∧
      ∀ before body, source.LeavesOpen before body →
        ∃ (diagnostic : Diagnostic) (place : Location) (headline shown caret : Text),
          source.text = before ++ '"' :: body ∧ source.tokens = .error diagnostic ∧
          diagnostic.category = .lexical ∧ diagnostic.location = some place ∧
          place = .behind source.file before ∧ diagnostic.sourceLine = some shown ∧
          (Text.lines source.text)[place.line.toNat - 1]? = some shown ∧
          shown[place.column.toNat - 1]? = some '"' ∧
          diagnostic.text = headline ++ '\n' :: ("    ".toList ++ shown ++ '\n' :: caret) ∧
          '\n' ∉ shown ∧ ("    ".toList ++ shown)[4 + (place.column.toNat - 1)]? = some '"' ∧
          caret = List.replicate (4 + (place.column.toNat - 1)) ' ' ++ ['^'] := by
  refine ⟨?_, ?_, ?_⟩
  · refine ⟨_, _, source.turns_eq le_rfl, ?_⟩
    cases hstop : (source.scan source.start).2 with
    | none => exact .inl ⟨rfl, Source.tokens_eq_ok.2 (Prod.ext rfl hstop)⟩
    | some diagnostic => exact .inr ⟨diagnostic, rfl, Source.tokens_eq_error.2 hstop⟩
  · constructor
    · rintro ⟨diagnostic, h⟩
      exact Source.leavesOpen_of_tokens h
    · rintro ⟨before, body, h⟩
      exact ⟨_, Source.tokens_of_leavesOpen h⟩
  · intro before body h
    have hcolumn : 0 < (Position.start.after before).column := by
      rw [Position.after_column]
      omega
    have hline : (source.locate (Position.start.after before)).line.toNat - 1 =
        before.count '\n' := by
      rw [source.locate_after]
      exact Nat.add_sub_cancel_left 1 _
    obtain ⟨hnewline, hquote⟩ := h.line
    rw [← source.offset_eq h.text_eq (Position.start.after before)] at hnewline hquote
    refine ⟨_, _, _, _, _, h.text_eq, Source.tokens_of_leavesOpen h, rfl, rfl,
      source.locate_after before, rfl, ?_, hquote, source.unterminated_text hcolumn, hnewline, ?_,
      rfl⟩
    · rw [hline, source.offset_eq h.text_eq, h.text_eq]
      exact Text.getElem?_lines_eq_lineAround before ('"' :: body)
    · rw [List.getElem?_append_right (Nat.le_add_right 4 _)]
      exact (congrArg _ (Nat.add_sub_cancel_left 4 _)).trans hquote

/-- Quotes in a word, in a comment and escaped in a string, and then a string that ends in an
escaped quote, a newline and a backslash. -/
def Source.dangling : Source :=
  ⟨"d.asm".toList, "A\"b ;\"\n .STRINGZ \"x\\\"y\",\"end\\\"\n\\".toList⟩

theorem lexing_exact_dangling :
    ∃ (before body : Text) (diagnostic : Diagnostic), Source.dangling.LeavesOpen before body ∧
      Source.dangling.tokens = .error diagnostic ∧
      diagnostic.location = some (.behind "d.asm".toList before) ∧
      diagnostic.text = ("d.asm:2:18: error: unterminated string literal\n" ++
        "     .STRINGZ \"x\\\"y\",\"end\\\"\n" ++
        "                     ^").toList := by
  have hfails : Source.dangling.tokens = .error ⟨.unterminatedString,
      some ⟨"d.asm".toList, 2, 18⟩, none, some " .STRINGZ \"x\\\"y\",\"end\\\"".toList⟩ := by
    decide +kernel
  obtain ⟨before, body, hopen⟩ := (lexing_exact Source.dangling).2.1.1 ⟨_, hfails⟩
  obtain ⟨diagnostic, place, -, -, -, -, htokens, -, hlocation, hplace, -⟩ :=
    (lexing_exact Source.dangling).2.2 before body hopen
  cases hfails.symm.trans htokens
  exact ⟨before, body, _, hopen, hfails, hplace ▸ hlocation, by decide +kernel⟩

end LittleComputer
