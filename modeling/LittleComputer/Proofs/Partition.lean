import LittleComputer.Proofs.Scanning
import Mathlib.Data.List.DropRight
import Mathlib.Tactic

/-! # The partition of a source

A source is gaps and lexemes in turn, and nothing else. What a gap and a lexeme are is said here by
their characters and by what follows them, not by a reader.

* `IsGap`: white space, commas and comments.
* `Token.WrittenAs`: how a token is written, as a word or as a string with escapes (`Resolves`).
* `Location.behind`: the line and the column behind a text.
* `Piece`, `Source.Partition`: a lexeme with its token and the gap in front of it, and a source that
  consists of such pieces and a rest.
* `Source.scan_partition`: what a scan has met, whichever way it ends.
* `tokens_partition`: the text of a source whose tokens can be read.
-/

namespace LittleComputer
set_option autoImplicit false

/-! ## Gaps -/

/-- White space, commas and semicolons, which no word contains. -/
def BreaksWord (c : Char) : Prop :=
  Text.isBlank c = true ∨ c = ',' ∨ c = ';'

/-- White space, commas and comments with `after` behind them. A comment starts with a semicolon and
goes on up to a newline or to the end. -/
inductive IsGap (after : Text) : Text → Prop
  | nil : IsGap after []
  | separator {c : Char} {gap : Text} (hc : Text.isBlank c = true ∨ c = ',')
    (h : IsGap after gap) : IsGap after (c :: gap)
  | comment {body gap : Text} (hbody : '\n' ∉ body) (hend : ∀ c ∈ (gap ++ after).head?, c = '\n')
    (h : IsGap after gap) : IsGap after (';' :: (body ++ gap))

theorem isSeparator_iff {c : Char} : isSeparator c = true ↔ Text.isBlank c = true ∨ c = ',' := by
  simp [isSeparator]

theorem breaksWord_iff {c : Char} : BreaksWord c ↔ isWordChar c = false := by
  simp only [BreaksWord, isWordChar, isSeparator, Bool.and_eq_false_iff, Bool.not_eq_false',
    Bool.or_eq_true, beq_iff_eq, bne_eq_false_iff_eq, or_assoc]

/-- A gap from inside a comment is the rest of the comment and a gap behind it. -/
theorem isGap_splitGap (text : Text) :
    IsGap (splitGap false text).2 (splitGap false text).1 ∧
      ∃ body gap, (splitGap true text).1 = body ++ gap ∧ '\n' ∉ body ∧
        (∀ c ∈ (gap ++ (splitGap true text).2).head?, c = '\n') ∧
        IsGap (splitGap true text).2 gap := by
  induction text with
  | nil => exact ⟨.nil, [], [], rfl, by simp, by simp [splitGap], .nil⟩
  | cons c rest ih =>
    obtain ⟨hgap, body, gap, hsplit, hbody, hend, hbehind⟩ := ih
    have hnewline : Text.isBlank '\n' = true := by decide
    constructor
    · by_cases hword : isWordChar c = true
      · rw [splitGap_word hword]
        exact .nil
      · by_cases hc : c = ';'
        · subst hc
          have hcomment : splitGap false (';' :: rest) =
              (';' :: (splitGap true rest).1, (splitGap true rest).2) := by
            simp [splitGap, hword]
          rw [hcomment, hsplit]
          exact .comment hbody hend hbehind
        · have hseparator : Text.isBlank c = true ∨ c = ',' := by
            have hbreaks := breaksWord_iff.2 (by simpa using hword)
            simpa [BreaksWord, hc] using hbreaks
          rw [splitGap_separator (isSeparator_iff.2 hseparator)]
          exact .separator hseparator hgap
    · by_cases hc : c = '\n'
      · subst hc
        have hopen : splitGap true ('\n' :: rest) =
            ('\n' :: (splitGap false rest).1, (splitGap false rest).2) := by
          simp [splitGap]
        rw [hopen]
        exact ⟨[], '\n' :: (splitGap false rest).1, rfl, by simp, by simp,
          .separator (.inl hnewline) hgap⟩
      · have hne : (c != '\n') = true := by simpa using hc
        have hinside : splitGap true (c :: rest) =
            (c :: (splitGap true rest).1, (splitGap true rest).2) := by
          simp [splitGap, hne]
        rw [hinside]
        refine ⟨c :: body, gap, by rw [hsplit]; rfl, ?_, hend, hbehind⟩
        intro hmem
        rcases List.mem_cons.1 hmem with heq | hmem
        · exact hc heq.symm
        · exact hbody hmem

/-! ## Lexemes -/

/-- What a character behind a backslash stands for. -/
inductive Escape : Char → Char → Prop
  | newline : Escape 'n' '\n'
  | tab : Escape 't' '\t'
  | backspace : Escape 'b' '\x08'
  | itself {c : Char} (hn : c ≠ 'n') (ht : c ≠ 't') (hb : c ≠ 'b') : Escape c c

/-- The text between two quotes and the characters that it denotes. Every quote in it stands behind a
backslash that is not itself escaped. -/
inductive Resolves : Text → Text → Prop
  | nil : Resolves [] []
  | plain {c : Char} {body inner : Text} (hquote : c ≠ '"') (hbackslash : c ≠ '\\')
    (h : Resolves body inner) : Resolves (c :: body) (c :: inner)
  | escape {c d : Char} {body inner : Text} (hescape : Escape c d) (h : Resolves body inner) :
    Resolves ('\\' :: c :: body) (d :: inner)

/-- The text behind an opening quote, up to its end, without a closing quote. -/
def Unclosed (text : Text) : Prop :=
  ∃ body inner, Resolves body inner ∧ (text = body ∨ text = body ++ ['\\'])

/-- How a token is written where `after` follows it. -/
inductive Token.WrittenAs (token : Token) (after : Text) : Text → Prop
  | word {lexeme : Text} (hkind : token.kind = .ofWord lexeme) (hcontent : token.content = lexeme)
    (hne : lexeme ≠ []) (hword : ∀ c ∈ lexeme, ¬ BreaksWord c)
    (hquote : lexeme.head? ≠ some '"') (hafter : ∀ c ∈ after.head?, BreaksWord c) :
    WrittenAs token after lexeme
  | string {body inner : Text} (hkind : token.kind = .string)
    (hcontent : token.content = '"' :: (inner ++ ['"'])) (h : Resolves body inner) :
    WrittenAs token after ('"' :: (body ++ ['"']))

theorem escape_unescape (c : Char) : Escape c (unescape c) := by
  unfold unescape
  split
  · exact .newline
  · exact .tab
  · exact .backspace
  · next hn ht hb => exact .itself hn ht hb

theorem resolves_splitString {text : Text} {split : StringSplit}
    (h : splitString text = some split) :
    ∃ body inner, split.lexeme = body ++ ['"'] ∧ split.content = inner ++ ['"'] ∧
      Resolves body inner := by
  fun_induction splitString text generalizing split with
  | case1 => simp at h
  | case2 rest => cases h; exact ⟨[], [], rfl, rfl, .nil⟩
  | case3 => simp at h
  | case4 c rest ih =>
    obtain ⟨part, hpart, rfl⟩ := Option.map_eq_some_iff.1 h
    obtain ⟨body, inner, hlexeme, hcontent, hresolves⟩ := ih hpart
    exact ⟨'\\' :: c :: body, unescape c :: inner, by rw [hlexeme]; rfl, by rw [hcontent]; rfl,
      .escape (escape_unescape c) hresolves⟩
  | case5 c rest hquote hend hescape ih =>
    obtain ⟨part, hpart, rfl⟩ := Option.map_eq_some_iff.1 h
    obtain ⟨body, inner, hlexeme, hcontent, hresolves⟩ := ih hpart
    obtain ⟨hquote, hbackslash⟩ := splitString_plain hquote hend hescape
    exact ⟨c :: body, c :: inner, by rw [hlexeme]; rfl, by rw [hcontent]; rfl,
      .plain hquote hbackslash hresolves⟩

theorem unclosed_splitString {text : Text} (h : splitString text = none) : Unclosed text := by
  fun_induction splitString text with
  | case1 => exact ⟨[], [], .nil, .inl rfl⟩
  | case2 rest => cases h
  | case3 => exact ⟨[], [], .nil, .inr rfl⟩
  | case4 c rest ih =>
    obtain ⟨body, inner, hresolves, htext⟩ := ih (Option.map_eq_none_iff.1 h)
    refine ⟨'\\' :: c :: body, unescape c :: inner, .escape (escape_unescape c) hresolves, ?_⟩
    simpa using htext
  | case5 c rest hquote hend hescape ih =>
    obtain ⟨body, inner, hresolves, htext⟩ := ih (Option.map_eq_none_iff.1 h)
    obtain ⟨hquote, hbackslash⟩ := splitString_plain hquote hend hescape
    refine ⟨c :: body, c :: inner, .plain hquote hbackslash hresolves, ?_⟩
    simpa using htext

theorem Leads.writtenAs {text : Text} {lead : Lead} (h : Leads text lead) (location : Location) :
    (⟨lead.kind, lead.content, location⟩ : Token).WrittenAs lead.rest lead.written := by
  cases h with
  | @string body split hsplit =>
    obtain ⟨body, inner, hlexeme, hcontent, hresolves⟩ := resolves_splitString hsplit
    dsimp only
    rw [hlexeme, hcontent]
    exact .string rfl rfl hresolves
  | @word c rest hword hquote =>
    have hcons : (c :: rest).takeWhile isWordChar = c :: rest.takeWhile isWordChar :=
      List.takeWhile_cons_of_pos hword
    apply Token.WrittenAs.word rfl rfl
    · simp [hcons]
    · intro d hd
      have hall := List.all_eq_true.1 List.all_takeWhile d hd
      rw [breaksWord_iff, hall]
      decide
    · simpa [hcons] using hquote
    · intro d hd
      have hstop := List.head?_dropWhile_not isWordChar (c :: rest)
      rw [Option.mem_def.1 hd] at hstop
      exact breaksWord_iff.2 (by simpa using hstop)

/-! ## Places -/

/-- The place behind a text: one line for each newline and the first, and one column for each
character since the last newline and the first. -/
def Location.behind (file text : Text) : Location :=
  ⟨file, (1 + text.count '\n' : Nat), (1 + (text.rtakeWhile (· ≠ '\n')).length : Nat)⟩

theorem Position.after_column (text : Text) :
    (start.after text).column = 1 + (text.rtakeWhile (· ≠ '\n')).length := by
  induction text using List.reverseRecOn with
  | nil => rfl
  | append_singleton text c ih =>
    have hadvance : start.after (text ++ [c]) = (start.after text).advance c := after_append _ _ _
    rw [hadvance, advance]
    by_cases hc : c = '\n'
    · rw [if_pos hc, List.rtakeWhile_concat_neg _ _ _ (by simpa using hc)]
      rfl
    · rw [if_neg hc, List.rtakeWhile_concat_pos _ _ _ (by simpa using hc), List.length_append]
      simp only [ih, List.length_singleton]
      omega

theorem Source.locate_after (source : Source) (text : Text) :
    source.locate (Position.start.after text) = .behind source.file text := by
  have hline := Position.after_line .start text
  have hcolumn := Position.after_column text
  unfold locate Location.behind
  rw [hline, hcolumn]
  rfl

/-! ## Pieces -/

/-- A lexeme of a source, the gap in front of it and its token. -/
structure Piece where
  gap : Text
  lexeme : Text
  token : Token

namespace Piece

def text (piece : Piece) : Text :=
  piece.gap ++ piece.lexeme

def texts (pieces : List Piece) : Text :=
  pieces.flatMap text

/-- The piece stands between the texts `before` and `after`. -/
structure Sits (file before after : Text) (piece : Piece) : Prop where
  gap : IsGap (piece.lexeme ++ after) piece.gap
  lexeme : piece.token.WrittenAs after piece.lexeme
  location : piece.token.location = .behind file (before ++ piece.gap)

/-- Every piece stands where the pieces in front of it and behind it put it. -/
def EachSits (file before : Text) (pieces : List Piece) (rest : Text) : Prop :=
  ∀ earlier piece later, pieces = earlier ++ piece :: later →
    piece.Sits file (before ++ texts earlier) (texts later ++ rest)

theorem eachSits_cons {file before rest : Text} {piece : Piece} {pieces : List Piece}
    (hpiece : piece.Sits file before (texts pieces ++ rest))
    (hpieces : EachSits file (before ++ piece.text) pieces rest) :
    EachSits file before (piece :: pieces) rest := by
  intro earlier other later hsplit
  cases earlier with
  | nil =>
    obtain ⟨rfl, rfl⟩ := List.cons.inj hsplit
    simpa [texts] using hpiece
  | cons first earlier =>
    obtain ⟨rfl, htail⟩ := List.cons.inj hsplit
    have hother := hpieces earlier other later htail
    rwa [List.append_assoc] at hother

end Piece

/-- A source consists of the pieces and a rest. -/
structure Source.Partition (source : Source) (pieces : List Piece) (rest : Text) : Prop where
  text : Piece.texts pieces ++ rest = source.text
  pieces : ∀ earlier piece later, pieces = earlier ++ piece :: later →
    piece.Sits source.file (Piece.texts earlier) (Piece.texts later ++ rest)

namespace Source

/-- What a scan leaves behind the last token: a gap, or a string that it reports as not closed. -/
inductive Ends (source : Source) (before : Text) : Text → Option Diagnostic → Prop
  | gap {rest : Text} (h : IsGap [] rest) : Ends source before rest none
  | unclosed {gap body : Text} (hgap : IsGap ('"' :: body) gap) (hbody : Unclosed body) :
    Ends source before (gap ++ '"' :: body)
      (some (source.unterminated ⟨Position.start.after (before ++ gap), '"' :: body⟩))

/-- **The scan.** Behind `before`, the text of the cursor is the pieces of the tokens and what the scan
ends with. -/
theorem scan_pieces (source : Source) (cursor : Cursor) (before : Text)
    (hplace : cursor.position = Position.start.after before) :
    ∃ pieces rest, Piece.texts pieces ++ rest = cursor.rest ∧
      pieces.map Piece.token = (source.scan cursor).1 ∧
      Piece.EachSits source.file before pieces rest ∧
      source.Ends (before ++ Piece.texts pieces) rest (source.scan cursor).2 := by
  fun_induction scan source cursor generalizing before with
  | case1 cursor diagnostic hnext =>
    obtain ⟨gap, body, hgap, hsplit, rfl⟩ := next_eq_error.1 hnext
    have hisGap := (isGap_splitGap cursor.rest).1
    have hrest := append_of_splitGap hgap
    rw [hgap] at hisGap
    refine ⟨[], gap ++ '"' :: body, hrest, rfl, by simp [Piece.EachSits], ?_⟩
    rw [hplace, ← Position.after_append]
    simpa [Piece.texts] using Ends.unclosed hisGap (unclosed_splitString hsplit)
  | case2 cursor hnext =>
    have hisGap := (isGap_splitGap cursor.rest).1
    have hrest := splitGap_append false cursor.rest
    rw [next_eq_none.1 hnext] at hisGap hrest
    rw [List.append_nil] at hrest
    rw [hrest] at hisGap
    exact ⟨[], cursor.rest, rfl, rfl, by simp [Piece.EachSits], .gap hisGap⟩
  | case3 cursor token behind hnext rest ih =>
    obtain ⟨gap, text, lead, hgap, hlead, rfl, rfl⟩ := leads_of_next hnext
    have hisGap := (isGap_splitGap cursor.rest).1
    rw [hgap] at hisGap
    have hbehind : (cursor.position.after gap).after lead.written =
        Position.start.after (before ++ (gap ++ lead.written)) := by
      rw [hplace, Position.after_append, Position.after_append]
    obtain ⟨pieces, last, htexts, htokens, hsits, hends⟩ := ih _ hbehind
    have htexts : Piece.texts pieces ++ last = lead.rest := htexts
    have hlocation : source.locate (cursor.position.after gap) =
        .behind source.file (before ++ gap) := by
      rw [hplace, ← Position.after_append, locate_after]
    have hpiece : Piece.Sits source.file before (Piece.texts pieces ++ last)
        ⟨gap, lead.written, ⟨lead.kind, lead.content,
          source.locate (cursor.position.after gap)⟩⟩ := by
      rw [htexts]
      refine ⟨?_, hlead.writtenAs _, hlocation⟩
      show IsGap (lead.written ++ lead.rest) gap
      rw [hlead.append]
      exact hisGap
    refine ⟨_, last, ?_, ?_, Piece.eachSits_cons hpiece hsits, ?_⟩
    · rw [← append_of_splitGap hgap, ← hlead.append, ← htexts]
      simp [Piece.texts, Piece.text]
    · rw [List.map_cons, htokens]
    · simpa [Piece.texts, Piece.text] using hends

theorem scan_partition (source : Source) :
    ∃ pieces rest, source.Partition pieces rest ∧
      pieces.map Piece.token = (source.scan source.start).1 ∧
      source.Ends (Piece.texts pieces) rest (source.scan source.start).2 := by
  obtain ⟨pieces, rest, htexts, htokens, hsits, hends⟩ := source.scan_pieces source.start [] rfl
  exact ⟨pieces, rest, ⟨htexts, hsits⟩, htokens, hends⟩

theorem partition_of_tokens {source : Source} {tokens : List Token}
    (h : source.tokens = .ok tokens) :
    ∃ pieces last, source.Partition pieces last ∧ pieces.map Piece.token = tokens ∧
      IsGap [] last := by
  obtain ⟨pieces, rest, hpartition, htokens, hends⟩ := source.scan_partition
  rw [tokens_eq_ok.1 h] at htokens hends
  cases hends with
  | gap hgap => exact ⟨pieces, rest, hpartition, htokens, hgap⟩

end Source

/-- **Tokenizing loses and invents nothing.** A source whose tokens can be read is gaps and lexemes in
turn, one lexeme for each token in order, with a gap behind the last. The token is written as its
lexeme; it lies on the line and in the column of the first character of the lexeme, both counted
from one over the text in front. -/
theorem tokens_partition {source : Source} {tokens : List Token}
    (h : source.tokens = .ok tokens) :
    ∃ (pieces : List Piece) (last : Text), pieces.map Piece.token = tokens ∧
      Piece.texts pieces ++ last = source.text ∧ IsGap [] last ∧
      ∀ earlier piece later, pieces = earlier ++ piece :: later →
        ∃ before after, before = Piece.texts earlier ++ piece.gap ∧
          after = Piece.texts later ++ last ∧
          source.text = before ++ piece.lexeme ++ after ∧
          IsGap (piece.lexeme ++ after) piece.gap ∧ piece.token.WrittenAs after piece.lexeme ∧
          piece.token.location = ⟨source.file, (1 + before.count '\n' : Nat),
            (1 + (before.rtakeWhile (· ≠ '\n')).length : Nat)⟩ := by
  obtain ⟨pieces, last, hpartition, htokens, hlast⟩ := Source.partition_of_tokens h
  refine ⟨pieces, last, htokens, hpartition.text, hlast, ?_⟩
  intro earlier piece later hsplit
  have hsits := hpartition.pieces earlier piece later hsplit
  refine ⟨_, _, rfl, rfl, ?_, hsits.gap, hsits.lexeme, hsits.location⟩
  rw [← hpartition.text, hsplit]
  simp [Piece.texts, Piece.text]

/-- A quote inside a word and in a comment, and a string with a newline, an escaped quote and a
semicolon, to which a word is glued. -/
def Source.tangled : Source :=
  ⟨"t.asm".toList, "A\"b,;\" no\n\"x\n\\\";\\n\"HALT ;end".toList⟩

theorem tokens_partition_tangled :
    ∃ (pieces : List Piece) (last : Text),
      pieces.map Piece.token = [⟨.label, "A\"b".toList, ⟨"t.asm".toList, 1, 1⟩⟩,
        ⟨.string, "\"x\n\";\n\"".toList, ⟨"t.asm".toList, 2, 1⟩⟩,
        ⟨.operator, "HALT".toList, ⟨"t.asm".toList, 3, 7⟩⟩] ∧
      Piece.texts pieces ++ last = Source.tangled.text ∧ IsGap [] last := by
  have htokens : Source.tangled.tokens = .ok [⟨.label, "A\"b".toList, ⟨"t.asm".toList, 1, 1⟩⟩,
      ⟨.string, "\"x\n\";\n\"".toList, ⟨"t.asm".toList, 2, 1⟩⟩,
      ⟨.operator, "HALT".toList, ⟨"t.asm".toList, 3, 7⟩⟩] := by
    decide +kernel
  obtain ⟨pieces, last, hpieces, htext, hlast, -⟩ := tokens_partition htokens
  exact ⟨pieces, last, hpieces, htext, hlast⟩

end LittleComputer
