import LittleComputer.Proofs.Lexical
import Mathlib.Tactic

/-! # Scanning from any place

The lexer looks at the text behind its cursor alone. The place of the cursor only says where the
tokens lie, so a text can be scanned piece by piece.

* `Leads`: the lexeme that a text starts with. `Source.next_of_leads` and `Source.leads_of_next`
  say one step of the lexer with it.
* `Source.scan_separator`, `Source.scan_leads`: a separator is skipped, a lexeme is delivered.
* `Source.scan_moved`: the same text in another place and file.
* `Source.scan_joined`, `Source.tokens_joined`: two texts with a newline between them. The newline
  ends a word and a comment, and no string is open there.
-/

namespace LittleComputer
set_option autoImplicit false

/-! ## Lexemes at the head of a text -/

/-- A lexeme at the head of a text: the kind and the content of its token, how it is written, and
the text that follows. -/
structure Lead where
  kind : TokenKind
  content : Text
  written : Text
  rest : Text

inductive Leads : Text → Lead → Prop
  | string {body : Text} {split : StringSplit} (h : splitString body = some split) :
    Leads ('"' :: body) ⟨.string, '"' :: split.content, '"' :: split.lexeme, split.rest⟩
  | word {c : Char} {rest : Text} (hword : isWordChar c = true) (hquote : c ≠ '"') :
    Leads (c :: rest)
      ⟨.ofWord ((c :: rest).takeWhile isWordChar), (c :: rest).takeWhile isWordChar,
        (c :: rest).takeWhile isWordChar, (c :: rest).dropWhile isWordChar⟩

theorem Text.isBlank_eq_false {c : Char} (hlow : 0x20 < c.toNat) (hhigh : c.toNat < 0x85) :
    Text.isBlank c = false := by
  simp only [isBlank, inRanges, blankRanges, List.any_eq_false, List.mem_cons, List.not_mem_nil,
    or_false, Bool.and_eq_true, decide_eq_true_eq]
  rintro range (rfl | rfl | rfl | rfl | rfl | rfl | rfl | rfl | rfl | rfl) <;> omega

theorem isWordChar_of_isSeparator {c : Char} (h : isSeparator c = true) : isWordChar c = false := by
  simp [isWordChar, h]

theorem splitGap_separator {c : Char} (h : isSeparator c = true) (rest : Text) :
    splitGap false (c :: rest) = (c :: (splitGap false rest).1, (splitGap false rest).2) := by
  have hsemicolon : (c == ';') = false := by
    refine beq_eq_false_iff_ne.2 ?_
    rintro rfl
    revert h
    decide
  simp [splitGap, isWordChar_of_isSeparator h, hsemicolon]

theorem splitGap_word {c : Char} (h : isWordChar c = true) (rest : Text) :
    splitGap false (c :: rest) = ([], c :: rest) := by
  simp [splitGap, h]

theorem append_of_splitGap {inComment : Bool} {text gap rest : Text}
    (h : splitGap inComment text = (gap, rest)) : gap ++ rest = text := by
  have happend := splitGap_append inComment text
  rw [h] at happend
  exact happend

/-- Whatever a gap ends in, a newline behind it leaves no comment open. -/
theorem splitGap_joined (inComment : Bool) (text tail : Text) :
    splitGap inComment (text ++ '\n' :: tail) =
      if (splitGap inComment text).2 = [] then
        (text ++ '\n' :: (splitGap false tail).1, (splitGap false tail).2)
      else ((splitGap inComment text).1, (splitGap inComment text).2 ++ '\n' :: tail) := by
  induction text generalizing inComment with
  | nil =>
    have hnewline : isWordChar '\n' = false := by decide
    simp [splitGap, hnewline]
  | cons c rest ih =>
    rw [List.cons_append, splitGap, splitGap]
    by_cases hgap : (inComment || !isWordChar c) = true
    · rw [if_pos hgap, if_pos hgap]
      simp only [ih]
      split <;> rfl
    · rw [if_neg hgap, if_neg hgap, if_neg (List.cons_ne_nil c rest)]
      rfl

/-- The characters of a string are plain, or behind a backslash. -/
theorem splitString_plain {c : Char} {rest : Text} (hquote : c = '"' → False)
    (hend : c = '\\' → rest = [] → False)
    (hescape : ∀ (d : Char) (tail : Text), c = '\\' → rest = d :: tail → False) :
    c ≠ '"' ∧ c ≠ '\\' := by
  refine ⟨hquote, ?_⟩
  intro hc
  cases rest with
  | nil => exact hend hc rfl
  | cons d tail => exact hescape d tail hc rfl

theorem splitString_joined {text : Text} {split : StringSplit} (h : splitString text = some split)
    (tail : Text) :
    splitString (text ++ tail) = some { split with rest := split.rest ++ tail } := by
  fun_induction splitString text generalizing split with
  | case1 => simp at h
  | case2 rest => cases h; rfl
  | case3 => simp at h
  | case4 c rest ih =>
    obtain ⟨inner, hinner, rfl⟩ := Option.map_eq_some_iff.1 h
    simp only [List.cons_append, splitString, ih hinner, Option.map_some]
  | case5 c rest hquote hend hescape ih =>
    obtain ⟨inner, hinner, rfl⟩ := Option.map_eq_some_iff.1 h
    obtain ⟨-, hbackslash⟩ := splitString_plain hquote hend hescape
    rw [List.cons_append, splitString.eq_5 _ _ hquote (fun hc _ => hbackslash hc)
      (fun _ _ hc _ => hbackslash hc), ih hinner, Option.map_some]

namespace Leads
variable {text : Text} {lead : Lead}

theorem append (h : Leads text lead) : lead.written ++ lead.rest = text := by
  cases h with
  | string hsplit => exact congrArg (List.cons '"') (splitString_append hsplit)
  | word => exact List.takeWhile_append_dropWhile

theorem splitGap_eq (h : Leads text lead) : splitGap false text = ([], text) := by
  cases h with
  | string => exact splitGap_word (by decide) _
  | word hword => exact splitGap_word hword _

/-- A run of word characters that ends where no word character follows. -/
theorem of_word {word rest : Text} (hne : word ≠ []) (hword : ∀ c ∈ word, isWordChar c = true)
    (hquote : word.head? ≠ some '"') (hrest : ∀ c ∈ rest.head?, isWordChar c = false) :
    Leads (word ++ rest) ⟨.ofWord word, word, word, rest⟩ := by
  have hend : rest.takeWhile isWordChar = [] ∧ rest.dropWhile isWordChar = rest := by
    cases rest with
    | nil => exact ⟨rfl, rfl⟩
    | cons d rest =>
      have hd : ¬ isWordChar d = true := by simp [hrest d rfl]
      exact ⟨List.takeWhile_cons_of_neg hd, List.dropWhile_cons_of_neg hd⟩
  have htake : (word ++ rest).takeWhile isWordChar = word := by
    rw [List.takeWhile_append_of_pos hword, hend.1, List.append_nil]
  have hdrop : (word ++ rest).dropWhile isWordChar = rest := by
    rw [List.dropWhile_append_of_pos hword, hend.2]
  cases word with
  | nil => exact absurd rfl hne
  | cons c word =>
    have hlead : Leads (c :: (word ++ rest)) _ :=
      .word (hword c List.mem_cons_self) fun hc => hquote (congrArg some hc)
    rw [← List.cons_append, htake, hdrop] at hlead
    exact hlead

theorem joined (h : Leads text lead) (tail : Text) :
    Leads (text ++ '\n' :: tail) { lead with rest := lead.rest ++ '\n' :: tail } := by
  cases h with
  | string hsplit => exact .string (splitString_joined hsplit _)
  | @word c rest hword hquote =>
    have hsplit : (c :: rest).takeWhile isWordChar ++ (c :: rest).dropWhile isWordChar =
        c :: rest :=
      List.takeWhile_append_dropWhile
    have hend : ∀ d ∈ ((c :: rest).dropWhile isWordChar ++ '\n' :: tail).head?,
        isWordChar d = false := by
      intro d hd
      have hstop := List.head?_dropWhile_not isWordChar (c :: rest)
      cases hdrop : (c :: rest).dropWhile isWordChar with
      | nil =>
        rw [hdrop] at hd
        cases hd
        decide
      | cons e rest =>
        rw [hdrop] at hd hstop
        cases hd
        exact hstop
    have hne : (c :: rest).takeWhile isWordChar ≠ [] := by
      rw [List.takeWhile_cons_of_pos hword]
      exact List.cons_ne_nil _ _
    have hhead : ((c :: rest).takeWhile isWordChar).head? ≠ some '"' := by
      rw [List.takeWhile_cons_of_pos hword]
      exact fun hc => hquote (Option.some.inj hc)
    have hlead := of_word hne (List.all_eq_true.1 List.all_takeWhile) hhead hend
    rw [← List.append_assoc, hsplit] at hlead
    exact hlead

end Leads

/-! ## Positions -/

namespace Position

/-- The position some lines further down. -/
def down (position : Position) (lines : Nat) : Position :=
  ⟨position.line + lines, position.column⟩

theorem after_append (position : Position) (a b : Text) :
    position.after (a ++ b) = (position.after a).after b :=
  List.foldl_append

theorem after_down (position : Position) (lines : Nat) (text : Text) :
    (position.down lines).after text = (position.after text).down lines := by
  induction text generalizing position with
  | nil => rfl
  | cons c rest ih =>
    have hadvance : (position.down lines).advance c = (position.advance c).down lines := by
      unfold advance down
      split
      · simp only [mk.injEq, and_true]
        omega
      · rfl
    show ((position.down lines).advance c).after rest = ((position.advance c).after rest).down lines
    rw [hadvance, ih]

theorem after_line (position : Position) (text : Text) :
    (position.after text).line = position.line + text.count '\n' := by
  induction text generalizing position with
  | nil => rfl
  | cons c rest ih =>
    show ((position.advance c).after rest).line = _
    rw [ih, advance, List.count_cons]
    split
    · next hc =>
      simp only [hc, beq_self_eq_true, if_true]
      omega
    · next hc => simp [hc]

theorem start_after_newline (text : Text) :
    start.after (text ++ ['\n']) = start.down (text.count '\n' + 1) := by
  rw [after_append]
  show (⟨(start.after text).line + 1, 1⟩ : Position) = ⟨1 + (text.count '\n' + 1), 1⟩
  rw [after_line]
  simp only [start, mk.injEq, and_true]
  omega

end Position

/-- The cursor some lines further down, with the same text left. -/
def Cursor.down (cursor : Cursor) (lines : Nat) : Cursor :=
  ⟨cursor.position.down lines, cursor.rest⟩

/-- The token in another file, some lines further down. -/
def Token.moved (file : Text) (lines : Nat) (token : Token) : Token :=
  { token with location := ⟨file, token.location.line + lines, token.location.column⟩ }

namespace Source

/-! ## One step of the lexer -/

theorem next_of_leads (source : Source) (position : Position) {rest gap text : Text} {lead : Lead}
    (hgap : splitGap false rest = (gap, text)) (h : Leads text lead) :
    source.next ⟨position, rest⟩ = .ok (some
      (⟨lead.kind, lead.content, source.locate (position.after gap)⟩,
        ⟨(position.after gap).after lead.written, lead.rest⟩)) := by
  cases h with
  | string hsplit => simp only [next, hgap, hsplit]
  | @word c rest hword hquote =>
    simp only [next, hgap]

theorem leads_of_next {source : Source} {cursor behind : Cursor} {token : Token}
    (h : source.next cursor = .ok (some (token, behind))) :
    ∃ gap text lead, splitGap false cursor.rest = (gap, text) ∧ Leads text lead ∧
      token = ⟨lead.kind, lead.content, source.locate (cursor.position.after gap)⟩ ∧
      behind = ⟨(cursor.position.after gap).after lead.written, lead.rest⟩ := by
  have hlead : ∃ lead, Leads (splitGap false cursor.rest).2 lead := by
    rcases next_cases h with ⟨body, split, hbody, hsplit, -⟩ | ⟨c, rest, hrest, hquote, -⟩
    · rw [hbody]
      exact ⟨_, .string hsplit⟩
    · rw [hrest]
      exact ⟨_, .word (isWordChar_of_splitGap hrest) hquote⟩
  obtain ⟨lead, hlead⟩ := hlead
  cases h.symm.trans (next_of_leads source cursor.position rfl hlead)
  exact ⟨_, _, lead, rfl, hlead, rfl, rfl⟩

theorem next_eq_none {source : Source} {cursor : Cursor} :
    source.next cursor = .ok none ↔ (splitGap false cursor.rest).2 = [] := by
  constructor
  · intro h
    rw [next] at h
    split at h
    · assumption
    · split at h <;> cases h
    · cases h
  · intro h
    simp only [next, h]

/-- A step fails at a string that is opened and not closed. -/
theorem next_eq_error {source : Source} {cursor : Cursor} {diagnostic : Diagnostic} :
    source.next cursor = .error diagnostic ↔
      ∃ gap body, splitGap false cursor.rest = (gap, '"' :: body) ∧ splitString body = none ∧
        diagnostic = source.unterminated ⟨cursor.position.after gap, '"' :: body⟩ := by
  constructor
  · intro h
    rw [next] at h
    split at h
    · cases h
    · next body hbody =>
      split at h
      · next hsplit =>
        cases h
        exact ⟨(splitGap false cursor.rest).1, body, by rw [← hbody], hsplit, rfl⟩
      · cases h
    · cases h
  · rintro ⟨gap, body, hgap, hsplit, rfl⟩
    simp only [next, hgap, hsplit]

/-! ## All tokens behind a cursor -/

theorem scan_eq (source : Source) (cursor : Cursor) :
    source.scan cursor =
      match source.next cursor with
      | .error diagnostic => ([], some diagnostic)
      | .ok none => ([], none)
      | .ok (some (token, behind)) =>
        (token :: (source.scan behind).1, (source.scan behind).2) := by
  rw [scan]
  split <;> next hnext => rw [hnext]

theorem scan_separator (source : Source) {c : Char} (h : isSeparator c = true) (position : Position)
    (rest : Text) :
    source.scan ⟨position, c :: rest⟩ = source.scan ⟨position.advance c, rest⟩ := by
  have hnext : source.next ⟨position, c :: rest⟩ = source.next ⟨position.advance c, rest⟩ := by
    simp only [next, splitGap_separator h]
    rfl
  rw [scan_eq, hnext, ← scan_eq]

theorem scan_leads (source : Source) {text : Text} {lead : Lead} (h : Leads text lead)
    (position : Position) :
    source.scan ⟨position, text⟩ =
      (⟨lead.kind, lead.content, source.locate position⟩ ::
          (source.scan ⟨position.after lead.written, lead.rest⟩).1,
        (source.scan ⟨position.after lead.written, lead.rest⟩).2) := by
  rw [scan_eq, next_of_leads source position h.splitGap_eq h]
  rfl

/-- The place and the file of a text only say where its tokens lie, and where a string is opened
that is not closed. What is left there is an end of what was left before. -/
theorem scan_moved (source other : Source) (cursor : Cursor) (lines : Nat) :
    ∃ stop : Option Cursor, (source.scan cursor).2 = stop.map source.unterminated ∧
      (∀ quote ∈ stop, quote.rest <:+ cursor.rest) ∧
      other.scan (cursor.down lines) =
        ((source.scan cursor).1.map (Token.moved other.file lines),
          stop.map fun quote => other.unterminated (quote.down lines)) := by
  fun_induction scan source cursor with
  | case1 cursor diagnostic hnext =>
    obtain ⟨gap, body, hgap, hsplit, rfl⟩ := next_eq_error.1 hnext
    have hother : other.next (cursor.down lines) =
        .error (other.unterminated ⟨(cursor.position.down lines).after gap, '"' :: body⟩) :=
      next_eq_error.2 ⟨gap, body, hgap, hsplit, rfl⟩
    rw [Position.after_down] at hother
    refine ⟨some ⟨cursor.position.after gap, '"' :: body⟩, rfl, ?_, ?_⟩
    · rintro quote ⟨⟩
      exact ⟨gap, append_of_splitGap hgap⟩
    · rw [scan_eq, hother]
      rfl
  | case2 cursor hnext =>
    have hrest : (splitGap false cursor.rest).2 = [] := next_eq_none.1 hnext
    have hother : other.next (cursor.down lines) = .ok none := next_eq_none.2 hrest
    refine ⟨none, rfl, by simp, ?_⟩
    rw [scan_eq, hother]
    rfl
  | case3 cursor token behind hnext rest ih =>
    obtain ⟨gap, text, lead, hgap, hlead, rfl, rfl⟩ := leads_of_next hnext
    obtain ⟨stop, hstop, hsuffix, hscan⟩ := ih
    have hother : other.next (cursor.down lines) = _ :=
      next_of_leads other (cursor.position.down lines) hgap hlead
    rw [Position.after_down, Position.after_down] at hother
    refine ⟨stop, hstop, ?_, ?_⟩
    · intro quote hquote
      have hleft : lead.rest <:+ cursor.rest :=
        ⟨gap ++ lead.written, by rw [List.append_assoc, hlead.append, append_of_splitGap hgap]⟩
      exact (hsuffix quote hquote).trans hleft
    · rw [scan_eq, hother]
      simp only [Cursor.down] at hscan
      simp only [hscan, List.map_cons]
      rfl

/-- Behind a text that leaves no string open and a newline, the scan goes on as from a fresh
start. -/
theorem scan_joined {source : Source} {cursor : Cursor} (other : Source) (tail : Text)
    (h : (source.scan cursor).2 = none) :
    other.scan ⟨cursor.position, cursor.rest ++ '\n' :: tail⟩ =
      ((source.scan cursor).1.map (Token.moved other.file 0) ++
          (other.scan ⟨cursor.position.after (cursor.rest ++ ['\n']), tail⟩).1,
        (other.scan ⟨cursor.position.after (cursor.rest ++ ['\n']), tail⟩).2) := by
  fun_induction scan source cursor with
  | case1 cursor diagnostic hnext => cases h
  -- only a gap is left of the first text, and it goes on behind the newline
  | case2 cursor hnext =>
    have hgap := splitGap_joined false cursor.rest tail
    rw [if_pos (next_eq_none.1 hnext)] at hgap
    have hskip : other.next ⟨cursor.position, cursor.rest ++ '\n' :: tail⟩ =
        other.next ⟨cursor.position.after (cursor.rest ++ ['\n']), tail⟩ := by
      have hafter : cursor.position.after (cursor.rest ++ '\n' :: (splitGap false tail).1) =
          (cursor.position.after (cursor.rest ++ ['\n'])).after (splitGap false tail).1 := by
        rw [← Position.after_append, List.append_assoc]
        rfl
      simp only [next, hgap, hafter]
    rw [scan_eq, hskip, ← scan_eq]
    rfl
  | case3 cursor token behind hnext rest ih =>
    obtain ⟨gap, text, lead, hsplit, hlead, rfl, rfl⟩ := leads_of_next hnext
    have hne : text ≠ [] := by
      rintro rfl
      cases hlead
    have hgap := splitGap_joined false cursor.rest tail
    rw [hsplit, if_neg hne] at hgap
    have hother := next_of_leads other cursor.position hgap (hlead.joined tail)
    have hafter : ((cursor.position.after gap).after lead.written).after (lead.rest ++ ['\n']) =
        cursor.position.after (cursor.rest ++ ['\n']) := by
      rw [← append_of_splitGap hsplit, ← hlead.append]
      simp only [← Position.after_append, List.append_assoc]
    rw [scan_eq, hother]
    simp only [ih h, hafter, List.map_cons, Token.moved, locate, Nat.cast_zero, Int.add_zero]
    rfl

theorem tokens_eq_ok {source : Source} {tokens : List Token} :
    source.tokens = .ok tokens ↔ source.scan source.start = (tokens, none) := by
  unfold Source.tokens
  split
  · next heq => simp [heq]
  · next heq => simp [heq]

theorem tokens_eq_error {source : Source} {diagnostic : Diagnostic} :
    source.tokens = .error diagnostic ↔ (source.scan source.start).2 = some diagnostic := by
  unfold Source.tokens
  split
  · next heq => simp [heq]
  · next heq => simp [heq]

/-- The scan of two texts with a newline between them, the first of which leaves no string open. -/
theorem scan_start_joined {p : Source} {ts : List Token} (hp : p.tokens = .ok ts) (q : Source)
    (file : Text) :
    ∃ stop : Option Cursor, (q.scan q.start).2 = stop.map q.unterminated ∧
      (∀ quote ∈ stop, quote.rest <:+ q.text) ∧
      (⟨file, p.text ++ '\n' :: q.text⟩ : Source).scan ⟨.start, p.text ++ '\n' :: q.text⟩ =
        (ts.map (Token.moved file 0) ++
            (q.scan q.start).1.map (Token.moved file (p.text.count '\n' + 1)),
          stop.map fun quote => (⟨file, p.text ++ '\n' :: q.text⟩ : Source).unterminated
            (quote.down (p.text.count '\n' + 1))) := by
  have hp := tokens_eq_ok.1 hp
  have hjoined := scan_joined ⟨file, p.text ++ '\n' :: q.text⟩ q.text (congrArg Prod.snd hp)
  obtain ⟨stop, hstop, hsuffix, hmoved⟩ := scan_moved q ⟨file, p.text ++ '\n' :: q.text⟩ q.start
    (p.text.count '\n' + 1)
  have hplace : p.start.position.after (p.start.rest ++ ['\n']) =
      q.start.position.down (p.text.count '\n' + 1) :=
    Position.start_after_newline p.text
  rw [hp, hplace] at hjoined
  have hmoved : Source.scan ⟨file, p.text ++ '\n' :: q.text⟩
      ⟨q.start.position.down (p.text.count '\n' + 1), q.text⟩ = _ := hmoved
  rw [hmoved] at hjoined
  exact ⟨stop, hstop, hsuffix, hjoined⟩

theorem tokens_joined {p q : Source} {ts us : List Token} (hp : p.tokens = .ok ts)
    (hq : q.tokens = .ok us) (file : Text) :
    (⟨file, p.text ++ '\n' :: q.text⟩ : Source).tokens =
      .ok (ts.map (Token.moved file 0) ++
        us.map (Token.moved file (p.text.count '\n' + 1))) := by
  obtain ⟨stop, hstop, -, hscan⟩ := scan_start_joined hp q file
  rw [tokens_eq_ok.1 hq] at hstop hscan
  rw [Option.map_eq_none_iff.1 hstop.symm] at hscan
  exact tokens_eq_ok.2 hscan

end Source

end LittleComputer
