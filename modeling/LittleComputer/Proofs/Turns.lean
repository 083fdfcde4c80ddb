import LittleComputer.Proofs.Partition
import Mathlib.Tactic

/-! # The turns of the lexer

The lexer can be told as a loop. In each turn the scanners for strings, separators, comments and
words are tried in order, and the first that takes anything ends the turn. A character that no
scanner takes would be unrecognized; there is none.

* `Scan`: what a scanner does. `Scan.turn` tries all of them.
* `Scan.turn_cases`: a turn takes a gap or a lexeme, or stands in front of a string that is not
  closed.
* `Source.turns`: the loop with a bound on the turns. `Source.turns_eq` says that the length of the
  text is bound enough and that the loop delivers what the scan does.
-/

namespace LittleComputer
set_option autoImplicit false

/-! ## Gaps -/

theorem splitGap_comment {body rest : Text} (hbody : '\n' ∉ body)
    (hrest : ∀ c ∈ rest.head?, c = '\n') :
    splitGap true (body ++ rest) = (body ++ (splitGap false rest).1, (splitGap false rest).2) := by
  induction body with
  | nil =>
    cases rest with
    | nil => rfl
    | cons c rest =>
      obtain rfl := hrest c rfl
      have hnewline : isWordChar '\n' = false := by decide
      simp [splitGap, hnewline]
  | cons c body ih =>
    rw [List.mem_cons, not_or] at hbody
    have hne : (c != '\n') = true := bne_iff_ne.2 (Ne.symm hbody.1)
    simp [splitGap, hne, ih hbody.2]

/-- A gap is taken off whatever follows it. -/
theorem IsGap.splitGap_append {after gap : Text} (h : IsGap after gap) :
    splitGap false (gap ++ after) =
      (gap ++ (splitGap false after).1, (splitGap false after).2) := by
  induction h with
  | nil => rfl
  | separator hc _ ih =>
    rw [List.cons_append, splitGap_separator (isSeparator_iff.2 hc), ih]
    rfl
  | comment hbody hend _ ih =>
    have hword : isWordChar ';' = false := by decide
    have hopen : ∀ rest, splitGap false (';' :: rest) =
        (';' :: (splitGap true rest).1, (splitGap true rest).2) := by
      intro rest
      simp [splitGap, hword]
    rw [List.cons_append, List.append_assoc, hopen, splitGap_comment hbody hend, ih]
    simp

theorem Source.next_gap (source : Source) {after gap : Text} (h : IsGap after gap)
    (position : Position) :
    source.next ⟨position, gap ++ after⟩ = source.next ⟨position.after gap, after⟩ := by
  simp only [next, h.splitGap_append, Position.after_append]

theorem Source.next_unclosed (source : Source) {body : Text} (h : splitString body = none)
    (position : Position) :
    source.next ⟨position, '"' :: body⟩ =
      .error (source.unterminated ⟨position, '"' :: body⟩) :=
  next_eq_error.2 ⟨[], body, splitGap_word (by decide) body, h, rfl⟩

theorem Source.scan_gap (source : Source) {after gap : Text} (h : IsGap after gap)
    (position : Position) :
    source.scan ⟨position, gap ++ after⟩ = source.scan ⟨position.after gap, after⟩ := by
  rw [scan_eq, source.next_gap h, ← scan_eq]

theorem Source.scan_unclosed (source : Source) {body : Text} (h : splitString body = none)
    (position : Position) :
    source.scan ⟨position, '"' :: body⟩ =
      ([], some (source.unterminated ⟨position, '"' :: body⟩)) := by
  rw [scan_eq, source.next_unclosed h]

theorem isGap_separators {gap : Text} (h : ∀ c ∈ gap, isSeparator c = true) (after : Text) :
    IsGap after gap := by
  induction gap with
  | nil => exact .nil
  | cons c gap ih =>
    exact .separator (isSeparator_iff.1 (h c List.mem_cons_self))
      (ih fun d hd => h d (List.mem_cons_of_mem c hd))

theorem isGap_comment (text : Text) :
    IsGap (text.dropWhile (· ≠ '\n')) (';' :: text.takeWhile (· ≠ '\n')) := by
  have hbody : '\n' ∉ text.takeWhile (· ≠ '\n') := by
    intro hmem
    have hne := List.all_eq_true.1 List.all_takeWhile '\n' hmem
    simp at hne
  have hend : ∀ c ∈ (text.dropWhile (· ≠ '\n')).head?, c = '\n' := by
    intro c hc
    have hstop := List.head?_dropWhile_not (· ≠ '\n') text
    rw [Option.mem_def.1 hc] at hstop
    simpa using hstop
  have hcomment : IsGap (text.dropWhile (· ≠ '\n')) (';' :: (text.takeWhile (· ≠ '\n') ++ [])) :=
    .comment hbody hend .nil
  rwa [List.append_nil] at hcomment

theorem Leads.written_ne_nil {text : Text} {lead : Lead} (h : Leads text lead) :
    lead.written ≠ [] := by
  cases h with
  | string => exact List.cons_ne_nil _ _
  | word hword =>
    dsimp only
    rw [List.takeWhile_cons_of_pos hword]
    exact List.cons_ne_nil _ _

/-! ## Scanners -/

/-- What a scanner does with the text in front of it: it leaves it alone, it takes a part of it,
which may be the lexeme of a token, or it fails. -/
inductive Scan where
  | idle
  | took (token : Option (TokenKind × Text)) (written rest : Text)
  | failed

namespace Scan

/-- Takes a run of characters, unless it is empty. -/
def run (belongs : Char → Bool) (token : Text → Option (TokenKind × Text)) (text : Text) : Scan :=
  match text.takeWhile belongs with
  | [] => idle
  | c :: written => took (token (c :: written)) (c :: written) (text.dropWhile belongs)

def string : Text → Scan
  | '"' :: body =>
    match splitString body with
    | none => failed
    | some split => took (some (.string, '"' :: split.content)) ('"' :: split.lexeme) split.rest
  | _ => idle

def separators : Text → Scan :=
  run isSeparator fun _ => none

def comment : Text → Scan
  | ';' :: text => run (· ≠ '\n') (fun _ => none) (';' :: text)
  | _ => idle

def word : Text → Scan :=
  run isWordChar fun word => some (.ofWord word, word)

/-- A second scanner is tried where the first leaves the text alone. -/
def orElse : Scan → Scan → Scan
  | idle, later => later
  | scan, _ => scan

/-- One turn: the scanners in order. It is idle when no scanner takes the character in front. -/
def turn (text : Text) : Scan :=
  (string text).orElse ((separators text).orElse ((comment text).orElse (word text)))

theorem run_cons {belongs : Char → Bool} {c : Char} (h : belongs c = true)
    (token : Text → Option (TokenKind × Text)) (text : Text) :
    run belongs token (c :: text) = took (token ((c :: text).takeWhile belongs))
      ((c :: text).takeWhile belongs) ((c :: text).dropWhile belongs) := by
  simp only [run, List.takeWhile_cons_of_pos h]

theorem run_cons_idle {belongs : Char → Bool} {c : Char} (h : belongs c = false)
    (token : Text → Option (TokenKind × Text)) (text : Text) :
    run belongs token (c :: text) = idle := by
  simp only [run, List.takeWhile_cons_of_neg (Bool.eq_false_iff.1 h)]

/-- What a turn can do: it fails at a string that is not closed, it takes the lexeme of a token, or
it takes a part of a gap. -/
inductive Turns (text : Text) : Scan → Prop
  | failed {body : Text} (htext : text = '"' :: body) (hsplit : splitString body = none) :
    Turns text .failed
  | lexeme {lead : Lead} (hlead : Leads text lead) :
    Turns text (.took (some (lead.kind, lead.content)) lead.written lead.rest)
  | gap {gap after : Text} (htext : text = gap ++ after) (hne : gap ≠ []) (hgap : IsGap after gap) :
    Turns text (.took none gap after)

theorem turn_cases {text : Text} (h : text ≠ []) : Turns text (turn text) := by
  obtain ⟨c, rest, rfl⟩ := List.exists_cons_of_ne_nil h
  by_cases hquote : c = '"'
  · subst hquote
    cases hsplit : splitString rest with
    | none =>
      simp only [turn, string, hsplit, orElse]
      exact .failed rfl hsplit
    | some split =>
      simp only [turn, string, hsplit, orElse]
      exact .lexeme (.string hsplit)
  have hstring : string (c :: rest) = idle := by
    unfold string
    split
    · next heq => exact absurd (List.cons.inj heq).1 hquote
    · rfl
  by_cases hseparator : isSeparator c = true
  · have hturn : turn (c :: rest) = took none ((c :: rest).takeWhile isSeparator)
        ((c :: rest).dropWhile isSeparator) := by
      simp only [turn, hstring, separators, run_cons hseparator, orElse]
    rw [hturn]
    refine .gap List.takeWhile_append_dropWhile.symm ?_
      (isGap_separators (List.all_eq_true.1 List.all_takeWhile) _)
    rw [List.takeWhile_cons_of_pos hseparator]
    exact List.cons_ne_nil _ _
  have hseparators : separators (c :: rest) = idle :=
    run_cons_idle (Bool.eq_false_iff.2 hseparator) _ _
  by_cases hsemicolon : c = ';'
  · subst hsemicolon
    have hturn : turn (';' :: rest) = took none (';' :: rest.takeWhile (· ≠ '\n'))
        (rest.dropWhile (· ≠ '\n')) := by
      simp only [turn, hstring, hseparators, comment, orElse]
      rw [run_cons (by decide), List.takeWhile_cons_of_pos (by decide),
        List.dropWhile_cons_of_pos (by decide)]
    rw [hturn]
    refine .gap ?_ (List.cons_ne_nil _ _) (isGap_comment rest)
    rw [List.cons_append, List.takeWhile_append_dropWhile]
  · have hword : isWordChar c = true := by
      simp [isWordChar, Bool.eq_false_iff.2 hseparator, hsemicolon]
    have hcomment : comment (c :: rest) = idle := by
      unfold comment
      split
      · next heq => exact absurd (List.cons.inj heq).1 hsemicolon
      · rfl
    simp only [turn, hstring, hseparators, hcomment, word, run_cons hword, orElse]
    exact .lexeme (.word hword hquote)

end Scan

/-! ## The loop -/

/-- Why the turns end. -/
inductive Stop where
  | ended
  | failed (diagnostic : Diagnostic)
  | unrecognized (c : Char)

/-- The end that a scan reports. -/
def Stop.ofScan : Option Diagnostic → Stop
  | none => .ended
  | some diagnostic => .failed diagnostic

namespace Source

/-- The tokens of the turns behind a cursor and why they end, if at most `count` turns do. -/
def turns (source : Source) : Nat → Cursor → Option (List Token × Stop)
  | _, ⟨_, []⟩ => some ([], .ended)
  | 0, _ => none
  | count + 1, ⟨position, c :: rest⟩ =>
    match Scan.turn (c :: rest) with
    | .idle => some ([], .unrecognized c)
    | .failed => some ([], .failed (source.unterminated ⟨position, c :: rest⟩))
    | .took token written behind => do
      let (tokens, stop) ← source.turns count ⟨position.after written, behind⟩
      some (token.toList.map (fun (kind, content) => ⟨kind, content, source.locate position⟩)
        ++ tokens, stop)

theorem turns_eq (source : Source) {count : Nat} {cursor : Cursor}
    (h : cursor.rest.length ≤ count) :
    source.turns count cursor =
      some ((source.scan cursor).1, .ofScan (source.scan cursor).2) := by
  induction count generalizing cursor with
  | zero =>
    obtain ⟨position, rest⟩ := cursor
    obtain rfl : rest = [] := List.eq_nil_of_length_eq_zero (Nat.le_zero.1 h)
    rw [scan_eq]
    rfl
  | succ count ih =>
    obtain ⟨position, rest⟩ := cursor
    cases rest with
    | nil =>
      rw [scan_eq]
      rfl
    | cons c rest =>
      -- whatever a turn takes, one turn less is enough for what it leaves
      have hshort : ∀ {taken left : Text}, c :: rest = taken ++ left → taken ≠ [] →
          left.length ≤ count := by
        intro taken left htext hne
        have hlength := congrArg List.length htext
        have hpos := List.length_pos_iff.2 hne
        rw [List.length_append] at hlength
        dsimp only at h
        omega
      have hturn := Scan.turn_cases (List.cons_ne_nil c rest)
      generalize hscan : Scan.turn (c :: rest) = scan at hturn
      cases hturn with
      | @failed body htext hsplit =>
        have hopen := source.scan_unclosed hsplit position
        rw [← htext] at hopen
        rw [hopen]
        simp only [turns, hscan]
        rfl
      | @lexeme lead hlead =>
        have hbehind := @ih ⟨position.after lead.written, lead.rest⟩
          (hshort hlead.append.symm hlead.written_ne_nil)
        rw [source.scan_leads hlead]
        simp only [turns, hscan, hbehind]
        rfl
      | @gap gap after htext hne hgap =>
        have hbehind := @ih ⟨position.after gap, after⟩ (hshort htext hne)
        have hsame := source.scan_gap hgap position
        rw [← htext] at hsame
        rw [hsame]
        simp only [turns, hscan, hbehind]
        rfl

end Source

end LittleComputer
