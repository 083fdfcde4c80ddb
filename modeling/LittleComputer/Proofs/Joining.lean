import LittleComputer.Proofs.Scanning
import Mathlib.Data.List.DropRight
import Mathlib.Tactic

/-! # Tokens of joined texts

Behind a text whose tokens can be read and a newline, a second text is read as on its own, only
further down. This includes the report on a string that the second text does not close: it names the
same column and shows the same line of the source.

* `Text.lines_joined`: the lines of the joined text.
* `Text.lineAround_append`: what the search for newlines around a place finds, and
  `Text.lineAround_joined`: it finds the same in the joined text.
* `Text.lines_unlines`: the lines of many texts joined by newlines.
* `joined_tokens_exact`: its tokens, or the report.
-/

namespace LittleComputer
set_option autoImplicit false

/-! ## Lines -/

namespace Text

theorem split_ne_nil (separator : Char) (text : Text) : split separator text ≠ [] := by
  cases text with
  | nil => exact List.cons_ne_nil _ _
  | cons c rest =>
    unfold split
    split
    · exact List.cons_ne_nil _ _
    · split <;> exact List.cons_ne_nil _ _

theorem split_append (separator : Char) (a b : Text) :
    split separator (a ++ separator :: b) = split separator a ++ split separator b := by
  induction a with
  | nil => simp [split]
  | cons c rest ih =>
    by_cases hc : c = separator
    · simp [split, hc, ih]
    · cases hsplit : split separator rest with
      | nil => exact absurd hsplit (split_ne_nil separator rest)
      | cons piece pieces => simp [split, hc, ih, hsplit]

theorem length_split (separator : Char) (text : Text) :
    (split separator text).length = text.count separator + 1 := by
  induction text with
  | nil => rfl
  | cons c rest ih =>
    by_cases hc : c = separator
    · simp [split, hc, ih]
    · cases hsplit : split separator rest with
      | nil => exact absurd hsplit (split_ne_nil separator rest)
      | cons piece pieces =>
        rw [hsplit] at ih
        simpa [split, hc, hsplit] using ih

theorem lines_joined (a b : Text) : lines (a ++ '\n' :: b) = lines a ++ lines b :=
  split_append '\n' a b

theorem lines_unlines {parts : List Text} (h : parts ≠ []) :
    lines (unlines parts) = parts.flatMap lines := by
  induction parts with
  | nil => exact absurd rfl h
  | cons part rest ih =>
    cases rest with
    | nil => exact (List.flatMap_singleton _ _).symm
    | cons next rest =>
      rw [List.flatMap_cons, ← ih (List.cons_ne_nil next rest)]
      exact lines_joined part (unlines (next :: rest))

theorem lines_eq_singleton {text : Text} : lines text = [text] ↔ '\n' ∉ text := by
  constructor
  · intro h
    have hlength := length_split '\n' text
    rw [← lines, h, List.length_singleton] at hlength
    exact List.count_eq_zero.1 (by omega)
  · intro h
    induction text with
    | nil => rfl
    | cons c rest ih =>
      rw [List.mem_cons, not_or] at h
      have hrest : split '\n' rest = [rest] := ih h.2
      rw [lines, split, if_neg (Ne.symm h.1), hrest]

theorem length_flatMap_lines (parts : List Text) :
    (parts.flatMap lines).length = parts.length + (parts.map (List.count '\n')).sum := by
  induction parts with
  | nil => rfl
  | cons part rest ih =>
    have hpart : (lines part).length = part.count '\n' + 1 := length_split '\n' part
    rw [List.flatMap_cons, List.length_append, ih, hpart, List.map_cons, List.sum_cons,
      List.length_cons]
    omega

theorem flatMap_lines_eq_self {parts : List Text} :
    parts.flatMap lines = parts ↔ ∀ part ∈ parts, '\n' ∉ part := by
  constructor
  · intro h part hpart
    have hlength := length_flatMap_lines parts
    rw [h, left_eq_add, List.sum_eq_zero_iff] at hlength
    exact List.count_eq_zero.1 (hlength _ (List.mem_map_of_mem hpart))
  · intro h
    have hlines : parts.flatMap lines = parts.flatMap fun part => [part] :=
      List.flatMap_congr fun part hpart => lines_eq_singleton.2 (h part hpart)
    rw [hlines, List.flatMap_singleton']

/-! ## The line around a place -/

theorem getD_idxOf? (c : Char) (text : Text) :
    (text.idxOf? c).getD text.length = (text.takeWhile (· ≠ c)).length := by
  induction text with
  | nil => rfl
  | cons d rest ih =>
    by_cases hd : d = c
    · simp [List.idxOf?_cons, hd]
    · have hfound : ((rest.idxOf? c).map (· + 1)).getD (rest.length + 1) =
          (rest.idxOf? c).getD rest.length + 1 := by
        cases rest.idxOf? c <;> rfl
      simp [List.idxOf?_cons, hd, hfound, ih]

/-- The search backwards stops where the characters that are no newlines end. -/
theorem lineStart_append (before after : Text) :
    lineStart (before ++ after) before.length =
      before.length - (before.rtakeWhile (· ≠ '\n')).length := by
  have hfound := getD_idxOf? '\n' before.reverse
  rw [lineStart, newlineBefore?, List.take_left, List.rtakeWhile, List.length_reverse, ← hfound,
    List.length_reverse]
  cases hindex : before.reverse.idxOf? '\n' with
  | none => simp
  | some distance =>
    obtain ⟨hlt, -⟩ := List.findIdx?_eq_some_iff_getElem.1 hindex
    rw [List.length_reverse] at hlt
    show before.length - 1 - distance + 1 = before.length - distance
    omega

/-- The search forwards as well. -/
theorem lineEnd_append (before after : Text) :
    lineEnd (before ++ after) before.length =
      before.length + (after.takeWhile (· ≠ '\n')).length := by
  rw [lineEnd, newlineFrom?, List.drop_left, ← getD_idxOf?, List.length_append]
  cases after.idxOf? '\n' <;> rfl

/-- The line around a place reaches from the last newline in front of it to the next one behind
it. -/
theorem lineAround_append (before after : Text) :
    lineAround (before ++ after) before.length =
      before.rtakeWhile (· ≠ '\n') ++ after.takeWhile (· ≠ '\n') := by
  have hstart : before.drop (before.length - (before.rtakeWhile (· ≠ '\n')).length) =
      before.rtakeWhile (· ≠ '\n') :=
    (List.suffix_iff_eq_drop.1 (List.rtakeWhile_suffix _ before)).symm
  have hend : after.take (after.takeWhile (· ≠ '\n')).length = after.takeWhile (· ≠ '\n') :=
    (List.prefix_iff_eq_take.1 (List.takeWhile_prefix _)).symm
  rw [lineAround, lineStart_append, lineEnd_append, List.take_length_add_append, hend,
    List.drop_append_of_le_length (Nat.sub_le _ _), hstart]

theorem rtakeWhile_joined (a b : Text) :
    (a ++ '\n' :: b).rtakeWhile (· ≠ '\n') = b.rtakeWhile (· ≠ '\n') := by
  induction b using List.reverseRecOn with
  | nil => exact List.rtakeWhile_concat_neg _ _ _ (by simp)
  | append_singleton b c ih =>
    rw [← List.cons_append, ← List.append_assoc]
    by_cases hc : c = '\n'
    · rw [List.rtakeWhile_concat_neg _ _ _ (by simp [hc]),
        List.rtakeWhile_concat_neg _ _ _ (by simp [hc])]
    · rw [List.rtakeWhile_concat_pos _ _ _ (by simpa using hc),
        List.rtakeWhile_concat_pos _ _ _ (by simpa using hc), ih]

/-- Text in front of a line does not change it. -/
theorem lineAround_joined (a before after : Text) :
    lineAround (a ++ '\n' :: (before ++ after)) (a ++ '\n' :: before).length =
      lineAround (before ++ after) before.length := by
  have hsplit : a ++ '\n' :: (before ++ after) = (a ++ '\n' :: before) ++ after := by simp
  rw [hsplit, lineAround_append, lineAround_append, rtakeWhile_joined]

end Text

namespace Source

theorem offset_eq (source : Source) {before after : Text} (h : source.text = before ++ after)
    (position : Position) : source.offset ⟨position, after⟩ = before.length := by
  rw [offset, h, List.length_append, Nat.add_sub_cancel]

/-- The report on a string of the second text is the same but for the file and the line. -/
theorem unterminated_joined (p q : Source) (file : Text) {quote : Cursor}
    (h : quote.rest <:+ q.text) (lines : Nat) :
    (⟨file, p.text ++ '\n' :: q.text⟩ : Source).unterminated (quote.down lines) =
      { q.unterminated quote with
        location := some ⟨file, (quote.position.line + lines : Nat), quote.position.column⟩ } := by
  obtain ⟨before, hbefore⟩ := h
  have hjoined : p.text ++ '\n' :: q.text = (p.text ++ '\n' :: before) ++ quote.rest := by
    rw [← hbefore]
    simp
  have hshown := Text.lineAround_joined p.text before quote.rest
  rw [← offset_eq ⟨file, _⟩ hjoined (quote.position.down lines), hbefore,
    ← q.offset_eq hbefore.symm quote.position] at hshown
  simp only [unterminated, Cursor.down, hshown]
  rfl

/-! ## Files -/

theorem scan_file (source : Source) (cursor : Cursor) :
    ∀ token ∈ (source.scan cursor).1, token.location.file = source.file := by
  apply scan_forall (P := fun _ token => token.location.file = source.file)
  · intro cursor behind token hnext
    obtain ⟨gap, text, lead, -, -, rfl, -⟩ := leads_of_next hnext
    rfl
  · intro _ _ _ _ _ ht
    exact ht

theorem tokens_file {source : Source} {tokens : List Token} (h : source.tokens = .ok tokens) :
    ∀ token ∈ tokens, token.location.file = source.file := by
  rw [← scan_of_tokens h]
  exact source.scan_file source.start

theorem map_moved_of_file {file : Text} {tokens : List Token}
    (h : ∀ token ∈ tokens, token.location.file = file) :
    tokens.map (Token.moved file 0) = tokens := by
  refine (List.map_congr_left ?_).trans (List.map_id tokens)
  intro token htoken
  have hfile := h token htoken
  obtain ⟨kind, content, _, line, column⟩ := token
  simp only at hfile
  simp [Token.moved, hfile]

theorem map_moved_zero {source : Source} {tokens : List Token} (h : source.tokens = .ok tokens) :
    tokens.map (Token.moved source.file 0) = tokens :=
  map_moved_of_file (tokens_file h)

end Source

/-! ## Joined texts -/

/-- **Tokens of joined texts.** Behind a source that has tokens and a newline, the tokens of a second
source follow those of the first, as many lines further down as stand in front of them. If the second
has none because it leaves a string open, the report is the one on the second source alone, further
down as well. -/
theorem joined_tokens_exact {p : Source} {ts : List Token} (hp : p.tokens = .ok ts) (q : Source) :
    (∀ us, q.tokens = .ok us →
      (⟨p.file, p.text ++ '\n' :: q.text⟩ : Source).tokens =
        .ok (ts ++ us.map (Token.moved p.file (p.text.count '\n' + 1)))) ∧
      ∀ diagnostic, q.tokens = .error diagnostic →
        ∃ place, diagnostic.location = some place ∧
          (⟨p.file, p.text ++ '\n' :: q.text⟩ : Source).tokens =
            .error { diagnostic with
              location := some ⟨p.file, place.line + (p.text.count '\n' + 1 : Nat),
                place.column⟩ } := by
  constructor
  · intro us hq
    have hjoined := Source.tokens_joined hp hq p.file
    rw [Source.map_moved_zero hp] at hjoined
    exact hjoined
  · intro diagnostic hq
    obtain ⟨stop, hstop, hsuffix, hscan⟩ := Source.scan_start_joined hp q p.file
    rw [Source.tokens_eq_error.1 hq] at hstop
    obtain ⟨quote, rfl, hquote⟩ := Option.map_eq_some_iff.1 hstop.symm
    refine ⟨q.locate quote.position, by rw [← hquote]; rfl, Source.tokens_eq_error.2 ?_⟩
    rw [Source.start, hscan, Option.map_some, ← hquote,
      Source.unterminated_joined p q p.file (hsuffix quote rfl)]
    rfl

/-- A text that ends inside a comment, with a string of two lines in front of it. -/
def Source.commented : Source :=
  ⟨"a.asm".toList, "A .STRINGZ \"x\ny\" ; \"".toList⟩

theorem joined_tokens_exact_commented :
    ∃ ts, Source.commented.tokens = .ok ts ∧
      (⟨"a.asm".toList, Source.commented.text ++ '\n' :: "\n  B HALT".toList⟩ : Source).tokens =
        .ok (ts ++ [⟨.label, "B".toList, ⟨"a.asm".toList, 4, 3⟩⟩,
          ⟨.operator, "HALT".toList, ⟨"a.asm".toList, 4, 5⟩⟩]) ∧
      (⟨"a.asm".toList, Source.commented.text ++ '\n' :: "B\n .STRINGZ \"no\nend".toList⟩ :
          Source).tokens =
        .error ⟨.unterminatedString, some ⟨"a.asm".toList, 4, 11⟩, none,
          some " .STRINGZ \"no".toList⟩ := by
  have hfirst : Source.commented.tokens = .ok [⟨.label, "A".toList, ⟨"a.asm".toList, 1, 1⟩⟩,
      ⟨.operator, ".STRINGZ".toList, ⟨"a.asm".toList, 1, 3⟩⟩,
      ⟨.string, "\"x\ny\"".toList, ⟨"a.asm".toList, 1, 12⟩⟩] := by
    decide +kernel
  have hsecond : (⟨[], "\n  B HALT".toList⟩ : Source).tokens =
      .ok [⟨.label, "B".toList, ⟨[], 2, 3⟩⟩, ⟨.operator, "HALT".toList, ⟨[], 2, 5⟩⟩] := by
    decide +kernel
  have hopen : (⟨[], "B\n .STRINGZ \"no\nend".toList⟩ : Source).tokens =
      .error ⟨.unterminatedString, some ⟨[], 2, 11⟩, none, some " .STRINGZ \"no".toList⟩ := by
    decide +kernel
  refine ⟨_, hfirst, (joined_tokens_exact hfirst _).1 _ hsecond, ?_⟩
  obtain ⟨place, hplace, hjoined⟩ := (joined_tokens_exact hfirst _).2 _ hopen
  cases hplace
  exact hjoined

end LittleComputer
