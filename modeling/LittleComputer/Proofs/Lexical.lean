import LittleComputer.Token.Lexer
import Mathlib.Tactic

/-! # The tokens of a source

`Token.IsLexical` says which tokens the lexer can make: a string stands between two quotes, every
other token is a word of the kind that its characters give it. `Source.tokens_isLexical` is the
invariant of the whole scan, from what one step delivers. -/

namespace LittleComputer
set_option autoImplicit false

/-- The tokens that the lexer can make. -/
def Token.IsLexical (token : Token) : Prop :=
  if token.kind = .string then ∃ text, token.content = '"' :: (text ++ ['"'])
  else token.content ≠ [] ∧ (∀ c ∈ token.content, isWordChar c = true) ∧
    token.content.head? ≠ some '"' ∧ TokenKind.ofWord token.content = token.kind

/-! ## Kinds of words -/

namespace Lexeme

theorem not_isImmediate_of_isRegister {word : Text} (h : isRegister word = true) :
    isImmediate word = false ∧ isNumber word = false := by
  unfold isRegister at h
  split at h
  · next letter digit =>
    simp only [Bool.and_eq_true, Bool.or_eq_true, beq_iff_eq] at h
    rcases h.1.1 with rfl | rfl
    · exact ⟨rfl, rfl⟩
    · exact ⟨rfl, rfl⟩
  · cases h

theorem not_isNumber_of_isImmediate {word : Text} (h : isImmediate word = true) :
    isNumber word = false := by
  unfold isImmediate at h
  split at h
  · rfl
  · rfl
  · rfl
  · cases h

end Lexeme

namespace TokenKind

theorem ofWord_ne_string (word : Text) : ofWord word ≠ .string := by
  unfold ofWord
  split_ifs <;> exact TokenKind.noConfusion

theorem isRegister_of_ofWord {word : Text} (h : ofWord word = .register) :
    Lexeme.isRegister word = true := by
  unfold ofWord at h
  split_ifs at h with h1
  exact h1

theorem isImmediate_of_ofWord {word : Text} (h : ofWord word = .immediate) :
    Lexeme.isImmediate word = true := by
  unfold ofWord at h
  split_ifs at h with h1 h2
  exact h2

theorem isNumber_of_ofWord {word : Text} (h : ofWord word = .number) :
    Lexeme.isNumber word = true := by
  unfold ofWord at h
  split_ifs at h with h1 h2 h3
  exact h3

-- no word has two of these forms, so the order in which they are tried decides nothing

theorem ofWord_of_isImmediate {word : Text} (h : Lexeme.isImmediate word = true) :
    ofWord word = .immediate := by
  have hregister : ¬ Lexeme.isRegister word = true := by
    intro hregister
    rw [(Lexeme.not_isImmediate_of_isRegister hregister).1] at h
    cases h
  rw [ofWord, if_neg hregister, if_pos h]

theorem ofWord_of_isNumber {word : Text} (h : Lexeme.isNumber word = true) :
    ofWord word = .number := by
  have hregister : ¬ Lexeme.isRegister word = true := by
    intro hregister
    rw [(Lexeme.not_isImmediate_of_isRegister hregister).2] at h
    cases h
  have himmediate : ¬ Lexeme.isImmediate word = true := by
    intro himmediate
    rw [Lexeme.not_isNumber_of_isImmediate himmediate] at h
    cases h
  rw [ofWord, if_neg hregister, if_neg himmediate, if_pos h]

end TokenKind

theorem Token.IsLexical.ofWord_eq {token : Token} (h : token.IsLexical)
    (hkind : token.kind ≠ .string) : TokenKind.ofWord token.content = token.kind := by
  rw [IsLexical, if_neg hkind] at h
  exact h.2.2.2

/-! ## Strings -/

/-- What a string denotes ends with its closing quote. -/
theorem splitString_content {text : Text} {split : StringSplit}
    (h : splitString text = some split) : ∃ inner, split.content = inner ++ ['"'] := by
  fun_induction splitString text generalizing split with
  | case1 => simp at h
  | case2 rest => cases h; exact ⟨[], rfl⟩
  | case3 => simp at h
  | case4 c rest ih =>
    obtain ⟨part, hpart, rfl⟩ := Option.map_eq_some_iff.1 h
    obtain ⟨inner, hinner⟩ := ih hpart
    exact ⟨unescape c :: inner, by rw [hinner]; rfl⟩
  | case5 c rest _ _ _ ih =>
    obtain ⟨part, hpart, rfl⟩ := Option.map_eq_some_iff.1 h
    obtain ⟨inner, hinner⟩ := ih hpart
    exact ⟨c :: inner, by rw [hinner]; rfl⟩

/-- An escape only shortens what it stands for. -/
theorem splitString_content_length {text : Text} {split : StringSplit}
    (h : splitString text = some split) : split.content.length ≤ text.length := by
  fun_induction splitString text generalizing split with
  | case1 => simp at h
  | case2 rest => cases h; simp
  | case3 => simp at h
  | case4 c rest ih =>
    obtain ⟨part, hpart, rfl⟩ := Option.map_eq_some_iff.1 h
    have hle := ih hpart
    simp only [List.length_cons]
    omega
  | case5 c rest _ _ _ ih =>
    obtain ⟨part, hpart, rfl⟩ := Option.map_eq_some_iff.1 h
    have hle := ih hpart
    simp only [List.length_cons]
    omega

namespace Source

/-! ## One step of the lexer -/

/-- What the next token is: a string behind its opening quote, or the run of word characters in
front. -/
theorem next_cases {source : Source} {cursor behind : Cursor} {token : Token}
    (h : source.next cursor = .ok (some (token, behind))) :
    (∃ body split, (splitGap false cursor.rest).2 = '"' :: body ∧ splitString body = some split ∧
        token.kind = .string ∧ token.content = '"' :: split.content ∧ behind.rest = split.rest) ∨
      ∃ c rest, (splitGap false cursor.rest).2 = c :: rest ∧ c ≠ '"' ∧
        token.content = (c :: rest).takeWhile isWordChar ∧ token.kind = .ofWord token.content ∧
        behind.rest = (c :: rest).dropWhile isWordChar := by
  rw [next] at h
  split at h
  · simp at h
  · next body hbody =>
    split at h
    · simp at h
    · next split hsplit =>
      injection h with h
      injection h with h
      injection h with htoken hbehind
      subst htoken hbehind
      exact .inl ⟨body, split, hbody, hsplit, rfl, rfl, rfl⟩
  · next c rest hquote hrest =>
    injection h with h
    injection h with h
    injection h with htoken hbehind
    subst htoken hbehind
    refine .inr ⟨c, rest, hrest, ?_, rfl, rfl, rfl⟩
    rintro rfl
    exact hquote rfl

theorem next_isLexical {source : Source} {cursor behind : Cursor} {token : Token}
    (h : source.next cursor = .ok (some (token, behind))) : token.IsLexical := by
  rcases next_cases h with ⟨body, split, -, hsplit, hkind, hcontent, -⟩ |
    ⟨c, rest, hrest, hquote, hcontent, hkind, -⟩
  · obtain ⟨inner, hinner⟩ := splitString_content hsplit
    rw [Token.IsLexical, if_pos hkind]
    exact ⟨inner, by rw [hcontent, hinner]⟩
  · have hword := isWordChar_of_splitGap hrest
    have hcons : token.content = c :: rest.takeWhile isWordChar := by
      rw [hcontent, List.takeWhile_cons_of_pos hword]
    rw [Token.IsLexical, if_neg (by rw [hkind]; exact TokenKind.ofWord_ne_string _)]
    refine ⟨by rw [hcons]; exact List.cons_ne_nil _ _, ?_, ?_, hkind.symm⟩
    · intro d hd
      rw [hcontent] at hd
      exact List.all_eq_true.1 List.all_takeWhile d hd
    · rw [hcons]
      intro hhead
      exact hquote (Option.some.inj hhead)

theorem next_content_length {source : Source} {cursor behind : Cursor} {token : Token}
    (h : source.next cursor = .ok (some (token, behind))) :
    token.content.length ≤ cursor.rest.length := by
  have hgap := splitGap_length_le false cursor.rest
  rcases next_cases h with ⟨body, split, hbody, hsplit, -, hcontent, -⟩ |
    ⟨c, rest, hrest, -, hcontent, -, -⟩
  · have hle := splitString_content_length hsplit
    rw [hbody, List.length_cons] at hgap
    rw [hcontent, List.length_cons]
    omega
  · have hle := (List.takeWhile_sublist isWordChar (l := c :: rest)).length_le
    rw [hrest] at hgap
    rw [hcontent]
    omega

/-! ## All tokens -/

/-- What every step delivers holds of all tokens of a scan. -/
theorem scan_forall {source : Source} {P : Text → Token → Prop}
    (hstep : ∀ cursor behind token, source.next cursor = .ok (some (token, behind)) →
      P cursor.rest token)
    (hmono : ∀ cursor behind token t, source.next cursor = .ok (some (token, behind)) →
      P behind.rest t → P cursor.rest t)
    (cursor : Cursor) : ∀ token ∈ (source.scan cursor).1, P cursor.rest token := by
  fun_induction scan source cursor with
  | case1 cursor _ _ => simp
  | case2 cursor _ => simp
  | case3 cursor token behind hnext rest ih =>
    intro t ht
    rcases List.mem_cons.1 ht with rfl | ht
    · exact hstep cursor behind t hnext
    · exact hmono cursor behind token t hnext (ih t ht)

theorem scan_of_tokens {source : Source} {tokens : List Token} (h : source.tokens = .ok tokens) :
    (source.scan source.start).1 = tokens := by
  unfold Source.tokens at h
  split at h
  · next heq =>
    injection h with h
    rw [heq, h]
  · simp at h

theorem tokens_isLexical {source : Source} {tokens : List Token}
    (h : source.tokens = .ok tokens) : ∀ token ∈ tokens, token.IsLexical := by
  rw [← scan_of_tokens h]
  exact scan_forall (P := fun _ token => token.IsLexical)
    (fun _ _ _ hnext => next_isLexical hnext) (fun _ _ _ _ _ ht => ht) source.start

/-- No token is longer than the source. -/
theorem tokens_content_length {source : Source} {tokens : List Token}
    (h : source.tokens = .ok tokens) :
    ∀ token ∈ tokens, token.content.length ≤ source.text.length := by
  rw [← scan_of_tokens h]
  exact scan_forall (P := fun text token => token.content.length ≤ text.length)
    (fun _ _ _ hnext => next_content_length hnext)
    (fun _ _ _ _ hnext ht => ht.trans (next_length_lt hnext).le) source.start

end Source

end LittleComputer
