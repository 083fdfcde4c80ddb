import LittleComputer.Proofs.Unclosed
import LittleComputer.Proofs.Wording
import Mathlib.Tactic

/-! # Capital and small letters

Operators, registers and immediates may be written in either case. What a word is, what it denotes
and where it lies only depend on its letters, not on their case; names of labels and the characters
of strings do depend on it.

* `SameLetters`: texts that differ in the case of ASCII letters at most.
* `SameLetters.ofWord_eq`: the kind of a word; `Token.registerNumber_eq`, `Token.immediateValue_eq`:
  its value. Operators are compared in upper case, whatever other characters become letters there.
* `Source.Recased`: a source with other cases inside such lexemes.
* `Piece.Recased.sits`: the lexemes stand where they stood.
* `letterCase_irrelevant`: both sources are assembled alike.
-/

namespace LittleComputer
set_option autoImplicit false

/-! ## Letters -/

/-- Characters that are the same, or one letter of ASCII in either case. -/
def SameLetter (c d : Char) : Prop :=
  d.toUpper = c.toUpper

/-- Texts that differ in the case of ASCII letters at most. -/
abbrev SameLetters : Text → Text → Prop :=
  List.Forall₂ SameLetter

instance : DecidableRel SameLetter :=
  fun c d => inferInstanceAs (Decidable (d.toUpper = c.toUpper))

theorem toNat_toUpper (c : Char) :
    c.toUpper.toNat = if 97 ≤ c.toNat ∧ c.toNat ≤ 122 then c.toNat - 32 else c.toNat := by
  unfold Char.toUpper
  split
  · next h =>
    have hlow : 97 ≤ c.toNat := h.1
    have hhigh : c.toNat ≤ 122 := h.2
    rw [if_pos ⟨hlow, hhigh⟩]
    show (c.val + ('A'.val - 'a'.val)).toNat = c.val.toNat - 32
    have hshift : ('A'.val - 'a'.val).toNat = 2 ^ 32 - 32 := by decide
    have hval : c.val.toNat = c.toNat := rfl
    rw [UInt32.toNat_add, hshift]
    omega
  · next h =>
    rw [if_neg fun hc => h ⟨hc.1, hc.2⟩]

namespace SameLetter
variable {c d : Char}

/-- Only letters change, and by the distance of the two cases. -/
theorem cases (h : SameLetter c d) :
    d = c ∨ (65 ≤ c.toNat ∧ c.toNat ≤ 90 ∧ d.toNat = c.toNat + 32) ∨
      (97 ≤ c.toNat ∧ c.toNat ≤ 122 ∧ c.toNat = d.toNat + 32) := by
  have hnat := congrArg Char.toNat h
  rw [toNat_toUpper, toNat_toUpper] at hnat
  by_cases heq : d.toNat = c.toNat
  · exact .inl (Char.toNat_inj.1 heq)
  · right
    split at hnat <;> split at hnat <;> omega

/-- A character that is no letter has one form. -/
theorem eq_iff (h : SameLetter c d) {other : Char} (hother : other.toNat < 65 ∨ 122 < other.toNat) :
    d = other ↔ c = other := by
  rcases h.cases with rfl | hletter | hletter
  · rfl
  · constructor <;> rintro rfl <;> omega
  · constructor <;> rintro rfl <;> omega

theorem either_iff (h : SameLetter c d) {capital small : Char}
    (hcapital : 65 ≤ capital.toNat ∧ capital.toNat ≤ 90)
    (hsmall : small.toNat = capital.toNat + 32) :
    (d = capital ∨ d = small) ↔ (c = capital ∨ c = small) := by
  simp only [← Char.toNat_inj]
  rcases h.cases with rfl | hletter | hletter <;> omega

theorem isWordChar_eq (h : SameLetter c d) : isWordChar d = isWordChar c := by
  have hword : ∀ k : Char, 65 ≤ k.toNat → k.toNat ≤ 122 → isWordChar k = true := by
    intro k hlow hhigh
    have hblank : Text.isBlank k = false := Text.isBlank_eq_false (by omega) (by omega)
    have hcomma : k ≠ ',' := by
      rintro rfl
      exact absurd hlow (by decide)
    have hsemicolon : k ≠ ';' := by
      rintro rfl
      exact absurd hlow (by decide)
    simp [isWordChar, isSeparator, hblank, hcomma, hsemicolon]
  rcases h.cases with rfl | hletter | hletter
  · rfl
  · rw [hword c (by omega) (by omega), hword d (by omega) (by omega)]
  · rw [hword c (by omega) (by omega), hword d (by omega) (by omega)]

theorem isDecimal_eq (h : SameLetter c d) : Lexeme.isDecimal d = Lexeme.isDecimal c := by
  rw [Bool.eq_iff_iff, Lexeme.isDecimal_iff, Lexeme.isDecimal_iff]
  rcases h.cases with rfl | hletter | hletter <;> omega

theorem isHexadecimal_eq (h : SameLetter c d) :
    Lexeme.isHexadecimal d = Lexeme.isHexadecimal c := by
  rw [Bool.eq_iff_iff, Lexeme.isHexadecimal_iff, Lexeme.isHexadecimal_iff]
  rcases h.cases with rfl | hletter | hletter <;> omega

theorem digit_eq (h : SameLetter c d) : Lexeme.digit d = Lexeme.digit c := by
  unfold Lexeme.digit
  rcases h.cases with rfl | ⟨hlow, hhigh, hd⟩ | ⟨hlow, hhigh, hc⟩
  · rfl
  · rw [Lexeme.digit_capital ⟨hlow, hhigh⟩, Lexeme.digit_small (by omega)]
    simp only [Option.getD_some]
    omega
  · rw [Lexeme.digit_small ⟨hlow, hhigh⟩, Lexeme.digit_capital (by omega)]
    simp only [Option.getD_some]
    omega

theorem upperChar_eq (h : SameLetter c d) : Text.upperChar d = Text.upperChar c := by
  rcases h.cases with rfl | hletter | hletter
  · rfl
  · rw [Text.upperChar, Text.upperChar, if_pos (by omega), if_pos (by omega), h]
  · rw [Text.upperChar, Text.upperChar, if_pos (by omega), if_pos (by omega), h]

end SameLetter

/-! ## Words -/

namespace SameLetters
variable {a b : Text}

theorem refl (a : Text) : SameLetters a a :=
  List.forall₂_same.2 fun _ _ => rfl

theorem eq_of_no_letter (h : SameLetters a b) (ha : ∀ c ∈ a, c.toNat < 65 ∨ 122 < c.toNat) :
    b = a := by
  induction h with
  | nil => rfl
  | @cons c d a b hc _ ih =>
    rw [(hc.eq_iff (ha c List.mem_cons_self)).2 rfl,
      ih fun e he => ha e (List.mem_cons_of_mem c he)]

theorem isEmpty_eq (h : SameLetters a b) : b.isEmpty = a.isEmpty := by
  cases h <;> rfl

theorem all_eq (h : SameLetters a b) {isDigit : Char → Bool}
    (hdigit : ∀ c d, SameLetter c d → isDigit d = isDigit c) : b.all isDigit = a.all isDigit := by
  induction h with
  | nil => rfl
  | cons hc _ ih => rw [List.all_cons, List.all_cons, hdigit _ _ hc, ih]

theorem upper_eq (h : SameLetters a b) : Text.upper b = Text.upper a := by
  unfold Text.upper
  induction h with
  | nil => rfl
  | cons hc _ ih => rw [List.flatMap_cons, List.flatMap_cons, hc.upperChar_eq, ih]

theorem ofSpelling?_eq (h : SameLetters a b) : Mnemonic.ofSpelling? b = Mnemonic.ofSpelling? a := by
  unfold Mnemonic.ofSpelling?
  rw [h.upper_eq]

theorem takeSign (h : SameLetters a b) :
    (Numeral.takeSign b).1 = (Numeral.takeSign a).1 ∧
      SameLetters (Numeral.takeSign a).2 (Numeral.takeSign b).2 := by
  cases h with
  | nil => exact ⟨rfl, .nil⟩
  | @cons c d a b hc h =>
    have hminus : d = '-' ↔ c = '-' := hc.eq_iff (by decide)
    have hplus : d = '+' ↔ c = '+' := hc.eq_iff (by decide)
    by_cases hcminus : c = '-'
    · rw [hminus.2 hcminus, hcminus]
      exact ⟨rfl, h⟩
    · by_cases hcplus : c = '+'
      · rw [hplus.2 hcplus, hcplus]
        exact ⟨rfl, h⟩
      · have hunsigned : ∀ (k : Char) (rest : Text), k ≠ '-' → k ≠ '+' →
            Numeral.takeSign (k :: rest) = (false, k :: rest) := by
          intro k rest hkminus hkplus
          unfold Numeral.takeSign
          split
          · next heq => exact absurd (List.cons.inj heq).1 hkminus
          · next heq => exact absurd (List.cons.inj heq).1 hkplus
          · rfl
        rw [hunsigned c a hcminus hcplus,
          hunsigned d b (mt hminus.1 hcminus) (mt hplus.1 hcplus)]
        exact ⟨rfl, .cons hc h⟩

theorem isNumeral_eq (h : SameLetters a b) {isDigit : Char → Bool}
    (hdigit : ∀ c d, SameLetter c d → isDigit d = isDigit c) :
    Lexeme.isNumeral isDigit b = Lexeme.isNumeral isDigit a := by
  have hrest : SameLetters _ _ := h.takeSign.2
  rw [Numeral.isNumeral_eq, Numeral.isNumeral_eq, hrest.isEmpty_eq, hrest.all_eq hdigit]

theorem isRegister_eq (h : SameLetters a b) : Lexeme.isRegister b = Lexeme.isRegister a := by
  rcases h with _ | ⟨hletter, _ | ⟨hdigit, _ | ⟨_, _⟩⟩⟩
  · rfl
  · rfl
  · next c d e f =>
    have hdigits : ∀ k : Char, '0' ≤ k ∧ k ≤ '7' ↔ 48 ≤ k.toNat ∧ k.toNat ≤ 55 :=
      fun _ => Iff.rfl
    have hin : ('0' ≤ f ∧ f ≤ '7') ↔ ('0' ≤ e ∧ e ≤ '7') := by
      rw [hdigits, hdigits]
      rcases hdigit.cases with rfl | hletter | hletter <;> omega
    have hr : (d = 'R' ∨ d = 'r') ↔ (c = 'R' ∨ c = 'r') :=
      hletter.either_iff (by decide) (by decide)
    rw [Bool.eq_iff_iff]
    simp only [Lexeme.isRegister, Bool.and_eq_true, Bool.or_eq_true, beq_iff_eq, decide_eq_true_eq,
      and_assoc, hr, hin]
  · rfl

theorem isImmediate_eq (h : SameLetters a b) : Lexeme.isImmediate b = Lexeme.isImmediate a := by
  have hcons : ∀ (k : Char) (numeral : Text), Lexeme.isImmediate (k :: numeral) =
      if k = 'X' ∨ k = 'x' then Lexeme.isNumeral Lexeme.isHexadecimal numeral
      else if k = '#' then Lexeme.isNumeral Lexeme.isDecimal numeral else false := by
    intro k numeral
    unfold Lexeme.isImmediate
    split <;> simp_all
  cases h with
  | nil => rfl
  | @cons c d a b hc h =>
    have hx : (d = 'X' ∨ d = 'x') ↔ (c = 'X' ∨ c = 'x') := hc.either_iff (by decide) (by decide)
    have hhash : d = '#' ↔ c = '#' := hc.eq_iff (by decide)
    have h : SameLetters a b := h
    simp only [hcons, hx, hhash, h.isNumeral_eq fun _ _ => SameLetter.isHexadecimal_eq,
      h.isNumeral_eq fun _ _ => SameLetter.isDecimal_eq]

theorem ofWord_eq (h : SameLetters a b) : TokenKind.ofWord b = TokenKind.ofWord a := by
  have hnumber : Lexeme.isNumber b = Lexeme.isNumber a :=
    h.isNumeral_eq fun _ _ => SameLetter.isDecimal_eq
  rw [TokenKind.ofWord, TokenKind.ofWord, h.isRegister_eq, h.isImmediate_eq, hnumber,
    h.ofSpelling?_eq]

theorem denoted_eq (h : SameLetters a b) (base : Nat) :
    Numeral.denoted base b = Numeral.denoted base a := by
  obtain ⟨hsign, hdigits⟩ := h.takeSign
  have hvalues : (Numeral.takeSign b).2.map Lexeme.digit =
      (Numeral.takeSign a).2.map Lexeme.digit :=
    map_eq_of_forall₂ hdigits fun _ _ => SameLetter.digit_eq
  rw [Numeral.denoted, Numeral.denoted, hsign, hvalues]

/-! ## Places -/

theorem after_eq (h : SameLetters a b) (position : Position) :
    position.after b = position.after a := by
  induction h generalizing position with
  | nil => rfl
  | @cons c d a b hc _ ih =>
    have hnewline : d = '\n' ↔ c = '\n' := hc.eq_iff (by decide)
    have hadvance : position.advance d = position.advance c := by
      simp only [Position.advance, hnewline]
    show (position.advance d).after b = (position.advance c).after a
    rw [hadvance, ih]

theorem behind_eq (h : SameLetters a b) (file : Text) :
    Location.behind file b = .behind file a := by
  have hlocate := Source.locate_after ⟨file, a⟩
  rw [← hlocate a, ← hlocate b, h.after_eq]

/-- What follows a gap or a word only matters by its first character. -/
theorem head (h : SameLetters a b) : ∀ d ∈ b.head?, ∃ c ∈ a.head?, SameLetter c d := by
  cases h with
  | nil => simp
  | cons hc _ => simpa using hc

theorem isGap (h : SameLetters a b) {gap : Text} (hgap : IsGap a gap) : IsGap b gap := by
  induction hgap with
  | nil => exact .nil
  | separator hc _ ih => exact .separator hc ih
  | @comment body gap hbody hend _ ih =>
    refine .comment hbody (fun d hd => ?_) ih
    have hsame : SameLetters (gap ++ a) (gap ++ b) := List.rel_append (refl gap) h
    obtain ⟨c, hc, hcd⟩ := hsame.head d hd
    exact (hcd.eq_iff (by decide)).2 (hend c hc)

end SameLetters

/-! ## Tokens -/

namespace Token
variable {a b : Text} {location : Location}

theorem registerNumber_eq (h : SameLetters a b) (hregister : Lexeme.isRegister a = true) :
    (⟨.register, b, location⟩ : Token).registerNumber =
      (⟨.register, a, location⟩ : Token).registerNumber := by
  unfold Lexeme.isRegister at hregister
  split at hregister
  · next letter digit =>
    have hdigit : digit.toNat ≤ 55 := by
      simp only [Bool.and_eq_true, decide_eq_true_eq] at hregister
      exact hregister.2
    rcases h with _ | ⟨_, _ | ⟨hsame, _ | _⟩⟩
    rw [(hsame.eq_iff (.inl (by omega))).2 rfl]
    rfl
  · cases hregister

theorem immediateValue_eq (h : SameLetters a b) (himmediate : Lexeme.isImmediate a = true) :
    (⟨.immediate, b, location⟩ : Token).immediateValue =
      (⟨.immediate, a, location⟩ : Token).immediateValue := by
  have hvalue : ∀ (mark : Char) (numeral : Text),
      (⟨.immediate, mark :: numeral, location⟩ : Token).immediateValue =
        readNumeral (if mark = 'x' ∨ mark = 'X' then 16 else 10) numeral :=
    fun _ _ => rfl
  obtain ⟨mark', numeral', rfl, hcases'⟩ := isImmediate_cases (h.isImmediate_eq.trans himmediate)
  obtain ⟨mark, numeral, rfl, hcases⟩ := isImmediate_cases himmediate
  obtain ⟨hmark, hnumeral⟩ := List.forall₂_cons.1 h
  have hnumeral : SameLetters numeral numeral' := hnumeral
  have hx : (mark' = 'x' ∨ mark' = 'X') ↔ (mark = 'x' ∨ mark = 'X') := by
    rw [or_comm, hmark.either_iff (by decide) (by decide), or_comm]
  rw [hvalue, hvalue]
  simp only [hx] at hcases' ⊢
  rcases hcases with ⟨hhexadecimal, hliteral⟩ | ⟨hdecimal, hliteral⟩
  · have hliteral' : Numeral.IsLiteral 16 numeral' := by
      simpa [hhexadecimal] using hcases'
    rw [if_pos hhexadecimal, readNumeral_hexadecimal hliteral, readNumeral_hexadecimal hliteral',
      hnumeral.denoted_eq]
  · -- a decimal numeral has no letters
    rw [hnumeral.eq_of_no_letter]
    intro c hc
    rcases Numeral.mem_of_mem_numeral hc with rfl | rfl | hc
    · decide
    · decide
    · cases hliteral.2 c hc with
      | decimal hdigit =>
        have hle := (Lexeme.isDecimal_iff.1 hdigit).2
        omega

end Token

/-! ## Sources -/

/-- The kinds of lexemes in which the case of letters means nothing. -/
def TokenKind.isCaseless : TokenKind → Bool
  | operator | register | immediate => true
  | _ => false

/-- The piece with some letters of its lexeme in the other case, if it is of such a kind. -/
inductive Piece.Recased : Piece → Piece → Prop
  | same (piece : Piece) : Recased piece piece
  | letters {gap lexeme lexeme' : Text} {token : Token} (hkind : token.kind.isCaseless = true)
    (h : SameLetters lexeme lexeme') :
    Recased ⟨gap, lexeme, token⟩ ⟨gap, lexeme', { token with content := lexeme' }⟩

/-- The source with letters in the other case inside operators, registers and immediates. -/
def Source.Recased (source other : Source) : Prop :=
  ∃ pieces pieces' rest, source.Partition pieces rest ∧
    List.Forall₂ Piece.Recased pieces pieces' ∧ other = ⟨source.file, Piece.texts pieces' ++ rest⟩

namespace Piece
variable {piece piece' : Piece} {pieces pieces' : List Piece}
  {file before before' after after' rest : Text}

theorem Recased.lexeme (h : piece.Recased piece') : SameLetters piece.lexeme piece'.lexeme := by
  cases h with
  | same => exact .refl _
  | letters _ h => exact h

theorem Recased.gap (h : piece.Recased piece') : piece'.gap = piece.gap := by
  cases h <;> rfl

theorem Recased.text (h : piece.Recased piece') : SameLetters piece.text piece'.text := by
  rw [Piece.text, Piece.text, h.gap]
  exact List.rel_append (SameLetters.refl piece.gap) h.lexeme

theorem Recased.texts (h : List.Forall₂ Recased pieces pieces') :
    SameLetters (texts pieces) (texts pieces') := by
  induction h with
  | nil => exact .nil
  | cons hpiece _ ih => exact List.rel_append hpiece.text ih

theorem Recased.writtenAs (h : piece.Recased piece') (hafter : SameLetters after after')
    (hwritten : piece.token.WrittenAs after piece.lexeme) :
    piece'.token.WrittenAs after' piece'.lexeme := by
  have hkind' : piece'.token.kind = piece.token.kind := by
    cases h <;> rfl
  obtain ⟨gap, lexeme, token⟩ := piece
  cases hwritten with
  | string hkind hcontent hresolves =>
    cases h with
    | same => exact .string hkind hcontent hresolves
    | letters hcaseless =>
      rw [hkind] at hcaseless
      cases hcaseless
  | word hkind hcontent hne hword hquote hbreak =>
    have hletters : SameLetters lexeme piece'.lexeme := h.lexeme
    have hcontent' : piece'.token.content = piece'.lexeme := by
      cases h with
      | same => exact hcontent
      | letters => rfl
    refine .word ?_ hcontent' ?_ ?_ ?_ ?_
    · rw [hkind', hletters.ofWord_eq]
      exact hkind
    · intro hnil
      rw [hnil] at hletters
      exact hne (List.forall₂_nil_right_iff.1 hletters)
    · have hall : lexeme.all isWordChar = true := by
        refine List.all_eq_true.2 fun c hc => ?_
        have hbreaks := mt breaksWord_iff.2 (hword c hc)
        simpa using hbreaks
      rw [← hletters.all_eq fun _ _ => SameLetter.isWordChar_eq] at hall
      intro d hd
      rw [breaksWord_iff, List.all_eq_true.1 hall d hd]
      decide
    · intro hhead
      obtain ⟨c, hc, hcd⟩ := hletters.head '"' hhead
      rw [(hcd.eq_iff (by decide)).1 rfl] at hc
      exact hquote hc
    · intro d hd
      obtain ⟨c, hc, hcd⟩ := hafter.head d hd
      rw [breaksWord_iff, hcd.isWordChar_eq, ← breaksWord_iff]
      exact hbreak c hc

/-- A piece stands as well between texts with other letters. -/
theorem Recased.sits (h : piece.Recased piece') (hbefore : SameLetters before before')
    (hafter : SameLetters after after') (hsits : piece.Sits file before after) :
    piece'.Sits file before' after' := by
  refine ⟨?_, h.writtenAs hafter hsits.lexeme, ?_⟩
  · rw [h.gap]
    exact SameLetters.isGap (List.rel_append h.lexeme hafter) hsits.gap
  · have hfront : SameLetters (before ++ piece.gap) (before' ++ piece.gap) :=
      List.rel_append hbefore (SameLetters.refl piece.gap)
    have hlocation : piece'.token.location = piece.token.location := by
      cases h <;> rfl
    rw [h.gap, hlocation, hsits.location, hfront.behind_eq]

theorem Recased.eachSits (h : List.Forall₂ Recased pieces pieces')
    (hbefore : SameLetters before before') (hsits : EachSits file before pieces rest) :
    EachSits file before' pieces' rest := by
  induction h generalizing before before' with
  | nil => simp [EachSits]
  | @cons piece piece' pieces pieces' hpiece hpieces ih =>
    obtain ⟨hfirst, hothers⟩ := hsits.cons
    refine eachSits_cons (hpiece.sits hbefore ?_ hfirst) (ih ?_ hothers)
    · exact List.rel_append (Recased.texts hpieces) (SameLetters.refl rest)
    · exact List.rel_append hbefore hpiece.text

theorem Recased.twins (h : piece.Recased piece')
    (hwritten : piece.token.WrittenAs after piece.lexeme) : piece.token.Twins piece'.token := by
  cases h with
  | same => exact .refl _
  | @letters gap lexeme lexeme' token hkind h =>
    cases hwritten with
    | string hstring =>
      simp only at hstring
      rw [hstring] at hkind
      cases hkind
    | word hword hcontent =>
      have hword : token.kind = .ofWord lexeme := hword
      have hcontent : token.content = lexeme := hcontent
      obtain ⟨kind, _, location⟩ := token
      simp only at hword hcontent hkind
      subst hcontent
      refine ⟨rfl, rfl, fun hoperator => ?_, ?_, ?_, ?_⟩
      · rw [h.ofSpelling?_eq]
        exact (Token.Twins.refl _).operator hoperator
      · rintro rfl
        exact Token.registerNumber_eq h (TokenKind.isRegister_of_ofWord hword.symm)
      · rintro rfl
        exact Token.immediateValue_eq h (TokenKind.isImmediate_of_ofWord hword.symm)
      · rintro (rfl | rfl | rfl) <;> cases hkind

end Piece

namespace Source
variable {source other : Source}

theorem tokens_recased {pieces pieces' : List Piece} {rest : Text}
    (hpartition : source.Partition pieces rest) (h : List.Forall₂ Piece.Recased pieces pieces') :
    List.Forall₂ Token.Twins (pieces.map Piece.token) (pieces'.map Piece.token) := by
  have hwritten : ∀ piece ∈ pieces, ∃ after, piece.token.WrittenAs after piece.lexeme := by
    intro piece hpiece
    obtain ⟨earlier, later, hsplit⟩ := List.append_of_mem hpiece
    exact ⟨_, (hpartition.pieces earlier piece later hsplit).lexeme⟩
  rw [List.forall₂_map_left_iff, List.forall₂_map_right_iff]
  refine ((List.forall₂_and_left _ _).2 ⟨hwritten, h⟩).imp fun piece piece' hboth => ?_
  obtain ⟨⟨after, hlexeme⟩, hrecased⟩ := hboth
  exact hrecased.twins hlexeme

/-- Two sources of one file have the same tokens behind a cursor. -/
theorem scan_of_file (h : other.file = source.file) (cursor : Cursor) :
    ∃ stop : Option Cursor, (source.scan cursor).2 = stop.map source.unterminated ∧
      other.scan cursor = ((source.scan cursor).1, stop.map other.unterminated) := by
  obtain ⟨stop, hstop, -, hmoved⟩ := scan_moved source other cursor 0
  rw [h, map_moved_of_file (source.scan_file cursor)] at hmoved
  exact ⟨stop, hstop, hmoved⟩

/-- The scans of both sources deliver tokens of the same values, and stop in one place if at all. -/
theorem scan_recased (h : source.Recased other) :
    ∃ (ts us : List Token) (stop : Option Cursor), List.Forall₂ Token.Twins ts us ∧
      source.scan source.start = (ts, stop.map source.unterminated) ∧
      other.scan other.start = (us, stop.map other.unterminated) := by
  obtain ⟨pieces, pieces', rest, hpartition, hpieces, hother⟩ := h
  have hfile : other.file = source.file := by rw [hother]
  have hstart : source.start = ⟨.start, Piece.texts pieces ++ rest⟩ := by
    rw [start, hpartition.text]
  have hstart' : other.start = ⟨.start, Piece.texts pieces' ++ rest⟩ := by
    rw [start, hother]
  have hsits : Piece.EachSits source.file [] pieces rest := hpartition.pieces
  have hsits' : Piece.EachSits other.file [] pieces' rest := by
    rw [hfile]
    exact Piece.Recased.eachSits hpieces .nil hsits
  have hplace := (Piece.Recased.texts hpieces).after_eq .start
  -- what follows the pieces is the same text in the same place
  obtain ⟨stop, hstop, hrest⟩ :=
    scan_of_file hfile ⟨Position.start.after (Piece.texts pieces), rest⟩
  have hscan := source.scan_eachSits hsits
  have hscan' := other.scan_eachSits hsits'
  rw [List.nil_append, hstop] at hscan
  rw [List.nil_append, hplace, hrest] at hscan'
  rw [hstart, hstart']
  exact ⟨_, _, stop, List.rel_append (tokens_recased hpartition hpieces)
    (List.forall₂_same.2 fun t _ => Token.Twins.refl t), hscan, hscan'⟩

theorem mirrors_tokens (h : source.Recased other) :
    Mirrors False False Diagnostic.Alike (List.Forall₂ Token.Twins) source.tokens other.tokens := by
  obtain ⟨ts, us, stop, htwins, hscan, hscan'⟩ := scan_recased h
  have hfile : other.file = source.file := by
    obtain ⟨_, _, _, -, -, rfl⟩ := h
    rfl
  cases stop with
  | none =>
    rw [tokens_eq_ok.2 hscan, tokens_eq_ok.2 hscan']
    exact .ok htwins
  | some place =>
    rw [tokens_eq_error.2 (congrArg Prod.snd hscan), tokens_eq_error.2 (congrArg Prod.snd hscan')]
    refine .error ⟨rfl, congrArg some ?_⟩
    rw [locate, locate, hfile]

theorem mirrors_assemble (h : source.Recased other) :
    Mirrors False False Failure.Alike Assembly.Twins source.assemble other.assemble := by
  have hassemble : ∀ source : Source, source.assemble =
      (source.tokens.mapError Diagnostic.failure).bind fun tokens =>
        (Token.assemble tokens).mapError Prod.snd := by
    intro source
    cases htokens : source.tokens with
    | ok tokens => exact assemble_of_tokens htokens
    | error diagnostic =>
      rw [assemble, read, htokens]
      rfl
  have htokens : Mirrors False False Failure.Alike _ (source.tokens.mapError Diagnostic.failure)
      (other.tokens.mapError Diagnostic.failure) :=
    (mirrors_tokens h).mapError fun _ _ => id
  rw [hassemble, hassemble]
  refine htokens.bind fun ts us htwins => ?_
  have hmeans : List.Forall₂ Token.Means ts (us.map ([·])) :=
    List.forall₂_map_right_iff.2 (htwins.imp fun _ _ => .spelled)
  have hreworded := Token.assemble_reworded hmeans
  rw [← List.flatMap_def, List.flatMap_singleton'] at hreworded
  exact hreworded.mapError fun _ _ he => he.2

end Source

/-- **Letter case does not matter** inside operators, registers and immediates. Both sources have
tokens or neither, of the same kinds and in the same places. Both are assembled or neither, with the
same words, blocks and symbols; if not, the failures are of one sort and in one place. -/
theorem letterCase_irrelevant {source other : Source} (h : source.Recased other) :
    (((∃ ts, source.tokens = .ok ts) ↔ ∃ us, other.tokens = .ok us) ∧
      ∀ ts us, source.tokens = .ok ts → other.tokens = .ok us →
        us.map Token.kind = ts.map Token.kind ∧ us.map Token.location = ts.map Token.location) ∧
    ((∃ a, source.assemble = .ok a) ↔ ∃ b, other.assemble = .ok b) ∧
    (∀ a b, source.assemble = .ok a → other.assemble = .ok b →
      b.words = a.words ∧ b.blocks.map Block.address = a.blocks.map Block.address ∧
        b.blocks.map Block.words = a.blocks.map Block.words ∧ b.symbols = a.symbols) ∧
    ∀ e e', source.assemble = .error e → other.assemble = .error e' →
      e'.sort = e.sort ∧ e'.location = e.location := by
  obtain ⟨htokens, hsame, -⟩ := (Source.mirrors_tokens h).outcomes
  obtain ⟨hassembles, hequal, hfails⟩ := (Source.mirrors_assemble h).outcomes
  refine ⟨⟨htokens, fun ts us hts hus => ?_⟩, hassembles, fun a b ha hb => ?_,
    fun e e' he he' => ⟨(hfails e e' he he').sort, (hfails e e' he he').location⟩⟩
  · have htwins := hsame ts us hts hus
    exact ⟨map_eq_of_forall₂ htwins fun _ _ ht => ht.kind,
      map_eq_of_forall₂ htwins fun _ _ ht => ht.location⟩
  · have htwins := hequal a b ha hb
    exact ⟨htwins.words, htwins.blockAddresses, htwins.blockWords, htwins.symbols⟩

/-- The head of a program, and the program with it. -/
def Piece.opening (orig value : String) : List Piece :=
  [⟨[], orig.toList, ⟨.operator, orig.toList, ⟨[], 1, 1⟩⟩⟩,
    ⟨[' '], value.toList, ⟨.immediate, value.toList, ⟨[], 1, 7⟩⟩⟩]

def Source.opened (orig value : String) : Source :=
  ⟨[], Piece.texts (Piece.opening orig value) ++ " L Ld r1,L .END".toList⟩

theorem letterCase_irrelevant_opened :
    (Source.opened ".orig" "X3a").Recased (Source.opened ".ORIG" "x3A") ∧
      ∃ a b, (Source.opened ".orig" "X3a").assemble = .ok a ∧
        (Source.opened ".ORIG" "x3A").assemble = .ok b ∧ b.statements ≠ a.statements ∧
        b.words = [0x23FF#16] ∧ b.symbols = a.symbols := by
  have hassemble : ∃ a, (Source.opened ".orig" "X3a").assemble = .ok a ∧ a.words = [0x23FF#16] ∧
      ∃ b, (Source.opened ".ORIG" "x3A").assemble = .ok b ∧ b.statements ≠ a.statements := by
    decide +kernel
  have hword : ∀ word : Text, word.all isWordChar = true → ∀ c ∈ word, ¬ BreaksWord c := by
    intro word hall c hc hbreaks
    rw [breaksWord_iff, List.all_eq_true.1 hall c hc] at hbreaks
    cases hbreaks
  have hblank : ∀ text : Text, ∀ c ∈ (' ' :: text).head?, BreaksWord c := by
    rintro _ _ ⟨⟩
    exact breaksWord_iff.2 (by decide)
  have hsits : Piece.EachSits [] [] (Piece.opening ".orig" "X3a") " L Ld r1,L .END".toList := by
    refine Piece.eachSits_cons ⟨.nil, ?_, by decide⟩ (Piece.eachSits_cons ⟨?_, ?_, by decide⟩ ?_)
    · exact .word (by decide) rfl (by decide) (hword _ (by decide)) (by decide) (hblank _)
    · exact .separator (.inl (by decide)) .nil
    · exact .word (by decide) rfl (by decide) (hword _ (by decide)) (by decide) (hblank _)
    · simp [Piece.EachSits]
  have hrecased : (Source.opened ".orig" "X3a").Recased (Source.opened ".ORIG" "x3A") :=
    ⟨Piece.opening ".orig" "X3a", Piece.opening ".ORIG" "x3A", _, ⟨rfl, hsits⟩,
      .cons (.letters rfl (by decide)) (.cons (.letters rfl (by decide)) .nil), rfl⟩
  obtain ⟨a, ha, hwords, b, hb, hdiffer⟩ := hassemble
  obtain ⟨hsame, -, -, hsymbols⟩ := (letterCase_irrelevant hrecased).2.2.1 a b ha hb
  exact ⟨hrecased, a, b, ha, hb, hdiffer, hsame.trans hwords, hsymbols⟩

end LittleComputer
