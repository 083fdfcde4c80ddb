import LittleComputer.Proofs.Grammar
import LittleComputer.Proofs.Listing
import LittleComputer.Proofs.Spacing
import Mathlib.Tactic

/-! # What a rendered statement tells

The line that shows a statement can be read back, although labels may hold brackets, colons and
quotes and a string may hold anything. Labels and words hold no blank, so the character in front of
the first blank says whether a label is the last one; and the operator says how many operands
follow, of which only the last can be a string.

* `Text.join_closed_inj`: a list of labels with a bracket behind it.
* `Text.join_inj`: lists of operands of one length.
* `Statement.text_eq`: the parts of a line.
* `rendering_faithful`: two statements have one line exactly if they agree.
-/

namespace LittleComputer
set_option autoImplicit false

theorem blank_notMem_word {word : Text} (h : ∀ c ∈ word, isWordChar c = true) : ' ' ∉ word := by
  intro hmem
  exact absurd (h ' ' hmem) (by decide)

/-! ## Joined parts -/

namespace Text

/-- Two texts that go on with the same mark are cut at its first occurrence. -/
theorem append_mark_inj {mark : Char} {a b rest tail : Text} (ha : mark ∉ a) (hb : mark ∉ b)
    (h : a ++ mark :: rest = b ++ mark :: tail) : a = b ∧ rest = tail := by
  induction a generalizing b with
  | nil =>
    cases b with
    | nil => exact ⟨rfl, (List.cons.inj h).2⟩
    | cons d b => exact absurd (List.mem_cons.2 (.inl (List.cons.inj h).1)) hb
  | cons c a ih =>
    cases b with
    | nil => exact absurd (List.mem_cons.2 (.inl (List.cons.inj h).1.symm)) ha
    | cons d b =>
      obtain ⟨rfl, hrest⟩ := List.cons.inj h
      obtain ⟨rfl, htail⟩ := ih (fun hc => ha (.tail _ hc)) (fun hc => hb (.tail _ hc)) hrest
      exact ⟨rfl, htail⟩

/-- Cut at the first blank, two texts have the same mark in front of it. -/
theorem append_blank_inj {a b rest tail : Text} {mark mark' : Char} (ha : ' ' ∉ a) (hb : ' ' ∉ b)
    (hmark : ' ' ≠ mark) (hmark' : ' ' ≠ mark')
    (h : a ++ mark :: ' ' :: rest = b ++ mark' :: ' ' :: tail) :
    a = b ∧ mark = mark' ∧ rest = tail := by
  have hconcat : ∀ {text : Text} {m : Char}, ' ' ∉ text → ' ' ≠ m → ' ' ∉ text ++ [m] := by
    intro text m htext hm
    simp [htext, hm]
  rw [List.append_cons, List.append_cons b] at h
  obtain ⟨hfront, hrest⟩ := append_mark_inj (hconcat ha hmark) (hconcat hb hmark') h
  obtain ⟨hsame, hmarks⟩ := List.append_inj' hfront rfl
  exact ⟨hsame, List.singleton_inj.1 hmarks, hrest⟩

/-- What stands in front of the first blank: the first name, and a bracket if it is the only one or
else a comma. -/
theorem join_closed (name : Text) (names : List Text) (rest : Text) :
    join ", ".toList (name :: names) ++ ']' :: ' ' :: rest =
      name ++ (if names = [] then ']' else ',') ::
        ' ' :: (if names = [] then rest else join ", ".toList names ++ ']' :: ' ' :: rest) := by
  cases names with
  | nil => simp [join]
  | cons next names => simp [join]

theorem join_closed_inj {names others : List Text} {rest tail : Text} (hne : names ≠ [])
    (hne' : others ≠ []) (hnames : ∀ name ∈ names, ' ' ∉ name)
    (hothers : ∀ name ∈ others, ' ' ∉ name)
    (h : join ", ".toList names ++ ']' :: ' ' :: rest =
      join ", ".toList others ++ ']' :: ' ' :: tail) : names = others ∧ rest = tail := by
  induction names generalizing others with
  | nil => exact absurd rfl hne
  | cons name names ih =>
    cases others with
    | nil => exact absurd rfl hne'
    | cons other others =>
      rw [List.forall_mem_cons] at hnames hothers
      have hmark : ∀ names : List Text, ' ' ≠ if names = [] then ']' else ',' := by
        intro names
        split_ifs <;> decide
      rw [join_closed, join_closed] at h
      obtain ⟨rfl, hmarks, hbehind⟩ :=
        append_blank_inj hnames.1 hothers.1 (hmark names) (hmark others) h
      -- the mark behind the first name tells whether more names follow
      by_cases hlast : names = [] <;> by_cases hlast' : others = []
      · rw [if_pos hlast, if_pos hlast'] at hbehind
        exact ⟨by rw [hlast, hlast'], hbehind⟩
      · simp [hlast, hlast'] at hmarks
      · simp [hlast, hlast'] at hmarks
      · rw [if_neg hlast, if_neg hlast'] at hbehind
        obtain ⟨rfl, htail⟩ := ih hlast hlast' hnames.2 hothers.2 hbehind
        exact ⟨rfl, htail⟩

theorem join_inj {xs ys : List Text} (hlength : xs.length = ys.length)
    (hxs : ∀ x ∈ xs.dropLast, ' ' ∉ x) (hys : ∀ y ∈ ys.dropLast, ' ' ∉ y)
    (h : join ", ".toList xs = join ", ".toList ys) : xs = ys := by
  induction xs generalizing ys with
  | nil => exact (List.length_eq_zero_iff.1 hlength.symm).symm
  | cons x xs ih =>
    cases ys with
    | nil => exact absurd hlength (Nat.succ_ne_zero _)
    | cons y ys =>
      have htails : xs.length = ys.length := Nat.succ.inj hlength
      match xs, ys with
      | [], [] => exact congrArg (fun text => [text]) h
      | x' :: xs, y' :: ys =>
        rw [List.dropLast_cons_cons, List.forall_mem_cons] at hxs hys
        obtain ⟨rfl, -, hbehind⟩ := append_blank_inj hxs.1 hys.1 (by decide) (by decide) h
        rw [ih htails hxs.2 hys.2 hbehind]

end Text

/-! ## Operands -/

theorem TokenKind.tag_injective : Function.Injective TokenKind.tag := by
  intro a b
  cases a <;> cases b <;> decide

theorem Token.text_eq_iff (t u : Token) : t.text = u.text ↔ t.agrees u = true := by
  simp [Token.text, Token.agrees, TokenKind.tag_injective.eq_iff]

/-- Operands agree if whatever tells tokens that agree from others is the same for both. -/
theorem Statement.operandsAgree_iff {α : Type} {view : Token → α}
    (hview : ∀ t u, view t = view u ↔ t.agrees u = true) {ts us : List Token} :
    operandsAgree ts us = true ↔ ts.map view = us.map view := by
  induction ts generalizing us with
  | nil => cases us <;> simp [operandsAgree]
  | cons t ts ih => cases us <;> simp [operandsAgree, hview, ih]

theorem Mnemonic.string_notMem_dropLast (mnemonic : Mnemonic) :
    OperandKind.string ∉ mnemonic.signature.dropLast := by
  cases mnemonic <;> decide

theorem OperandKind.eq_string_of_accepts {kind : OperandKind} :
    kind.accepts .string = true → kind = .string := by
  cases kind <;> decide

/-- Where only the last operand may be a string, only the last one is. -/
theorem Fills.not_string {kinds : List OperandKind} {tokens : List Token}
    (h : Fills kinds tokens) (hkinds : OperandKind.string ∉ kinds.dropLast) :
    ∀ token ∈ tokens.dropLast, token.kind ≠ .string := by
  induction h with
  | nil => simp
  | @cons kind token kinds tokens haccepts hrest ih =>
    cases hrest with
    | nil => simp
    | cons hnext hrest =>
      rw [List.dropLast_cons_cons, List.mem_cons, not_or] at hkinds
      rw [List.dropLast_cons_cons, List.forall_mem_cons]
      refine ⟨?_, ih hkinds.2⟩
      intro hstring
      rw [hstring] at haccepts
      exact hkinds.1 (OperandKind.eq_string_of_accepts haccepts).symm

theorem Token.IsLexical.blank_notMem {token : Token} (h : token.IsLexical)
    (hkind : token.kind ≠ .string) : ' ' ∉ token.text := by
  rw [IsLexical, if_neg hkind] at h
  have htag : ' ' ≠ token.kind.tag := by
    cases token.kind <;> decide
  simp [Token.text, htag, blank_notMem_word h.2.1]

/-! ## Lines -/

namespace Statement

/-- The labels as a line shows them, with the blank behind them. -/
def shownLabels (statement : Statement) (rest : Text) : Text :=
  if statement.labels = [] then rest
  else '[' :: (Text.join ", ".toList statement.labels ++ ']' :: ' ' :: rest)

/-- The operands as a line shows them, with the blank in front of them. -/
def shownOperands (statement : Statement) : Text :=
  if statement.operands = [] then []
  else ' ' :: Text.join ", ".toList (statement.operands.map Token.text)

theorem text_eq (statement : Statement) :
    statement.text = statement.shownLabels
      ('<' :: (statement.mnemonic.spelling ++ '>' :: statement.shownOperands)) := by
  by_cases hlabels : statement.labels = [] <;> by_cases hoperands : statement.operands = [] <;>
    simp [text, shownLabels, shownOperands, hlabels, hoperands, Text.join]

theorem shownLabels_inj {a b : Statement} (ha : ∀ name ∈ a.labels, ' ' ∉ name)
    (hb : ∀ name ∈ b.labels, ' ' ∉ name) {rest tail : Text}
    (h : a.shownLabels ('<' :: rest) = b.shownLabels ('<' :: tail)) :
    a.labels = b.labels ∧ rest = tail := by
  -- a line without labels starts with the other bracket
  by_cases hempty : a.labels = [] <;> by_cases hempty' : b.labels = []
  · rw [shownLabels, shownLabels, if_pos hempty, if_pos hempty'] at h
    exact ⟨hempty.trans hempty'.symm, (List.cons.inj h).2⟩
  · simp [shownLabels, hempty, hempty'] at h
  · simp [shownLabels, hempty, hempty'] at h
  · rw [shownLabels, shownLabels, if_neg hempty, if_neg hempty'] at h
    obtain ⟨hlabels, hrest⟩ :=
      Text.join_closed_inj hempty hempty' ha hb (List.cons.inj h).2
    exact ⟨hlabels, (List.cons.inj hrest).2⟩

theorem WellFormed.blank_notMem {statement : Statement} (h : statement.WellFormed) :
    ∀ shown ∈ (statement.operands.map Token.text).dropLast, ' ' ∉ shown := by
  intro shown hshown
  rw [← List.map_dropLast] at hshown
  obtain ⟨token, htoken, rfl⟩ := List.mem_map.1 hshown
  have hkind : token.kind ≠ .string :=
    Fills.not_string h.fills statement.mnemonic.string_notMem_dropLast token htoken
  exact (h.operands token (List.mem_of_mem_dropLast htoken)).blank_notMem hkind

theorem shownOperands_inj {a b : Statement} (ha : a.WellFormed) (hb : b.WellFormed)
    (hmnemonic : a.mnemonic = b.mnemonic) (h : a.shownOperands = b.shownOperands) :
    a.operands.map Token.text = b.operands.map Token.text := by
  have hlength : a.operands.length = b.operands.length := by
    rw [← ha.fills.length_eq, ← hb.fills.length_eq, hmnemonic]
  by_cases hempty : a.operands = []
  · rw [hempty, List.length_nil] at hlength
    rw [hempty, List.length_eq_zero_iff.1 hlength.symm]
  · have hempty' : b.operands ≠ [] := by
      intro hnil
      rw [hnil] at hlength
      exact hempty (List.length_eq_zero_iff.1 hlength)
    rw [shownOperands, shownOperands, if_neg hempty, if_neg hempty'] at h
    refine Text.join_inj ?_ (WellFormed.blank_notMem ha) (WellFormed.blank_notMem hb)
      (List.cons.inj h).2
    rw [List.length_map, List.length_map, hlength]

theorem Writable.blank_notMem_label {statement : Statement} (h : statement.Writable) :
    ∀ name ∈ statement.labels, ' ' ∉ name := by
  intro name hname
  exact blank_notMem_word (h.labels name hname).2.1

theorem Writable.agrees_of_text {a b : Statement} (ha : a.Writable) (hb : b.Writable)
    (h : a.text = b.text) : a.agrees b = true := by
  have hangle : ∀ mnemonic ∈ Mnemonic.all, '>' ∉ mnemonic.spelling := by
    decide
  rw [text_eq, text_eq] at h
  obtain ⟨hlabels, hrest⟩ := shownLabels_inj ha.blank_notMem_label hb.blank_notMem_label h
  obtain ⟨hspelling, hbehind⟩ := Text.append_mark_inj (hangle _ (Mnemonic.mem_all _))
    (hangle _ (Mnemonic.mem_all _)) hrest
  have hmnemonic : a.mnemonic = b.mnemonic := Mnemonic.spelling_injective hspelling
  have hoperands := shownOperands_inj ha.wellFormed hb.wellFormed hmnemonic hbehind
  exact agrees_iff.2 ⟨hlabels, hmnemonic, (operandsAgree_iff Token.text_eq_iff).2 hoperands⟩

theorem text_of_agrees {a b : Statement} (h : a.agrees b = true) : a.text = b.text := by
  obtain ⟨hlabels, hmnemonic, hoperands⟩ := agrees_iff.1 h
  exact text_congr hlabels hmnemonic ((operandsAgree_iff Token.text_eq_iff).1 hoperands)

end Statement

/-- **Faithful lines.** Statements of sources that can be read, of one source or of two, are shown by
the same line exactly if they agree: they have the same labels in the same order, the same operator,
and operands of the same kinds and contents. -/
theorem rendering_faithful {p q : Source} {ts us : List Token} {first second : Reading}
    (hp : p.read = .ok (ts, first)) (hq : q.read = .ok (us, second)) {a b : Statement}
    (ha : a ∈ first.statements) (hb : b ∈ second.statements) :
    (a.text = b.text ↔ a.agrees b = true) ∧
      (a.agrees b = true ↔ a.labels = b.labels ∧ a.mnemonic = b.mnemonic ∧
        a.operands.map (fun token => (token.kind, token.content)) =
          b.operands.map fun token => (token.kind, token.content)) := by
  have hwritable : a.Writable := read_writable hp a ha
  have hwritable' : b.Writable := read_writable hq b hb
  refine ⟨⟨hwritable.agrees_of_text hwritable', Statement.text_of_agrees⟩, ?_⟩
  rw [Statement.agrees_iff, Statement.operandsAgree_iff]
  intro t u
  simp [Token.agrees]

/-- A statement whose labels and string hold the marks of a line. -/
def Statement.bracketed (place stringPlace : Location) : Statement :=
  ⟨["A]".toList, "[<B:\"".toList], .stringz, [⟨.string, "\"x, S:\"y> \"".toList, stringPlace⟩],
    some place⟩

/-- The statement on one line. -/
def Source.bracketed : Source :=
  ⟨"a.asm".toList, "A] [<B:\" .STRINGZ \"x, S:\\\"y> \"".toList⟩

/-- The statement on three lines. -/
def Source.bracketedApart : Source :=
  ⟨"b.asm".toList, "A]\n[<B:\" ; same\n\t.stringz,\"x, S:\\\"y> \"".toList⟩

theorem rendering_faithful_bracketed :
    ∃ ts us first second a b, Source.bracketed.read = .ok (ts, first) ∧
      Source.bracketedApart.read = .ok (us, second) ∧ a ∈ first.statements ∧
      b ∈ second.statements ∧ a ≠ b ∧ a.text = b.text ∧ a.agrees b = true := by
  have hone : ∃ result, Source.bracketed.read = .ok result ∧
      .bracketed ⟨"a.asm".toList, 1, 10⟩ ⟨"a.asm".toList, 1, 19⟩ ∈ result.2.statements := by
    decide +kernel
  have hthree : ∃ result, Source.bracketedApart.read = .ok result ∧
      .bracketed ⟨"b.asm".toList, 3, 2⟩ ⟨"b.asm".toList, 3, 11⟩ ∈ result.2.statements := by
    decide +kernel
  obtain ⟨⟨ts, first⟩, hp, ha⟩ := hone
  obtain ⟨⟨us, second⟩, hq, hb⟩ := hthree
  exact ⟨ts, us, first, second, _, _, hp, hq, ha, hb, by decide, by decide,
    (rendering_faithful hp hq ha hb).1.1 (by decide)⟩

end LittleComputer
