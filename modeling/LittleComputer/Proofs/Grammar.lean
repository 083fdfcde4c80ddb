import LittleComputer.Proofs.Reading
import Mathlib.Tactic

/-! # The grammar of statements

A program is phrases one behind the other, and then labels that name nothing. A phrase is labels, an
operator and one token for each place of the operator's signature. Nothing marks the end of a phrase:
the operator says how many operands follow, and a label behind the last of them belongs to the next
phrase.

* `Phrase`, `Phrasing`: tokens that follow the grammar.
* `Phrasing.tokens_injective`: tokens follow it in at most one way.
* `Statement.read_phrasing`: tokens that follow the grammar are read.
* `Pending.Holds`: the tokens that the reader has met since the last whole phrase. One token keeps it
  (`Pending.step_holds`), so whatever is read follows the grammar (`Statement.phrasing_of_read`).
* `grammar_exact`: acceptance, uniqueness and the statements that come of the phrases.
-/

namespace LittleComputer
set_option autoImplicit false

/-! ## Phrases -/

/-- The tokens of one statement. -/
@[ext]
structure Phrase where
  labels : List Token
  operator : Token
  mnemonic : Mnemonic
  operands : List Token
  labels_kind : ∀ token ∈ labels, token.kind = .label
  operator_kind : operator.kind = .operator
  spelled : Text.upper operator.content = mnemonic.spelling
  fills : Fills mnemonic.signature operands

def Phrase.tokens (phrase : Phrase) : List Token :=
  phrase.labels ++ phrase.operator :: phrase.operands

/-- Phrases and the labels behind the last of them. -/
@[ext]
structure Phrasing where
  phrases : List Phrase
  trailing : List Token
  trailing_kind : ∀ token ∈ trailing, token.kind = .label

def Phrasing.tokens (phrasing : Phrasing) : List Token :=
  phrasing.phrases.flatMap Phrase.tokens ++ phrasing.trailing

/-- The statement that the reader makes of a phrase. -/
def Phrase.statement (phrase : Phrase) : Statement :=
  Opened.statement ⟨Text.distinct (phrase.labels.map Token.content), phrase.mnemonic,
    phrase.operator, phrase.operands⟩

/-- `kept` are the names in the order of their first occurrences, each of them once. -/
structure Text.FirstOccurrences (names kept : List Text) : Prop where
  mem : ∀ name, name ∈ kept ↔ name ∈ names
  ordered : kept.Pairwise fun a b => names.idxOf a < names.idxOf b

/-- What a phrase says as a statement. A trap alias says a trap with the alias's vector. -/
structure Phrase.Yields (phrase : Phrase) (statement : Statement) : Prop where
  labels : Text.FirstOccurrences (phrase.labels.map Token.content) statement.labels
  location : statement.location = some phrase.operator.location
  plain : phrase.mnemonic.trapVector? = none →
    statement.mnemonic = phrase.mnemonic ∧ statement.operands = phrase.operands
  shortened : ∀ vector, phrase.mnemonic.trapVector? = some vector →
    statement.mnemonic = .trap ∧ ∃ token, statement.operands = [token] ∧
      token.kind = .immediate ∧ token.immediateValue = .ok vector

theorem Mnemonic.spelling_injective : Function.Injective spelling := by
  intro m n h
  have hm := m.ofSpelling?_spelling
  rw [h, n.ofSpelling?_spelling] at hm
  exact (Option.some.inj hm).symm

theorem Mnemonic.ofSpelling?_eq_some {spelled : Text} {mnemonic : Mnemonic} :
    ofSpelling? spelled = some mnemonic ↔ Text.upper spelled = mnemonic.spelling := by
  constructor
  · intro h
    have hfound := List.find?_some h
    exact (beq_iff_eq.1 hfound).symm
  · intro h
    -- a spelling in capitals stays as it is, so both look for the same spelling
    have hcanonical := mnemonic.ofSpelling?_spelling
    have hupper : ∀ m ∈ all, Text.upper m.spelling = m.spelling := by decide +kernel
    unfold ofSpelling? at hcanonical ⊢
    rw [hupper mnemonic mnemonic.mem_all] at hcanonical
    rw [h]
    exact hcanonical

theorem Text.firstOccurrences_distinct (names : List Text) :
    Text.FirstOccurrences names (Text.distinct names) := by
  induction names with
  | nil => exact ⟨by simp [Text.distinct], List.Pairwise.nil⟩
  | cons name rest ih =>
    have hother : ∀ a, a ≠ name → (name :: rest).idxOf a = rest.idxOf a + 1 := by
      intro a ha
      exact List.idxOf_cons_ne rest ha.symm
    refine ⟨fun a => ?_, ?_⟩
    · by_cases ha : a = name
      · simp [Text.distinct, ha]
      · simp [Text.distinct, ha, ih.mem a]
    · rw [Text.distinct, List.pairwise_cons]
      constructor
      · intro b hb
        have hne : b ≠ name := by simpa using (List.mem_filter.1 hb).2
        rw [List.idxOf_cons_self, hother b hne]
        omega
      · refine (ih.ordered.filter _).imp_of_mem ?_
        intro a b ha hb hlt
        have hane : a ≠ name := by simpa using (List.mem_filter.1 ha).2
        have hbne : b ≠ name := by simpa using (List.mem_filter.1 hb).2
        rw [hother a hane, hother b hbne]
        omega

theorem aliasToken_immediateValue {mnemonic : Mnemonic} {vector : Nat}
    (h : mnemonic.trapVector? = some vector) (location : Location) :
    (aliasToken vector location).immediateValue = .ok vector := by
  -- the place does not matter, so six closed cases are left
  have hvalues : ∀ n ∈ [0x20, 0x21, 0x22, 0x23, 0x24, 0x25],
      ∃ value, (aliasToken n ⟨[], 0, 0⟩).immediateValue = .ok value ∧ value = n := by
    decide +kernel
  have hvector : vector ∈ [0x20, 0x21, 0x22, 0x23, 0x24, 0x25] := by
    cases mnemonic <;> cases h <;> decide
  obtain ⟨value, hvalue, rfl⟩ := hvalues vector hvector
  exact hvalue

theorem Phrase.yields_statement (phrase : Phrase) : phrase.Yields phrase.statement := by
  have hlabels := Text.firstOccurrences_distinct (phrase.labels.map Token.content)
  unfold Phrase.statement Opened.statement
  dsimp only
  split
  · next vector hvector =>
    refine ⟨hlabels, rfl, ?_, ?_⟩
    · intro hplain
      rw [hvector] at hplain
      cases hplain
    · intro other hother
      rw [hvector] at hother
      cases hother
      exact ⟨rfl, aliasToken vector phrase.operator.location, rfl, rfl,
        aliasToken_immediateValue hvector _⟩
  · next hnone =>
    refine ⟨hlabels, rfl, fun _ => ⟨rfl, rfl⟩, ?_⟩
    intro vector hvector
    rw [hnone] at hvector
    cases hvector

/-! ## Tokens are phrased in one way -/

/-- Where a run of labels ends is determined by the token behind it. -/
theorem labels_append_inj {ls ms rest more : List Token} {a b : Token}
    (hls : ∀ token ∈ ls, token.kind = .label) (hms : ∀ token ∈ ms, token.kind = .label)
    (ha : a.kind ≠ .label) (hb : b.kind ≠ .label) (h : ls ++ a :: rest = ms ++ b :: more) :
    ls = ms ∧ a = b ∧ rest = more := by
  induction ls generalizing ms with
  | nil =>
    cases ms with
    | nil =>
      obtain ⟨hab, hrest⟩ := List.cons.inj h
      exact ⟨rfl, hab, hrest⟩
    | cons m ms =>
      obtain ⟨ham, -⟩ := List.cons.inj h
      exact absurd (ham ▸ hms m List.mem_cons_self) ha
  | cons l ls ih =>
    cases ms with
    | nil =>
      obtain ⟨hlb, -⟩ := List.cons.inj h
      exact absurd (hlb ▸ hls l List.mem_cons_self) hb
    | cons m ms =>
      obtain ⟨hlm, htail⟩ := List.cons.inj h
      obtain ⟨hsame, hab, hrest⟩ := ih (fun t ht => hls t (List.mem_cons_of_mem l ht))
        (fun t ht => hms t (List.mem_cons_of_mem m ht)) htail
      exact ⟨by rw [hlm, hsame], hab, hrest⟩

theorem Phrase.operator_ne_label (phrase : Phrase) : phrase.operator.kind ≠ .label := by
  rw [phrase.operator_kind]
  decide

/-- Whatever follows, tokens that start with a phrase start with no other. -/
theorem Phrase.tokens_append_inj {p q : Phrase} {rest more : List Token}
    (h : p.tokens ++ rest = q.tokens ++ more) : p = q ∧ rest = more := by
  have hsplit : p.labels ++ p.operator :: (p.operands ++ rest) =
      q.labels ++ q.operator :: (q.operands ++ more) := by
    simpa [Phrase.tokens] using h
  obtain ⟨hlabels, hoperator, hbehind⟩ := labels_append_inj p.labels_kind q.labels_kind
    p.operator_ne_label q.operator_ne_label hsplit
  have hmnemonic : p.mnemonic = q.mnemonic := by
    apply Mnemonic.spelling_injective
    rw [← p.spelled, ← q.spelled, hoperator]
  have hlength : p.operands.length = q.operands.length := by
    rw [← p.fills.length_eq, ← q.fills.length_eq, hmnemonic]
  obtain ⟨hoperands, hrest⟩ := List.append_inj hbehind hlength
  exact ⟨Phrase.ext hlabels hoperator hmnemonic hoperands, hrest⟩

/-- No phrase is made of labels alone. -/
theorem Phrase.not_all_labels {phrase : Phrase} {rest tokens : List Token}
    (h : phrase.tokens ++ rest = tokens) : ¬ ∀ token ∈ tokens, token.kind = .label := by
  intro hall
  refine phrase.operator_ne_label (hall phrase.operator ?_)
  rw [← h]
  simp [Phrase.tokens]

theorem Phrase.flatMap_tokens_inj {ps qs : List Phrase} {ls ms : List Token}
    (hls : ∀ token ∈ ls, token.kind = .label) (hms : ∀ token ∈ ms, token.kind = .label)
    (h : ps.flatMap Phrase.tokens ++ ls = qs.flatMap Phrase.tokens ++ ms) : ps = qs ∧ ls = ms := by
  induction ps generalizing qs with
  | nil =>
    cases qs with
    | nil => exact ⟨rfl, by simpa using h⟩
    | cons q qs =>
      rw [List.flatMap_cons, List.append_assoc] at h
      exact absurd hls (Phrase.not_all_labels h.symm)
  | cons p ps ih =>
    cases qs with
    | nil =>
      rw [List.flatMap_cons, List.append_assoc] at h
      exact absurd hms (Phrase.not_all_labels h)
    | cons q qs =>
      rw [List.flatMap_cons, List.flatMap_cons, List.append_assoc, List.append_assoc] at h
      obtain ⟨hpq, hrest⟩ := Phrase.tokens_append_inj h
      obtain ⟨hpsqs, hlabels⟩ := ih hrest
      exact ⟨by rw [hpq, hpsqs], hlabels⟩

theorem Phrasing.tokens_injective : Function.Injective Phrasing.tokens := by
  intro p q h
  obtain ⟨hphrases, htrailing⟩ := Phrase.flatMap_tokens_inj p.trailing_kind q.trailing_kind h
  exact Phrasing.ext hphrases htrailing

/-! ## Phrases are read -/

theorem Pending.run_phraseTokens (phrase : Phrase) (rest : List Token) :
    (labels []).run (phrase.tokens ++ rest) = resume (some phrase.statement, labels []) rest := by
  have hspelled := Mnemonic.ofSpelling?_eq_some.2 phrase.spelled
  have hstep : (labels (phrase.labels.map Token.content)).step phrase.operator =
      .ok (proceed ⟨Text.distinct (phrase.labels.map Token.content), phrase.mnemonic,
        phrase.operator, []⟩ phrase.mnemonic.signature) := by
    simp only [step, phrase.operator_kind, hspelled]
  rw [Phrase.tokens, List.append_assoc, run_labels [] phrase.labels_kind, List.nil_append,
    List.cons_append, run_of_step hstep, resume_operands phrase.fills]
  rfl

theorem Pending.run_phrasing (phrasing : Phrasing) :
    (labels []).run phrasing.tokens =
      .ok (phrasing.phrases.map Phrase.statement,
        labels (phrasing.trailing.map Token.content)) := by
  obtain ⟨phrases, trailing, hkind⟩ := phrasing
  show (labels []).run (phrases.flatMap Phrase.tokens ++ trailing) = _
  induction phrases with
  | nil =>
    have h := run_labels [] hkind []
    rw [List.append_nil] at h
    exact h
  | cons phrase phrases ih =>
    rw [List.flatMap_cons, List.append_assoc, run_phraseTokens, resume, ih]
    rfl

theorem Statement.read_phrasing (phrasing : Phrasing) :
    Statement.read phrasing.tokens =
      .ok ⟨phrasing.phrases.map Phrase.statement,
        Text.distinct (phrasing.trailing.map Token.content)⟩ :=
  Statement.read_eq_ok.2 ⟨_, Pending.run_phrasing phrasing, rfl⟩

/-! ## Whatever is read is phrases -/

/-- `front` are the tokens of a statement that still lacks operands. -/
structure Opened.Begins (front : List Token) (missing : List OperandKind) (opened : Opened) :
    Prop where
  split : ∃ labels, front = labels ++ opened.operator :: opened.taken ∧
    (∀ token ∈ labels, token.kind = .label) ∧ opened.labels = Text.distinct (labels.map Token.content)
  operator_kind : opened.operator.kind = .operator
  spelled : Text.upper opened.operator.content = opened.mnemonic.spelling
  fills : ∃ met, opened.mnemonic.signature = met ++ missing ∧ Fills met opened.taken

namespace Pending

/-- `front` are the tokens since the last whole phrase. -/
def Holds (front : List Token) : Pending → Prop
  | labels names => (∀ token ∈ front, token.kind = .label) ∧ names = front.map Token.content
  | operands opened wanted further => opened.Begins front (wanted :: further)

/-- What one token does: it goes on with the phrase or ends it. -/
def Reads (front : List Token) (state : Option Statement × Pending) : Prop :=
  (state.1 = none ∧ state.2.Holds front) ∨
    ∃ phrase : Phrase, phrase.tokens = front ∧ state = (some phrase.statement, labels [])

theorem proceed_reads {front : List Token} {missing : List OperandKind} {opened : Opened}
    (h : opened.Begins front missing) : Reads front (proceed opened missing) := by
  cases missing with
  | cons wanted further => exact .inl ⟨rfl, h⟩
  | nil =>
    obtain ⟨names, hfront, hkind, hnames⟩ := h.split
    obtain ⟨met, hsignature, hfills⟩ := h.fills
    rw [List.append_nil] at hsignature
    refine .inr ⟨⟨names, opened.operator, opened.mnemonic, opened.taken, hkind, h.operator_kind,
      h.spelled, hsignature ▸ hfills⟩, hfront.symm, ?_⟩
    rw [proceed, Phrase.statement, ← hnames]

theorem step_holds {pending : Pending} {front : List Token} {token : Token}
    {state : Option Statement × Pending} (h : pending.Holds front)
    (hstep : pending.step token = .ok state) : Reads (front ++ [token]) state := by
  cases pending with
  | labels names =>
    obtain ⟨hkinds, hnames⟩ := h
    rw [step] at hstep
    split at hstep
    · next hlabel =>
      cases hstep
      refine .inl ⟨rfl, ?_, by simp [hnames]⟩
      intro t ht
      rcases List.mem_append.1 ht with ht | ht
      · exact hkinds t ht
      · rw [List.mem_singleton.1 ht]
        exact hlabel
    · next hoperator =>
      split at hstep
      · next mnemonic hspelling =>
        cases hstep
        apply proceed_reads
        exact ⟨⟨front, rfl, hkinds, by rw [hnames]⟩, hoperator,
          Mnemonic.ofSpelling?_eq_some.1 hspelling, [], rfl, .nil⟩
      · cases hstep
    · cases hstep
  | operands opened wanted further =>
    rw [step] at hstep
    split at hstep
    · next haccepts =>
      cases hstep
      obtain ⟨names, hfront, hkinds, hnames⟩ := h.split
      obtain ⟨met, hsignature, hfills⟩ := h.fills
      apply proceed_reads
      refine ⟨⟨names, by simp [hfront], hkinds, hnames⟩, h.operator_kind, h.spelled,
        met ++ [wanted], ?_, ?_⟩
      · rw [List.append_assoc]
        exact hsignature
      · exact List.rel_append hfills (.cons haccepts .nil)
    · cases hstep

theorem run_holds {pending behind : Pending} {front tokens : List Token}
    {statements : List Statement} (h : pending.Holds front)
    (hrun : pending.run tokens = .ok (statements, behind)) :
    ∃ (phrases : List Phrase) (back : List Token),
      front ++ tokens = phrases.flatMap Phrase.tokens ++ back ∧
        statements = phrases.map Phrase.statement ∧ behind.Holds back := by
  induction tokens generalizing pending front statements with
  | nil =>
    cases hrun
    exact ⟨[], front, by simp, rfl, h⟩
  | cons token rest ih =>
    obtain ⟨state, further, hstep, hrest, rfl⟩ := run_cons_eq_ok hrun
    rcases step_holds h hstep with ⟨hnone, hholds⟩ | ⟨phrase, hphrase, rfl⟩
    · obtain ⟨phrases, back, htokens, rfl, hback⟩ := ih hholds hrest
      rw [List.append_assoc] at htokens
      exact ⟨phrases, back, htokens, by rw [hnone]; rfl, hback⟩
    · have hstart : (labels []).Holds [] := ⟨by simp, rfl⟩
      obtain ⟨phrases, back, htokens, rfl, hback⟩ := ih hstart hrest
      rw [List.nil_append] at htokens
      refine ⟨phrase :: phrases, back, ?_, rfl, hback⟩
      rw [List.flatMap_cons, hphrase, htokens]
      simp

end Pending

theorem Statement.phrasing_of_read {tokens : List Token} {reading : Reading}
    (h : Statement.read tokens = .ok reading) :
    ∃ phrasing : Phrasing, phrasing.tokens = tokens ∧
      reading.statements = phrasing.phrases.map Phrase.statement := by
  obtain ⟨pending, hrun, hfinish⟩ := Statement.read_eq_ok.1 h
  have hstart : (Pending.labels []).Holds [] := ⟨by simp, rfl⟩
  obtain ⟨phrases, back, htokens, hstatements, hback⟩ := Pending.run_holds hstart hrun
  cases pending with
  | operands opened wanted further => cases hfinish
  | labels names => exact ⟨⟨phrases, back, hback.1⟩, htokens.symm, hstatements⟩

/-- **The grammar.** Tokens are read exactly if they are phrases one behind the other and labels
behind the last, and there is only one way to see them so. Each phrase yields its statement, in
order; the labels at the end yield none. -/
theorem grammar_exact (tokens : List Token) :
    ((∃ reading, Statement.read tokens = .ok reading) ↔
        ∃ phrasing : Phrasing, phrasing.tokens = tokens) ∧
      (∀ p q : Phrasing, p.tokens = tokens → q.tokens = tokens → p = q) ∧
      ∀ (phrasing : Phrasing) (reading : Reading), phrasing.tokens = tokens →
        Statement.read tokens = .ok reading →
        List.Forall₂ Phrase.Yields phrasing.phrases reading.statements ∧
          Text.FirstOccurrences (phrasing.trailing.map Token.content) reading.trailing := by
  refine ⟨⟨?_, ?_⟩, ?_, ?_⟩
  · rintro ⟨reading, h⟩
    obtain ⟨phrasing, htokens, -⟩ := Statement.phrasing_of_read h
    exact ⟨phrasing, htokens⟩
  · rintro ⟨phrasing, rfl⟩
    exact ⟨_, Statement.read_phrasing phrasing⟩
  · intro p q hp hq
    exact Phrasing.tokens_injective (hp.trans hq.symm)
  · rintro phrasing reading rfl h
    rw [Statement.read_phrasing] at h
    cases h
    refine ⟨?_, Text.firstOccurrences_distinct _⟩
    rw [List.forall₂_map_right_iff, List.forall₂_same]
    exact fun phrase _ => phrase.yields_statement

/-- Labels in front of an operator, among its operands and at the end, and an alias in small
letters; the tokens lie nowhere in particular. -/
def handMade : List Token :=
  [⟨.label, "A".toList, ⟨[], 0, 0⟩⟩, ⟨.label, "B".toList, ⟨[], 0, 0⟩⟩,
    ⟨.label, "A".toList, ⟨[], 0, 0⟩⟩, ⟨.operator, "ld".toList, ⟨[], 7, 2⟩⟩,
    ⟨.register, "no register".toList, ⟨[], 0, 0⟩⟩, ⟨.label, "C".toList, ⟨[], 0, 0⟩⟩,
    ⟨.label, "D".toList, ⟨[], 0, 0⟩⟩, ⟨.operator, "Halt".toList, ⟨[], 9, -1⟩⟩,
    ⟨.label, "A".toList, ⟨[], 0, 0⟩⟩]

theorem grammar_exact_handMade :
    ∃ (phrasing : Phrasing) (reading : Reading), phrasing.tokens = handMade ∧
      Statement.read handMade = .ok reading ∧
      reading.statements.map Statement.labels = [["A".toList, "B".toList], ["D".toList]] ∧
      List.Forall₂ Phrase.Yields phrasing.phrases reading.statements := by
  have hread : ∃ reading, Statement.read handMade = .ok reading ∧
      reading.statements.map Statement.labels = [["A".toList, "B".toList], ["D".toList]] := by
    decide +kernel
  obtain ⟨reading, hread, hlabels⟩ := hread
  obtain ⟨haccepts, -, hyields⟩ := grammar_exact handMade
  obtain ⟨phrasing, htokens⟩ := haccepts.1 ⟨reading, hread⟩
  exact ⟨phrasing, reading, htokens, hread, hlabels, (hyields phrasing reading htokens hread).1⟩

end LittleComputer
