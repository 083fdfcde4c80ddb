import LittleComputer.Proofs.ChangedReading
import LittleComputer.Proofs.Scanning
import Mathlib.Tactic

/-! # Printing and reading back

A statement is printed as its labels, the canonical spelling of its operator and its operands, with
single blanks in between. Strings get back the escapes that the lexer resolved.

* `Statement.Writable`: the statements that a source can hold.
* `Spells`: a text that writes out tokens; `Spells.scan` reads them back.
* `printing_faithful`: a printed program is read back as it was, and every program that can be read
  at all is such a program.
-/

namespace LittleComputer
set_option autoImplicit false

/-! ## Printing -/

/-- The text with a backslash in front of every quote and every backslash. -/
def Text.escaped : Text → Text
  | [] => []
  | c :: rest => if c = '"' ∨ c = '\\' then '\\' :: c :: escaped rest else c :: escaped rest

/-- The token as a source has it. -/
def Token.written (token : Token) : Text :=
  if token.kind = .string then '"' :: (Text.escaped token.content.tail.dropLast ++ ['"'])
  else token.content

def Statement.written (statement : Statement) : Text :=
  Text.join [' ']
    (statement.labels ++ statement.mnemonic.spelling :: statement.operands.map Token.written)

/-- The statements one behind the other, with a separator between neighbours. -/
def Statement.print (separator : Char) (statements : List Statement) : Text :=
  Text.join [separator] (statements.map Statement.written)

/-- The words that the lexer takes for labels. -/
def Text.IsLabel (name : Text) : Prop :=
  name ≠ [] ∧ (∀ c ∈ name, isWordChar c = true) ∧ name.head? ≠ some '"' ∧
    TokenKind.ofWord name = .label

/-- A statement whose parts can all be written in a source. -/
structure Statement.Writable (statement : Statement) : Prop where
  wellFormed : statement.WellFormed
  labels : ∀ name ∈ statement.labels, Text.IsLabel name

-- without this one all characters would be tried, not those of the word
instance (word : Text) : Decidable (∀ c ∈ word, isWordChar c = true) :=
  decidable_of_iff (word.all isWordChar = true) List.all_eq_true

instance (token : Token) : Decidable token.IsLexical :=
  have : Decidable (∃ text, token.content = '"' :: (text ++ ['"'])) :=
    decidable_of_iff (token.content = '"' :: (token.content.tail.dropLast ++ ['"']))
      ⟨fun h => ⟨_, h⟩, fun ⟨text, h⟩ => by rw [h, List.tail_cons, List.dropLast_concat]⟩
  inferInstanceAs (Decidable (if token.kind = .string then _ else _))

instance (kinds : List OperandKind) (tokens : List Token) : Decidable (Fills kinds tokens) :=
  decidable_of_iff (kinds.length = tokens.length ∧
      ∀ pair ∈ kinds.zip tokens, pair.1.accepts pair.2.kind = true)
    ((and_congr_right fun _ => Prod.forall).trans List.forall₂_iff_zip.symm)

instance (statement : Statement) : Decidable statement.Writable :=
  decidable_of_iff ((statement.labels.Nodup ∧ statement.mnemonic.trapVector? = none ∧
      Fills statement.mnemonic.signature statement.operands ∧
      ∀ token ∈ statement.operands, token.IsLexical) ∧
      ∀ name ∈ statement.labels, name ≠ [] ∧ (∀ c ∈ name, isWordChar c = true) ∧
        name.head? ≠ some '"' ∧ TokenKind.ofWord name = .label)
    ⟨fun ⟨⟨h1, h2, h3, h4⟩, h5⟩ => ⟨⟨h1, h2, h3, h4⟩, h5⟩,
      fun h => ⟨⟨h.wellFormed.nodup, h.wellFormed.noAlias, h.wellFormed.fills,
        h.wellFormed.operands⟩, h.labels⟩⟩

/-! ## One token -/

theorem splitString_escaped (text rest : Text) :
    splitString (Text.escaped text ++ '"' :: rest) =
      some ⟨Text.escaped text ++ ['"'], text ++ ['"'], rest⟩ := by
  induction text with
  | nil => rfl
  | cons c text ih =>
    rw [Text.escaped]
    by_cases hc : c = '"' ∨ c = '\\'
    · have hself : unescape c = c := by
        rcases hc with rfl | rfl <;> rfl
      simp only [if_pos hc, List.cons_append, splitString, ih, Option.map_some, hself]
    · obtain ⟨hquote, hbackslash⟩ := not_or.1 hc
      rw [if_neg hc, List.cons_append, splitString.eq_5 _ _ hquote (fun h _ => hbackslash h)
        (fun _ _ h _ => hbackslash h), ih]
      rfl

theorem Token.IsLexical.leads {token : Token} (h : token.IsLexical) (rest : Text)
    (hrest : ∀ c ∈ rest.head?, isWordChar c = false) :
    Leads (token.written ++ rest) ⟨token.kind, token.content, token.written, rest⟩ := by
  unfold IsLexical at h
  unfold written
  split at h
  · next hkind =>
    obtain ⟨text, hcontent⟩ := h
    have hinner : token.content.tail.dropLast = text := by
      rw [hcontent, List.tail_cons, List.dropLast_concat]
    have hsplit := splitString_escaped text rest
    rw [if_pos hkind, hinner, hkind, hcontent, List.cons_append, List.append_assoc]
    exact .string hsplit
  · next hkind =>
    obtain ⟨hne, hword, hquote, hclass⟩ := h
    rw [if_neg hkind, ← hclass]
    exact .of_word hne hword hquote hrest

/-! ## Many tokens -/

/-- A text that writes out tokens, with a separator behind each but the last. -/
inductive Spells : List Token → Text → Prop
  | nil : Spells [] []
  | gap {c : Char} {tokens : List Token} {text : Text} (hc : isSeparator c = true)
    (h : Spells tokens text) : Spells tokens (c :: text)
  | last (token : Token) : Spells [token] token.written
  | token (token : Token) {c : Char} {tokens : List Token} {text : Text}
    (hc : isSeparator c = true) (h : Spells tokens text) :
    Spells (token :: tokens) (token.written ++ c :: text)

namespace Spells

theorem append {ts us : List Token} {a b : Text} {c : Char} (ha : Spells ts a) (hb : Spells us b)
    (hc : isSeparator c = true) : Spells (ts ++ us) (a ++ c :: b) := by
  induction ha with
  | nil => exact .gap hc hb
  | gap hd _ ih => exact .gap hd ih
  | last token => exact .token token hc hb
  | token token hd _ ih =>
    rw [List.append_assoc]
    exact .token token hd ih

theorem join {c : Char} (hc : isSeparator c = true) {phrases : List (List Token)}
    {texts : List Text} (h : List.Forall₂ Spells phrases texts) :
    Spells phrases.flatten (Text.join [c] texts) := by
  induction h with
  | nil => exact .nil
  | @cons phrase text phrases texts hphrase hrest ih =>
    cases hrest with
    | nil =>
      rw [List.flatten_cons, List.flatten_nil, List.append_nil]
      exact hphrase
    | cons => exact hphrase.append ih hc

/-- The lexer finds the tokens that a text writes out. -/
theorem scan {tokens : List Token} {text : Text} (h : Spells tokens text)
    (htokens : ∀ token ∈ tokens, token.IsLexical) (source : Source) (position : Position) :
    ∃ scanned, source.scan ⟨position, text⟩ = (scanned, none) ∧
      List.Forall₂ Change.anywhere.MapsToken tokens scanned := by
  induction h generalizing position with
  | nil => exact ⟨[], by rw [source.scan_eq]; rfl, .nil⟩
  | gap hc _ ih =>
    rw [source.scan_separator hc]
    exact ih htokens _
  | last token =>
    have hlead := (htokens token List.mem_cons_self).leads [] (by simp)
    rw [List.append_nil] at hlead
    have hend : source.scan ⟨position.after token.written, []⟩ = ([], none) := by
      rw [source.scan_eq]
      rfl
    refine ⟨[⟨token.kind, token.content, source.locate position⟩], ?_, ?_⟩
    · rw [source.scan_leads hlead, hend]
    · exact .cons ⟨rfl, fun _ => rfl, fun _ => rfl, trivial⟩ .nil
  | @token token c tokens text hc _ ih =>
    have hstop : ∀ d ∈ (c :: text).head?, isWordChar d = false := by
      rintro d ⟨⟩
      exact isWordChar_of_isSeparator hc
    have hlead := (htokens token List.mem_cons_self).leads (c :: text) hstop
    obtain ⟨scanned, hscan, hmaps⟩ := ih
      (fun t ht => htokens t (List.mem_cons_of_mem token ht))
      ((position.after token.written).advance c)
    refine ⟨⟨token.kind, token.content, source.locate position⟩ :: scanned, ?_, ?_⟩
    · rw [source.scan_leads hlead, source.scan_separator hc, hscan]
    · exact .cons ⟨rfl, fun _ => rfl, fun _ => rfl, trivial⟩ hmaps

end Spells

/-! ## Statements -/

theorem Mnemonic.spelling_isLexical (mnemonic : Mnemonic) (location : Location) :
    (⟨.operator, mnemonic.spelling, location⟩ : Token).IsLexical := by
  have h : ∀ m ∈ all, m.spelling ≠ [] ∧ m.spelling.all isWordChar = true ∧
      m.spelling.head? ≠ some '"' ∧ Lexeme.isRegister m.spelling = false ∧
      Lexeme.isImmediate m.spelling = false ∧ Lexeme.isNumber m.spelling = false := by
    decide +kernel
  obtain ⟨hne, hword, hquote, hregister, himmediate, hnumber⟩ := h mnemonic mnemonic.mem_all
  refine ⟨hne, List.all_eq_true.1 hword, hquote, ?_⟩
  simp [TokenKind.ofWord, hregister, himmediate, hnumber, ofSpelling?_spelling]

namespace Statement

theorem Writable.phrase_isLexical {statement : Statement} (h : statement.Writable)
    (location : Location) : ∀ token ∈ statement.phrase location, token.IsLexical := by
  intro token htoken
  rcases List.mem_append.1 htoken with hlabel | hrest
  · obtain ⟨name, hname, rfl⟩ := List.mem_map.1 hlabel
    exact h.labels name hname
  · rcases List.mem_cons.1 hrest with rfl | hoperand
    · exact statement.mnemonic.spelling_isLexical location
    · exact h.wellFormed.operands token hoperand

theorem spells_written (statement : Statement) (location : Location) :
    Spells (statement.phrase location) statement.written := by
  have hspells : ∀ tokens : List Token,
      List.Forall₂ Spells (tokens.map ([·])) (tokens.map Token.written) := by
    intro tokens
    rw [List.forall₂_map_left_iff, List.forall₂_map_right_iff, List.forall₂_same]
    exact fun token _ => .last token
  have hwritten : (statement.phrase location).map Token.written =
      statement.labels ++ statement.mnemonic.spelling :: statement.operands.map Token.written := by
    rw [phrase, List.map_append, List.map_cons, List.map_map]
    have hlabels : Token.written ∘ (fun name => ⟨.label, name, location⟩) = id := rfl
    rw [hlabels, List.map_id]
    rfl
  have hjoin := Spells.join (c := ' ') (by decide) (hspells (statement.phrase location))
  rw [hwritten, ← List.flatMap_def, List.flatMap_singleton'] at hjoin
  exact hjoin

theorem spells_print {separator : Char} (hseparator : isSeparator separator = true)
    (statements : List Statement) (location : Location) :
    Spells (statements.flatMap (·.phrase location)) (print separator statements) := by
  rw [List.flatMap_def]
  refine Spells.join hseparator ?_
  rw [List.forall₂_map_left_iff, List.forall₂_map_right_iff, List.forall₂_same]
  exact fun statement _ => statement.spells_written location

theorem agrees_iff {a b : Statement} :
    a.agrees b = true ↔
      a.labels = b.labels ∧ a.mnemonic = b.mnemonic ∧ operandsAgree a.operands b.operands = true := by
  simp [agrees, and_assoc]

theorem agrees_of_mapsPhrase {s s' : Statement} (h : Change.anywhere.MapsPhrase s s') :
    s.agrees s' = true := by
  have hoperands : ∀ {ts us : List Token}, List.Forall₂ Change.anywhere.MapsToken ts us →
      operandsAgree ts us = true := by
    intro ts us hmaps
    induction hmaps with
    | nil => rfl
    | @cons t u ts us ht _ ih =>
      have hcontent : u.content = t.content := by
        by_cases hkind : t.kind = .label
        · exact ht.label hkind
        · exact ht.content hkind
      simp [operandsAgree, Token.agrees, ht.kind, hcontent, ih]
  have hlabels : s'.labels = s.labels := h.labels.trans (List.map_id _)
  simp [agrees, hlabels, h.mnemonic, hoperands h.operands]

end Statement

/-! ## Programs -/

theorem Source.read_of_tokens {source : Source} {tokens : List Token} {reading : Reading}
    (htokens : source.tokens = .ok tokens) (hread : Statement.read tokens = .ok reading) :
    source.read = .ok (tokens, reading) := by
  simp only [Source.read, htokens, hread]

theorem read_print {statements : List Statement} (h : ∀ s ∈ statements, s.Writable)
    {separator : Char} (hseparator : isSeparator separator = true) (file : Text) :
    ∃ tokens reading,
      (⟨file, Statement.print separator statements⟩ : Source).read = .ok (tokens, reading) ∧
        List.Forall₂ (fun s s' => s.agrees s' = true) statements reading.statements ∧
        reading.trailing = [] := by
  -- the phrases may lie anywhere, since only their kinds and contents are compared
  have location : Location := ⟨file, 0, 0⟩
  have hlexical : ∀ token ∈ statements.flatMap (·.phrase location), token.IsLexical := by
    intro token htoken
    obtain ⟨s, hs, htoken⟩ := List.mem_flatMap.1 htoken
    exact (h s hs).phrase_isLexical location token htoken
  obtain ⟨tokens, hscan, hmaps⟩ := (Statement.spells_print hseparator statements location).scan
    hlexical ⟨file, Statement.print separator statements⟩ .start
  have hrun := Pending.run_phrases (fun s hs => (h s hs).wellFormed) location
  have hread : Statement.read (statements.flatMap (·.phrase location)) =
      .ok ⟨statements.map ({ · with location := some location }), []⟩ :=
    Statement.read_eq_ok.2 ⟨_, hrun, rfl⟩
  have hmirrors : Mirrors False False _ Change.anywhere.MapsReading _ (Statement.read tokens) :=
    Change.mirrors_read hmaps
  rw [hread] at hmirrors
  obtain ⟨reading, hreading, hmaps⟩ := hmirrors.of_ok
  refine ⟨tokens, reading, Source.read_of_tokens (Source.tokens_eq_ok.2 hscan) hreading, ?_, ?_⟩
  · refine (List.forall₂_map_left_iff.1 hmaps.statements).imp fun s s' hs => ?_
    have hagrees : { s with location := some location }.agrees s' = true :=
      Statement.agrees_of_mapsPhrase hs
    exact hagrees
  · exact hmaps.trailing

theorem read_writable {source : Source} {tokens : List Token} {reading : Reading}
    (h : source.read = .ok (tokens, reading)) : ∀ s ∈ reading.statements, s.Writable := by
  obtain ⟨htokens, hread⟩ := Source.read_eq_ok h
  intro s hs
  refine ⟨Source.read_wellFormed h s hs, ?_⟩
  refine Statement.read_labels ?_ hread s hs
  intro token htoken hkind
  have hlexical := Source.tokens_isLexical htokens token htoken
  rw [Token.IsLexical, hkind] at hlexical
  exact hlexical

/-- A program is printed and read back as it was, whichever separator stands between its statements;
and the statements of every source that can be read can be printed and read back. -/
theorem printing_faithful :
    (∀ (statements : List Statement) (separator : Char) (file : Text),
      (∀ s ∈ statements, s.Writable) → isSeparator separator = true →
      ∃ tokens reading,
        (⟨file, Statement.print separator statements⟩ : Source).read = .ok (tokens, reading) ∧
          List.Forall₂ (fun s s' => s.agrees s' = true) statements reading.statements ∧
          reading.trailing = []) ∧
      ∀ (source : Source) (tokens : List Token) (reading : Reading),
        source.read = .ok (tokens, reading) →
        (∀ s ∈ reading.statements, s.Writable) ∧
          ∀ (separator : Char) (file : Text), isSeparator separator = true →
            ∃ tokens' reading',
              (⟨file, Statement.print separator reading.statements⟩ : Source).read =
                  .ok (tokens', reading') ∧
                List.Forall₂ (fun s s' => s.agrees s' = true) reading.statements
                  reading'.statements ∧
                reading'.trailing = [] := by
  refine ⟨fun statements separator file h hseparator => read_print h hseparator file, ?_⟩
  intro source tokens reading h
  have hwritable := read_writable h
  exact ⟨hwritable, fun separator file hseparator => read_print hwritable hseparator file⟩

/-- A program with a run of labels, escapes in a string and a label as an operand. -/
def quotedProgram : List Statement :=
  [⟨["A".toList, "B/2".toList], .stringz,
      [⟨.string, "\"say \"no\\\n\"".toList, ⟨[], 0, 0⟩⟩], none⟩,
    ⟨[], .ld, [⟨.register, "r1".toList, ⟨[], 0, 0⟩⟩, ⟨.label, "A".toList, ⟨[], 0, 0⟩⟩], none⟩,
    ⟨["C".toList], .trap, [⟨.immediate, "x25".toList, ⟨[], 0, 0⟩⟩], none⟩]

theorem printing_faithful_quoted :
    (Statement.print '\n' quotedProgram =
        "A B/2 .STRINGZ \"say \\\"no\\\\\n\"\nLD r1 A\nC TRAP x25".toList ∧
      ∃ tokens reading,
        (⟨[], Statement.print '\n' quotedProgram⟩ : Source).read = .ok (tokens, reading) ∧
          List.Forall₂ (fun s s' => s.agrees s' = true) quotedProgram reading.statements ∧
          reading.trailing = []) ∧
      ∃ result, (⟨[], "A A HALT ; \"\nLEA, R0 A B".toList⟩ : Source).read = .ok result ∧
        ∀ s ∈ result.2.statements, s.Writable := by
  have hwritable : ∀ s ∈ quotedProgram, s.Writable := by decide +kernel
  have hread : ∃ result, (⟨[], "A A HALT ; \"\nLEA, R0 A B".toList⟩ : Source).read = .ok result ∧
      result.2.statements ≠ [] := by
    decide +kernel
  obtain ⟨⟨tokens, reading⟩, hread, -⟩ := hread
  exact ⟨⟨by decide +kernel, printing_faithful.1 quotedProgram '\n' [] hwritable (by decide)⟩,
    _, hread, (printing_faithful.2 _ tokens reading hread).1⟩

end LittleComputer
