import LittleComputer.Proofs.Encoding
import LittleComputer.Proofs.Grammar
import LittleComputer.Proofs.Partition
import Mathlib.Tactic

/-! # The places of reports

Every report about a source names the place of a lexeme of that source, and the lexeme is what the
report is about: the label that is not defined, the literal or label whose value does not fit, or
the operator of the statement that cannot be placed.

* `Source.Shows`: a lexeme of a source and the lexemes in front of it.
* `Source.Concerns`: what stands at the place of a report, by its problem.
* `Statement.read_points`, `Misplaced.points`, `Refusal.points`: the reports of the reader and of
  both walks.
* `reports_point_into_source`: the whole assembly.
-/

namespace LittleComputer
set_option autoImplicit false

/-! ## Lexemes with their places -/

/-- The place of the first character of a lexeme with `earlier` in front of it. -/
def Piece.place (file : Text) (earlier : List Piece) (piece : Piece) : Location :=
  .behind file (texts earlier ++ piece.gap)

/-- `piece` is a lexeme of the source, and `earlier` are those in front of it. -/
def Source.Shows (source : Source) (earlier : List Piece) (piece : Piece) : Prop :=
  ∃ later last, source.Partition (earlier ++ piece :: later) last ∧ IsGap [] last ∧
    source.tokens = .ok ((earlier ++ piece :: later).map Piece.token)

namespace Source.Shows
variable {source : Source} {earlier : List Piece} {piece : Piece}

theorem location_eq (h : source.Shows earlier piece) :
    piece.token.location = piece.place source.file earlier := by
  obtain ⟨later, last, hpartition, -⟩ := h
  exact (hpartition.pieces earlier piece later rfl).location

/-- A token that is no string has its lexeme for content. -/
theorem word (h : source.Shows earlier piece) (hkind : piece.token.kind ≠ .string) :
    piece.token.content = piece.lexeme ∧ piece.token.kind = .ofWord piece.lexeme := by
  obtain ⟨later, last, hpartition, -⟩ := h
  have hwritten := (hpartition.pieces earlier piece later rfl).lexeme
  generalize piece.lexeme = lexeme at hwritten
  cases hwritten with
  | word hofWord hcontent => exact ⟨hcontent, hofWord⟩
  | string hstring => exact absurd hstring hkind

theorem front {front back : List Piece} {original : Piece}
    (h : source.Shows (front ++ original :: back) piece) : source.Shows front original := by
  obtain ⟨later, last, hpartition, hlast, htokens⟩ := h
  rw [List.append_assoc, List.cons_append] at hpartition htokens
  exact ⟨_, last, hpartition, hlast, htokens⟩

end Source.Shows

theorem Source.exists_shows {source : Source} {front back : List Token} {token : Token}
    (h : source.tokens = .ok (front ++ token :: back)) :
    ∃ earlier piece, source.Shows earlier piece ∧ earlier.map Piece.token = front ∧
      piece.token = token := by
  obtain ⟨pieces, last, hpartition, htokens, hlast⟩ := partition_of_tokens h
  rw [← htokens] at h
  obtain ⟨earlier, rest, rfl, hearlier, hrest⟩ := List.map_eq_append_iff.1 htokens
  obtain ⟨piece, later, rfl, hpiece, -⟩ := List.map_eq_cons_iff.1 hrest
  exact ⟨earlier, piece, ⟨later, last, hpartition, hlast, h⟩, hearlier, hpiece⟩

/-! ## What a report is about -/

/-- The literals of immediates and their values. -/
inductive Lexeme.IsImmediate : Text → Int → Prop
  | hexadecimal {mark : Char} {numeral : Text} (hmark : mark = 'x' ∨ mark = 'X')
    (h : Numeral.IsLiteral 16 numeral) : IsImmediate (mark :: numeral) (Numeral.denoted 16 numeral)
  | decimal {numeral : Text} (h : Numeral.IsLiteral 10 numeral) :
    IsImmediate ('#' :: numeral) (Numeral.denoted 10 numeral)

/-- The lexeme is an operator, in small or capital letters. -/
def Piece.Spells (piece : Piece) (mnemonic : Mnemonic) : Prop :=
  piece.token.kind = .operator ∧ Text.upper piece.lexeme = mnemonic.spelling

/-- The token is an operand of a statement of the source, and `value` is the distance from the
address behind that statement to the label that the token names. -/
def Source.Distance (source : Source) (token : Token) (value : Int) : Prop :=
  ∃ tokens reading table before statement after address target,
    source.read = .ok (tokens, reading) ∧ SymbolTable.ofStatements reading.statements = .ok table ∧
      reading.statements = before ++ statement :: after ∧ token ∈ statement.operands ∧
      Stands before address ∧ table.address? token.content = some target ∧
      value = target - (address + 1)

/-- What the lexeme at the place of a report has to do with its problem. -/
inductive Source.Concerns (source : Source) (earlier : List Piece) (piece : Piece) : Problem → Prop
  | operatorExpected (hkind : piece.token.kind ≠ .operator) :
    Concerns source earlier piece (.operatorExpected piece.token)
  | operandMissing {mnemonic : Mnemonic} {place : Nat} {wanted : OperandKind}
    (hpiece : piece.Spells mnemonic) :
    Concerns source earlier piece (.operandMissing mnemonic place wanted)
  | operandMismatch {mnemonic : Mnemonic} {place : Nat} {wanted : OperandKind}
    (hkind : ¬ wanted.accepts piece.token.kind) :
    Concerns source earlier piece (.operandMismatch mnemonic place wanted piece.token)
  | outsideRegion {mnemonic : Mnemonic} {statement : Statement} (hpiece : piece.Spells mnemonic) :
    Concerns source earlier piece (.outsideRegion .layout statement)
  | addressRange {mnemonic : Mnemonic} {address : Int} (hpiece : piece.Spells mnemonic) :
    Concerns source earlier piece (.addressRange address)
  | duplicateLabel {mnemonic other : Mnemonic} {name : Text} {front back : List Piece}
    {original : Piece} (hpiece : piece.Spells mnemonic)
    (hearlier : earlier = front ++ original :: back) (horiginal : original.Spells other) :
    Concerns source earlier piece
      (.duplicateLabel name (some (original.place source.file front)))
  | wideCharacter {c : Char} (hkind : piece.token.kind = .string) (hc : c ∈ piece.token.content) :
    Concerns source earlier piece (.wideCharacter c)
  | undefinedLabel {similar : List Text} (hkind : piece.token.kind = .label) :
    Concerns source earlier piece (.undefinedLabel piece.lexeme similar)
  | immediateRange {value : Int} {bits : Nat} (hkind : piece.token.kind = .immediate)
    (hvalue : Lexeme.IsImmediate piece.lexeme value) :
    Concerns source earlier piece (.fieldRange value bits)
  | distanceRange {value : Int} {bits : Nat} (hkind : piece.token.kind = .label)
    (hvalue : source.Distance piece.token value) :
    Concerns source earlier piece (.fieldRange value bits)

/-- A report that names the place of the lexeme that it is about. -/
def Diagnostic.PointsInto (source : Source) (diagnostic : Diagnostic) : Prop :=
  ∃ earlier piece, source.Shows earlier piece ∧
    diagnostic.location = some (piece.place source.file earlier) ∧
    source.Concerns earlier piece diagnostic.problem

theorem Diagnostic.pointsInto {source : Source} {diagnostic : Diagnostic} {front back : List Token}
    {token : Token} (htokens : source.tokens = .ok (front ++ token :: back))
    (hlocation : diagnostic.location = some token.location)
    (hconcerns : ∀ earlier piece, source.Shows earlier piece → earlier.map Piece.token = front →
      piece.token = token → source.Concerns earlier piece diagnostic.problem) :
    diagnostic.PointsInto source := by
  obtain ⟨earlier, piece, hshows, hearlier, hpiece⟩ := Source.exists_shows htokens
  refine ⟨earlier, piece, hshows, ?_, hconcerns earlier piece hshows hearlier hpiece⟩
  rw [hlocation, ← hpiece, hshows.location_eq]

theorem Diagnostic.pointsInto_of_mem {source : Source} {diagnostic : Diagnostic}
    {tokens : List Token} {token : Token} (htokens : source.tokens = .ok tokens)
    (hmem : token ∈ tokens) (hlocation : diagnostic.location = some token.location)
    (hconcerns : ∀ earlier piece, source.Shows earlier piece → piece.token = token →
      source.Concerns earlier piece diagnostic.problem) : diagnostic.PointsInto source := by
  obtain ⟨front, back, rfl⟩ := List.append_of_mem hmem
  exact Diagnostic.pointsInto htokens hlocation fun earlier piece hshows _ hpiece =>
    hconcerns earlier piece hshows hpiece

section Tokens
variable {source : Source} {earlier : List Piece} {piece : Piece}

theorem Source.Shows.spells {mnemonic : Mnemonic} (h : source.Shows earlier piece)
    (hkind : piece.token.kind = .operator)
    (hspelled : Text.upper piece.token.content = mnemonic.spelling) : piece.Spells mnemonic := by
  obtain ⟨hcontent, -⟩ := h.word (by rw [hkind]; decide)
  exact ⟨hkind, hcontent ▸ hspelled⟩

theorem TokenKind.ofSpelling?_of_ofWord {word : Text} (h : ofWord word = .operator) :
    ∃ mnemonic, Mnemonic.ofSpelling? word = some mnemonic := by
  unfold ofWord at h
  split_ifs at h with _ _ _ hspelled
  exact Option.isSome_iff_exists.1 hspelled

theorem Lexeme.isImmediate_of_value {token : Token} {value : Int} (hkind : token.kind = .immediate)
    (hofWord : token.kind = .ofWord token.content) (hvalue : token.immediateValue = .ok value) :
    Lexeme.IsImmediate token.content value := by
  have himmediate := TokenKind.isImmediate_of_ofWord (hofWord.symm.trans hkind)
  have hhexadecimal : ∀ numeral, isNumeral isHexadecimal numeral = true →
      Token.readNumeral 16 numeral = .ok value →
      Numeral.IsLiteral 16 numeral ∧ Numeral.denoted 16 numeral = value := by
    intro numeral hnumeral hread
    have hliteral := Numeral.isLiteral_of_isNumeral (fun _ => .hexadecimal) hnumeral
    rw [Token.readNumeral_hexadecimal hliteral] at hread
    exact ⟨hliteral, Except.ok.inj hread⟩
  obtain ⟨kind, content, location⟩ := token
  subst hkind
  dsimp only at himmediate ⊢
  unfold Lexeme.isImmediate at himmediate
  split at himmediate
  · next numeral =>
    obtain ⟨hliteral, rfl⟩ := hhexadecimal numeral himmediate hvalue
    exact .hexadecimal (.inl rfl) hliteral
  · next numeral =>
    obtain ⟨hliteral, rfl⟩ := hhexadecimal numeral himmediate hvalue
    exact .hexadecimal (.inr rfl) hliteral
  · next numeral =>
    have hliteral := Numeral.isLiteral_of_isNumeral (fun _ => .decimal) himmediate
    have hread : Token.readNumeral 10 numeral = .ok value := hvalue
    -- a literal with too many digits has no value
    rcases Token.readNumeral_decimal hliteral with ⟨hdenoted, -⟩ | ⟨fault, hfault, -⟩
    · rw [hdenoted] at hread
      cases hread
      exact .decimal hliteral
    · rw [hfault] at hread
      cases hread
  · cases himmediate

end Tokens

/-! ## Reading -/

theorem Token.Refused.concerns {source : Source} {earlier : List Piece} {piece : Piece}
    {problem : Problem} (h : piece.token.Refused problem) (hshows : source.Shows earlier piece) :
    source.Concerns earlier piece problem := by
  cases h with
  | operatorExpected hkind => exact .operatorExpected hkind
  | operandMismatch hkind => exact .operandMismatch hkind
  | unknownOperator hkind hspelled =>
    -- a word of a source is an operator because it spells one
    obtain ⟨hcontent, hofWord⟩ := hshows.word (by rw [hkind]; decide)
    obtain ⟨mnemonic, hknown⟩ := TokenKind.ofSpelling?_of_ofWord (hofWord.symm.trans hkind)
    rw [hcontent, hknown] at hspelled
    cases hspelled

theorem Statement.read_points {source : Source} {tokens : List Token} {diagnostic : Diagnostic}
    (htokens : source.tokens = .ok tokens) (h : Statement.read tokens = .error diagnostic) :
    diagnostic.PointsInto source := by
  rcases Statement.read_eq_error h with ⟨token, hmem, problem, hrefused, rfl⟩ |
    ⟨statements, opened, wanted, further, hrun, rfl⟩
  · refine Diagnostic.pointsInto_of_mem htokens hmem rfl ?_
    rintro earlier piece hshows rfl
    exact hrefused.concerns hshows
  · -- the operator of the last statement is among the tokens that the run has met
    have hstart : (Pending.labels []).Holds [] := ⟨by simp, rfl⟩
    obtain ⟨phrases, back, hsplit, -, hbegins⟩ := Pending.run_holds hstart hrun
    obtain ⟨labels, hback, -, -⟩ := hbegins.split
    have hmem : opened.operator ∈ tokens := by
      rw [List.nil_append] at hsplit
      rw [hsplit, hback]
      simp
    refine Diagnostic.pointsInto_of_mem htokens hmem rfl ?_
    intro earlier piece hshows hpiece
    refine .operandMissing (hshows.spells ?_ ?_)
    · rw [hpiece]
      exact hbegins.operator_kind
    · rw [hpiece]
      exact hbegins.spelled

/-! ## Statements and their phrases -/

/-- A statement of a program comes from a phrase behind those of the statements before. -/
theorem Statement.read_split {tokens : List Token} {reading : Reading}
    {before after : List Statement} {statement : Statement}
    (h : Statement.read tokens = .ok reading)
    (hsplit : reading.statements = before ++ statement :: after) :
    ∃ (phrases : List Phrase) (phrase : Phrase) (rest : List Token),
      tokens = phrases.flatMap Phrase.tokens ++ phrase.tokens ++ rest ∧
        before = phrases.map Phrase.statement ∧ statement = phrase.statement := by
  obtain ⟨phrasing, rfl, hstatements⟩ := Statement.phrasing_of_read h
  rw [hsplit] at hstatements
  obtain ⟨phrases, others, hphrases, hbefore, hothers⟩ := List.map_eq_append_iff.1 hstatements.symm
  obtain ⟨phrase, further, rfl, hphrase, -⟩ := List.map_eq_cons_iff.1 hothers
  refine ⟨phrases, phrase, further.flatMap Phrase.tokens ++ phrasing.trailing, ?_, hbefore.symm,
    hphrase.symm⟩
  rw [Phrasing.tokens, hphrases]
  simp

/-- Only the vector that stands for a trap alias is no token of the phrase. -/
theorem Phrase.mem_operands {phrase : Phrase} {token : Token}
    (h : token ∈ phrase.statement.operands) :
    token ∈ phrase.operands ∨
      (phrase.statement.mnemonic = .trap ∧ token.kind = .immediate) := by
  have hyields := phrase.yields_statement
  cases hvector : phrase.mnemonic.trapVector? with
  | none =>
    rw [(hyields.plain hvector).2] at h
    exact .inl h
  | some vector =>
    obtain ⟨htrap, stand, hoperands, hkind, -⟩ := hyields.shortened vector hvector
    rw [hoperands, List.mem_singleton] at h
    exact .inr ⟨htrap, h ▸ hkind⟩

theorem Phrase.spells_operator {source : Source} {earlier : List Piece} {piece : Piece}
    {phrase : Phrase} (hshows : source.Shows earlier piece)
    (hpiece : piece.token = phrase.operator) : piece.Spells phrase.mnemonic := by
  apply hshows.spells
  · rw [hpiece]
    exact phrase.operator_kind
  · rw [hpiece]
    exact phrase.spelled

/-! ## Both walks -/

section Walks
variable {source : Source} {tokens : List Token} {reading : Reading}
  {before after : List Statement} {statement : Statement}

theorem Misplaced.points {problem : Problem} (h : Misplaced before statement problem)
    (hread : source.read = .ok (tokens, reading))
    (hsplit : reading.statements = before ++ statement :: after) :
    (Diagnostic.plain problem statement.location).PointsInto source := by
  obtain ⟨htokens, hread⟩ := Source.read_eq_ok hread
  obtain ⟨phrases, phrase, rest, rfl, hbefore, rfl⟩ := Statement.read_split hread hsplit
  have hoperator : source.tokens = .ok ((phrases.flatMap Phrase.tokens ++ phrase.labels) ++
      phrase.operator :: (phrase.operands ++ rest)) := by
    rw [htokens]
    simp [Phrase.tokens]
  refine Diagnostic.pointsInto hoperator phrase.yields_statement.location ?_
  intro earlier piece hshows hearlier hpiece
  have hspells := Phrase.spells_operator hshows hpiece
  cases h with
  | nowhere => exact .outsideRegion hspells
  | outside => exact .addressRange hspells
  | @taken address fresh others name front back first hstands hmemory hlabels hfresh hfront =>
    -- the statement with the label before is a phrase among those in front
    rw [hbefore] at hfront
    obtain ⟨leading, trailing, rfl, -, htrailing⟩ := List.map_eq_append_iff.1 hfront
    obtain ⟨original, between, rfl, rfl, -⟩ := List.map_eq_cons_iff.1 htrailing
    have hfirst : earlier.map Piece.token =
        (leading.flatMap Phrase.tokens ++ original.labels) ++ original.operator ::
          (original.operands ++ between.flatMap Phrase.tokens ++ phrase.labels) := by
      rw [hearlier]
      simp [Phrase.tokens]
    obtain ⟨pieces, further, rfl, -, hfurther⟩ := List.map_eq_append_iff.1 hfirst
    obtain ⟨defining, later, rfl, hdefining, -⟩ := List.map_eq_cons_iff.1 hfurther
    have hshown := hshows.front
    have hlocation : original.statement.location =
        some (defining.place source.file pieces) := by
      rw [original.yields_statement.location, ← hdefining, hshown.location_eq]
    show source.Concerns _ piece (.duplicateLabel name original.statement.location)
    rw [hlocation]
    exact .duplicateLabel hspells rfl (Phrase.spells_operator hshown hdefining)

theorem Refusal.points {table : SymbolTable} {address : Int} {diagnostic : Diagnostic}
    (h : Refusal table address statement diagnostic) (hread : source.read = .ok (tokens, reading))
    (htable : SymbolTable.ofStatements reading.statements = .ok table)
    (hsplit : reading.statements = before ++ statement :: after) (hstands : Stands before address) :
    diagnostic.PointsInto source := by
  obtain ⟨htokens, hstatements⟩ := Source.read_eq_ok hread
  obtain ⟨phrases, phrase, rest, hphrases, -, rfl⟩ := Statement.read_split hstatements hsplit
  have hoperands : ∀ token ∈ phrase.operands, token ∈ tokens := by
    intro token htoken
    rw [hphrases]
    simp [Phrase.tokens, htoken]
  cases h with
  | @undefined token htoken hkind htarget =>
    rcases Phrase.mem_operands htoken with hmem | ⟨-, himmediate⟩
    · refine Diagnostic.pointsInto_of_mem htokens (hoperands token hmem) rfl ?_
      rintro earlier piece hshows rfl
      rw [(hshows.word (by rw [hkind]; decide)).1]
      exact .undefinedLabel hkind
    · rw [hkind] at himmediate
      cases himmediate
  | @range token value field htoken hvalue hfield hrange =>
    rcases Phrase.mem_operands htoken with hmem | ⟨htrap, -⟩
    · refine Diagnostic.pointsInto_of_mem htokens (hoperands token hmem) rfl ?_
      rintro earlier piece hshows rfl
      cases hvalue with
      | immediate hkind hvalue =>
        obtain ⟨hcontent, hofWord⟩ := hshows.word (by rw [hkind]; decide)
        rw [← hcontent] at hofWord
        refine .immediateRange hkind ?_
        rw [← hcontent]
        exact Lexeme.isImmediate_of_value hkind hofWord hvalue
      | distance hkind htarget =>
        exact .distanceRange hkind ⟨tokens, reading, table, before, phrase.statement, after,
          address, _, hread, htable, hsplit, htoken, hstands, htarget, rfl⟩
    · rw [htrap] at hfield
      cases hfield
  | @character token text narrow wide c htoken htext hchar hnarrow hwide =>
    have hkind : token.kind = .string := by
      by_contra hkind
      exact Token.stringText_ne_ok hkind htext
    rcases Phrase.mem_operands htoken with hmem | ⟨-, himmediate⟩
    · refine Diagnostic.pointsInto_of_mem htokens (hoperands token hmem) rfl ?_
      rintro earlier piece hshows rfl
      rw [Token.stringText_eq hkind] at htext
      have hc : c ∈ piece.token.content.tail.dropLast := by
        rw [Except.ok.inj htext, hchar]
        simp
      exact .wideCharacter hkind (List.mem_of_mem_tail (List.mem_of_mem_dropLast hc))
    · rw [hkind] at himmediate
      cases himmediate

end Walks

/-! ## Sources -/

theorem Source.tokens_points {source : Source} {diagnostic : Diagnostic}
    (h : source.tokens = .error diagnostic) :
    ∃ pieces gap body, source.Partition pieces (gap ++ '"' :: body) ∧ IsGap ('"' :: body) gap ∧
      Unclosed body ∧ diagnostic.category = .lexical ∧
      diagnostic.location = some (.behind source.file (Piece.texts pieces ++ gap)) := by
  obtain ⟨pieces, rest, hpartition, -, hends⟩ := source.scan_partition
  rw [tokens_eq_error.1 h] at hends
  cases hends with
  | @unclosed gap body hgap hbody =>
    refine ⟨pieces, gap, body, hpartition, hgap, hbody, rfl, ?_⟩
    rw [← locate_after]
    rfl

theorem Source.Concerns.category_ne {source : Source} {earlier : List Piece} {piece : Piece}
    {problem : Problem} (h : source.Concerns earlier piece problem) :
    problem.category ≠ .lexical := by
  cases h <;> simp [Problem.category]

theorem Assembly.ofStatements_points {source : Source} {tokens : List Token} {reading : Reading}
    {diagnostic : Diagnostic} (hread : source.read = .ok (tokens, reading))
    (h : Assembly.ofStatements reading.statements = .error (.diagnostic diagnostic)) :
    diagnostic.PointsInto source := by
  have hwell := Source.read_wellFormed hread
  have houtcome := SymbolTable.ofStatements_outcome hwell
  unfold Assembly.ofStatements at h
  cases htable : SymbolTable.ofStatements reading.statements with
  | error failure =>
    rw [htable] at h houtcome
    cases h
    generalize hfailure : Failure.diagnostic diagnostic = failure at houtcome
    cases houtcome with
    | beyond => cases hfailure
    | stopped hsplit hplaced hgood hstops =>
      obtain ⟨problem, hmisplaced, rfl⟩ := hstops
      rw [Diagnostic.eq_of_failure_eq hfailure.symm]
      exact hmisplaced.points hread hsplit
  | ok table =>
    have hrecords := SymbolTable.records_of_ofStatements hwell htable
    rw [htable] at h
    rcases hrecords.encoding_cases hwell with ⟨blocks, hok, -⟩ |
      ⟨before, statement, after, address, reported, hsplit, -, hstands, -, -, hrefusal, herror⟩ |
      ⟨statement, fault, -, -, hfault⟩
    · simp only [bind, Except.bind, hok] at h
      cases h
    · simp only [bind, Except.bind, herror] at h
      rw [Diagnostic.eq_of_failure_eq (Except.error.inj h)]
      exact hrefusal.points hread htable hsplit hstands
    · simp only [bind, Except.bind, hfault] at h
      cases h

theorem Source.read_points {source : Source} {diagnostic : Diagnostic}
    (h : source.read = .error (.diagnostic diagnostic)) :
    source.tokens = .error diagnostic ∨ diagnostic.PointsInto source := by
  unfold Source.read at h
  split at h
  · next reported htokens =>
    rw [Diagnostic.eq_of_failure_eq (Except.error.inj h)]
    exact .inl htokens
  · next tokens htokens =>
    split at h
    · next reported hread =>
      rw [Diagnostic.eq_of_failure_eq (Except.error.inj h)]
      exact .inr (Statement.read_points htokens hread)
    · cases h

/-- **Every report points into the source.** It has a place, in the file of the source. That is the
opening quote of a string that is not closed, or the first character of a lexeme that the report is
about. -/
theorem reports_point_into_source {source : Source} {diagnostic : Diagnostic}
    (h : source.assemble = .error (.diagnostic diagnostic)) :
    (diagnostic.category = .lexical ∧ ∃ (pieces : List Piece) (gap body : Text),
        source.Partition pieces (gap ++ '"' :: body) ∧ IsGap ('"' :: body) gap ∧ Unclosed body ∧
        diagnostic.location = some (.behind source.file (Piece.texts pieces ++ gap))) ∨
      (diagnostic.category ≠ .lexical ∧ ∃ (earlier : List Piece) (piece : Piece),
        source.Shows earlier piece ∧
        diagnostic.location = some (piece.place source.file earlier) ∧
        source.Concerns earlier piece diagnostic.problem) := by
  have hcases : source.tokens = .error diagnostic ∨ diagnostic.PointsInto source := by
    unfold Source.assemble at h
    cases hread : source.read with
    | error failure =>
      rw [hread] at h
      cases h
      exact Source.read_points hread
    | ok result =>
      rw [hread] at h
      exact .inr (Assembly.ofStatements_points hread h)
  rcases hcases with htokens | ⟨earlier, piece, hshows, hlocation, hconcerns⟩
  · obtain ⟨pieces, gap, body, hpartition, hgap, hbody, hcategory, hlocation⟩ :=
      Source.tokens_points htokens
    exact .inl ⟨hcategory, pieces, gap, body, hpartition, hgap, hbody, hlocation⟩
  · exact .inr ⟨hconcerns.category_ne, earlier, piece, hshows, hlocation, hconcerns⟩

/-- A label of two aliases, behind a string of two lines and in front of an undefined label. -/
def Source.repeated : Source :=
  ⟨"r.asm".toList, ".ORIG x3000 .STRINGZ \"a\nb\" A,halt ;A\n  A A Getc LD R0 B .END".toList⟩

theorem reports_point_into_source_repeated :
    ∃ diagnostic, Source.repeated.assemble = .error (.diagnostic diagnostic) ∧
      diagnostic.location = some ⟨"r.asm".toList, 3, 7⟩ ∧
      ∃ (earlier : List Piece) (piece : Piece), Source.repeated.Shows earlier piece ∧
        diagnostic.location = some (piece.place "r.asm".toList earlier) ∧
        Source.repeated.Concerns earlier piece
          (.duplicateLabel "A".toList (some ⟨"r.asm".toList, 2, 6⟩)) := by
  have hfails : Source.repeated.assemble = .error (.diagnostic (.plain
      (.duplicateLabel "A".toList (some ⟨"r.asm".toList, 2, 6⟩))
      (some ⟨"r.asm".toList, 3, 7⟩))) := by
    decide +kernel
  rcases reports_point_into_source hfails with ⟨hlexical, -⟩ | ⟨-, hpoints⟩
  · cases hlexical
  · exact ⟨_, hfails, rfl, hpoints⟩

end LittleComputer
