import LittleComputer.Proofs.RoundTrip
import LittleComputer.Proofs.Spacing
import LittleComputer.Proofs.Wording
import Mathlib.Tactic

/-! # Shorthands

Some operators are short for others: the trap aliases for `TRAP` with a vector, `RET` for `JMP R7`
and `BR` for `BRNZP`. An alias is gone once its statement is read; the other two have their own
encodings, which come out as those of the operators that they stand for.

* `Mnemonic.asTrap?`, `Mnemonic.longhand?`: what operators are short for.
* `Token.expanded`: a token, or what it is short for.
* `Token.expanded_means`: expanding is a rewording.
* `shorthands_expand`: a program and its expansion.
-/

namespace LittleComputer
set_option autoImplicit false

/-- An operator and the operands that go with it, by kind and content. -/
structure Longhand where
  mnemonic : Mnemonic
  operands : List (TokenKind × Text)

namespace Mnemonic

/-- The trap and the vector that an alias is short for. -/
def asTrap? : Mnemonic → Option Longhand
  | .getc => some ⟨.trap, [(.immediate, "x20".toList)]⟩
  | .out => some ⟨.trap, [(.immediate, "x21".toList)]⟩
  | .puts => some ⟨.trap, [(.immediate, "x22".toList)]⟩
  | .input => some ⟨.trap, [(.immediate, "x23".toList)]⟩
  | .putsp => some ⟨.trap, [(.immediate, "x24".toList)]⟩
  | .halt => some ⟨.trap, [(.immediate, "x25".toList)]⟩
  | _ => none

/-- What an operator is short for. -/
def longhand? : Mnemonic → Option Longhand
  | .ret => some ⟨.jmp, [(.register, "R7".toList)]⟩
  | .br => some ⟨.brnzp, []⟩
  | mnemonic => mnemonic.asTrap?

/-- The vectors are those by which a reader opens the aliases. -/
theorem trapVector?_of_asTrap? {mnemonic : Mnemonic} {longhand : Longhand}
    (h : mnemonic.asTrap? = some longhand) :
    ∃ vector, mnemonic.trapVector? = some vector ∧
      longhand = ⟨.trap, [(.immediate, 'x' :: Numeral.digits 16 vector)]⟩ := by
  have hlonghand : ∀ {digits : Text} {vector : Nat}, digits = Numeral.digits 16 vector →
      (⟨.trap, [(.immediate, 'x' :: digits)]⟩ : Longhand) =
        ⟨.trap, [(.immediate, 'x' :: Numeral.digits 16 vector)]⟩ := by
    rintro _ _ rfl
    rfl
  cases mnemonic <;> cases h <;> exact ⟨_, rfl, hlonghand (by decide +kernel)⟩

end Mnemonic

/-- The tokens of a longhand in one place. -/
def Longhand.tokens (longhand : Longhand) (location : Location) : List Token :=
  ⟨.operator, longhand.mnemonic.spelling, location⟩ ::
    longhand.operands.map fun operand => ⟨operand.1, operand.2, location⟩

/-- The tokens that stand for a token when shorthands are written out. -/
def Token.expanded (longhand? : Mnemonic → Option Longhand) (token : Token) : List Token :=
  if token.kind = .operator then
    match (Mnemonic.ofSpelling? token.content).bind longhand? with
    | some longhand => longhand.tokens token.location
    | none => [token]
  else [token]

namespace Token

theorem expanded_cases (longhand? : Mnemonic → Option Longhand) (t : Token) :
    t.expanded longhand? = [t] ∨ ∃ mnemonic longhand, t.kind = .operator ∧
      Mnemonic.ofSpelling? t.content = some mnemonic ∧ longhand? mnemonic = some longhand ∧
      t.expanded longhand? = longhand.tokens t.location := by
  unfold expanded
  split
  · next hkind =>
    split
    · next longhand hlonghand =>
      obtain ⟨mnemonic, hspelled, hlonghand⟩ := Option.bind_eq_some_iff.1 hlonghand
      exact .inr ⟨mnemonic, longhand, hkind, hspelled, hlonghand, rfl⟩
    · exact .inl rfl
  · exact .inl rfl

theorem expanded_means (t : Token) : t.Means (t.expanded Mnemonic.longhand?) := by
  rcases t.expanded_cases Mnemonic.longhand? with
    hsame | ⟨mnemonic, longhand, hkind, hspelled, hlonghand, hexpanded⟩
  · rw [hsame]
    exact .spelled (.refl t)
  · rw [hexpanded]
    unfold Mnemonic.longhand? at hlonghand
    split at hlonghand
    · cases hlonghand
      exact .goBack hkind hspelled
    · cases hlonghand
      refine .spelled ⟨hkind.symm, rfl, fun _ => ?_, ?_, ?_, ?_⟩
      · rw [hspelled, Mnemonic.ofSpelling?_spelling]
        exact .some .branch
      -- it is no token of another kind
      · simp [hkind]
      · simp [hkind]
      · simp [hkind]
    · obtain ⟨vector, hvector, rfl⟩ := Mnemonic.trapVector?_of_asTrap? hlonghand
      exact .asTrap hkind hspelled hvector

end Token

/-- With aliases written out, a reader holds and makes just the same. -/
theorem Pending.simulation_asTrap :
    Simulation (fun t us => us = t.expanded Mnemonic.asTrap?) Eq Eq where
  start := rfl
  token := by
    rintro p _ t _ rfl rfl
    have hsame : ∀ a b : List Statement × Pending, b = a → List.Forall₂ Eq a.1 b.1 ∧ a.2 = b.2 := by
      rintro a _ rfl
      exact ⟨List.forall₂_same.2 fun _ _ => rfl, rfl⟩
    rcases t.expanded_cases Mnemonic.asTrap? with
      heq | ⟨mnemonic, longhand, hkind, hspelled, hlonghand, hexpanded⟩
    · rw [heq]
      exact (Mirrors.same (p.run [t]) fun e _ => .refl _).imp (fun _ _ => id) hsame
    · obtain ⟨vector, hvector, rfl⟩ := Mnemonic.trapVector?_of_asTrap? hlonghand
      rw [hexpanded]
      exact (run_alias hkind hspelled hvector p).imp (fun _ _ => id) hsame
  finish := by
    rintro p _ rfl
    exact .same p.finish fun e _ => .refl _

theorem Statement.read_expanded (ts : List Token) :
    Mirrors False False Diagnostic.Alike
      (fun r r' => r'.statements = r.statements ∧ r'.trailing = r.trailing)
      (Statement.read ts) (Statement.read (ts.flatMap (Token.expanded Mnemonic.asTrap?))) := by
  have hmeans : List.Forall₂ (fun t us => us = t.expanded Mnemonic.asTrap?) ts
      (ts.map (Token.expanded Mnemonic.asTrap?)) :=
    List.forall₂_map_right_iff.2 (List.forall₂_same.2 fun _ _ => rfl)
  rw [List.flatMap_def]
  refine (Pending.simulation_asTrap.read hmeans).imp (fun _ _ => id) fun r r' hr => ?_
  exact hr.imp_left fun h => (List.forall₂_eq_eq_eq ▸ h).symm

/-- **Shorthands mean what they are short for.** A program and the one with all shorthands written
out, each in any place, are assembled or not alike, and to the same symbols and blocks. If only the
trap aliases are written out, the statements are the same. -/
theorem shorthands_expand (ts us : List Token) :
    (List.Forall₂ (fun t u => t.agrees u = true) (ts.flatMap (Token.expanded Mnemonic.longhand?))
        us →
      ((∃ a, Token.assemble ts = .ok a) ↔ ∃ b, Token.assemble us = .ok b) ∧
      ∀ a b, Token.assemble ts = .ok a → Token.assemble us = .ok b →
        b.symbols.symbols.map (fun symbol => (symbol.name, symbol.address)) =
            a.symbols.symbols.map (fun symbol => (symbol.name, symbol.address)) ∧
          b.blocks.map Block.address = a.blocks.map Block.address ∧
          b.blocks.map Block.words = a.blocks.map Block.words) ∧
    (List.Forall₂ (fun t u => t.agrees u = true) (ts.flatMap (Token.expanded Mnemonic.asTrap?))
        us →
      ((∃ r, Statement.read ts = .ok r) ↔ ∃ r', Statement.read us = .ok r') ∧
      ∀ r r', Statement.read ts = .ok r → Statement.read us = .ok r' →
        List.Forall₂ (fun s s' => s.agrees s' = true) r.statements r'.statements ∧
          r'.trailing = r.trailing) := by
  constructor
  · intro h
    have hmeans : List.Forall₂ Token.Means ts (ts.map (Token.expanded Mnemonic.longhand?)) :=
      List.forall₂_map_right_iff.2 (List.forall₂_same.2 fun t _ => t.expanded_means)
    have hmaps : List.Forall₂ Change.anywhere.MapsToken
        (ts.map (Token.expanded Mnemonic.longhand?)).flatten us := by
      rw [← List.flatMap_def]
      exact h.imp fun _ _ => Change.mapsToken_of_agrees
    obtain ⟨hiff, hsame, -⟩ :=
      ((Token.assemble_reworded hmeans).comp (Change.mirrors_assemble hmaps)).outcomes
    refine ⟨hiff, fun a b ha hb => ?_⟩
    obtain ⟨middle, htwins, hplaced⟩ := hsame a b ha hb
    have hsymbols : b.symbols.symbols.map (fun symbol => (symbol.name, symbol.address)) =
        middle.symbols.symbols.map (fun symbol => (symbol.name, symbol.address)) :=
      map_eq_of_forall₂ hplaced.symbols fun _ _ hx =>
        Prod.ext hx.name (hx.address.trans (Int.add_zero _))
    rw [hsymbols, hplaced.blockAddresses, hplaced.blockWords, htwins.symbols,
      htwins.blockAddresses, htwins.blockWords]
    exact ⟨rfl, rfl, rfl⟩
  · intro h
    have hmaps : List.Forall₂ Change.anywhere.MapsToken _ us :=
      h.imp fun _ _ => Change.mapsToken_of_agrees
    obtain ⟨hiff, hsame, -⟩ :=
      ((Statement.read_expanded ts).comp (Change.mirrors_read hmaps)).outcomes
    refine ⟨hiff, fun r r' hr hr' => ?_⟩
    obtain ⟨middle, ⟨hstatements, htrailing⟩, hplaced⟩ := hsame r r' hr hr'
    rw [← hstatements, ← htrailing]
    refine ⟨hplaced.statements.imp fun _ _ => Statement.agrees_of_mapsPhrase, ?_⟩
    exact hplaced.trailing.trans (List.map_id _)

/-- A program with an alias, a return and a branch, in short and in long, in one line. -/
def Source.wordy (trap others : String) : Source :=
  ⟨[], (".ORIG x3000 A " ++ trap ++ " " ++ others ++ " A .END").toList⟩

theorem shorthands_expand_wordy :
    ∃ ts us vs, (Source.wordy "Halt" "ret BR").tokens = .ok ts ∧
      (Source.wordy "TRAP x25" "JMP R7 BRNZP").tokens = .ok us ∧
      (Source.wordy "TRAP x25" "ret BR").tokens = .ok vs ∧
      (∃ b, Token.assemble us = .ok b ∧
        b.blocks.map Block.words = [[0xF025#16], [0xC1C0#16], [0x0FFD#16]]) ∧
      ∃ r r', Statement.read ts = .ok r ∧ Statement.read vs = .ok r' ∧
        List.Forall₂ (fun s s' => s.agrees s' = true) r.statements r'.statements := by
  have htokens : ∃ ts, (Source.wordy "Halt" "ret BR").tokens = .ok ts ∧
      (∃ us, (Source.wordy "TRAP x25" "JMP R7 BRNZP").tokens = .ok us ∧
        (ts.flatMap (Token.expanded Mnemonic.longhand?)).length = us.length ∧
        ∀ pair ∈ (ts.flatMap (Token.expanded Mnemonic.longhand?)).zip us,
          pair.1.agrees pair.2 = true) ∧
      (∃ vs, (Source.wordy "TRAP x25" "ret BR").tokens = .ok vs ∧
        (ts.flatMap (Token.expanded Mnemonic.asTrap?)).length = vs.length ∧
        ∀ pair ∈ (ts.flatMap (Token.expanded Mnemonic.asTrap?)).zip vs,
          pair.1.agrees pair.2 = true) ∧
      (∃ a, Token.assemble ts = .ok a ∧
        a.blocks.map Block.words = [[0xF025#16], [0xC1C0#16], [0x0FFD#16]]) ∧
      ∃ r, Statement.read ts = .ok r ∧ r.trailing = [] := by
    decide +kernel
  obtain ⟨ts, hts, ⟨us, hus, hlength, hagrees⟩, ⟨vs, hvs, hlength', hagrees'⟩, ⟨a, ha, hwords⟩,
    r, hr, -⟩ := htokens
  have hlong := (shorthands_expand ts us).1
    (List.forall₂_iff_zip.2 ⟨hlength, fun hmem => hagrees _ hmem⟩)
  have htraps := (shorthands_expand ts vs).2
    (List.forall₂_iff_zip.2 ⟨hlength', fun hmem => hagrees' _ hmem⟩)
  obtain ⟨b, hb⟩ := hlong.1.1 ⟨a, ha⟩
  obtain ⟨r', hr'⟩ := htraps.1.1 ⟨r, hr⟩
  refine ⟨ts, us, vs, hts, hus, hvs, ⟨b, hb, ?_⟩, r, r', hr, hr', (htraps.2 r r' hr hr').1⟩
  rw [(hlong.2 a b ha hb).2.2, hwords]

end LittleComputer
