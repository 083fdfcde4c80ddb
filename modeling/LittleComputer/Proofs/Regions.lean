import LittleComputer.Proofs.Concatenation
import Mathlib.Tactic

/-! # The order of regions

A program is made of two parts that both start anew. Either may refer to labels of the other, so
neither need assemble on its own. Still the parts are walked one by one: the counter does not pass
from the one to the other, and a table tells the addresses of its labels in any order.

* `SymbolTable.extend_anew`, `Block.encodeFrom_anew`: both walks over two parts.
* `SymbolTable.ofStatements_append_eq_ok`: two parts have a table exactly if each has one and no
  label is in both.
* `Assembly.swap`: what assembles in one order assembles in the other.
* `region_order_irrelevant`: the order shows in nothing but the order of the blocks.
-/

namespace LittleComputer
set_option autoImplicit false

/-! ## Both walks over two parts -/

instance (statements : List Statement) : Decidable (StartsAnew statements) :=
  inferInstanceAs (Decidable (∀ statement ∈ statements.head?, _))

theorem Relabelled.refl (statements : List Statement) : Relabelled statements statements := by
  cases statements with
  | nil => exact .nil
  | cons statement rest => exact .cons statement statement.labels rest

section Anew
variable {back : List Statement}

theorem SymbolTable.extend_anew (hback : StartsAnew back) (table : SymbolTable)
    (counter : Option Int) (front : List Statement) :
    table.extend counter (front ++ back) =
      (table.extend counter front).bind (·.extend none back) := by
  induction front generalizing table counter with
  | nil => exact extend_relabelled (.refl back) hback table counter
  | cons statement front ih =>
    rw [List.cons_append]
    rcases statement.sort_cases with horig | hfinish | hplaced
    · rw [extend_orig horig, extend_orig horig]
      cases statement.origin with
      | error failure => rfl
      | ok value => exact ih table (some value)
    · rw [extend_finish hfinish, extend_finish hfinish]
      exact ih table none
    · cases counter with
      | none =>
        rw [extend_nowhere hplaced, extend_nowhere hplaced]
        rfl
      | some address =>
        rw [extend_placed hplaced, extend_placed hplaced]
        split
        · cases (table.defineAll address statement.location statement.labels).mapError
            Diagnostic.failure with
          | error failure => rfl
          | ok next =>
            cases statement.footprint with
            | error failure => rfl
            | ok size => exact ih next (some (address + size))
        · rfl

theorem Block.encodeFrom_anew (hback : StartsAnew back) (table : SymbolTable)
    (counter : Option Int) (front : List Statement) :
    encodeFrom table counter (front ++ back) =
      (encodeFrom table counter front).bind fun blocks =>
        (encodeFrom table none back).map (blocks ++ ·) := by
  induction front generalizing counter with
  | nil =>
    have hnone : ∀ result : Except Failure (List Block), result.map ([] ++ ·) = result := by
      rintro (failure | blocks) <;> rfl
    rw [List.nil_append, encodeFrom_relabelled (.refl back) hback, encodeFrom]
    exact (hnone _).symm
  | cons statement front ih =>
    rw [List.cons_append]
    rcases statement.sort_cases with horig | hfinish | hplaced
    · rw [encodeFrom_orig horig, encodeFrom_orig horig]
      cases statement.origin with
      | error failure => rfl
      | ok value => exact ih (some value)
    · rw [encodeFrom_finish hfinish, encodeFrom_finish hfinish]
      exact ih none
    · cases counter with
      | none =>
        rw [encodeFrom_nowhere hplaced, encodeFrom_nowhere hplaced]
        rfl
      | some address =>
        rw [encodeFrom_placed hplaced, encodeFrom_placed hplaced]
        cases statement.encode table (address + 1) with
        | error failure => rfl
        | ok words =>
          cases statement.footprint with
          | error failure => rfl
          | ok size =>
            simp only [Except.bind, ih]
            cases encodeFrom table (some (address + size)) front with
            | error failure => rfl
            | ok blocks =>
              simp only [Except.map]
              cases encodeFrom table none back <;> rfl

end Anew

/-! ## Tables of two parts -/

namespace SymbolTable
variable {front table result : SymbolTable}

theorem firstShared_comm :
    front.firstShared table = none ↔ table.firstShared front = none := by
  rw [firstShared_eq_none, firstShared_eq_none]
  exact ⟨fun h name hfront htable => h name htable hfront,
    fun h name htable hfront => h name hfront htable⟩

/-- Tables without a common label tell the same in either order. -/
theorem find?_behind_comm (h : front.firstShared table = none) (name : Text) :
    (front.behind table).find? name = (table.behind front).find? name := by
  rw [find?_behind, find?_behind]
  by_cases hname : name ∈ table.names
  · rw [find?_eq_none_iff.2 (firstShared_eq_none.1 h name hname), Option.none_or, Option.or_none]
  · rw [find?_eq_none_iff.2 hname, Option.none_or, Option.or_none]

theorem defineAll_of_behind {labels : List Text} {address : Int} {location : Option Location}
    (h : (front.behind table).defineAll address location labels = .ok result) :
    ∃ next, table.defineAll address location labels = .ok next ∧ result = front.behind next := by
  induction labels generalizing table with
  | nil =>
    cases h
    exact ⟨table, rfl, rfl⟩
  | cons name labels ih =>
    obtain ⟨hfind, hrest⟩ := defineAll_cons_eq_ok h
    rw [find?_behind, Option.or_eq_none_iff] at hfind
    rw [append_behind] at hrest
    obtain ⟨next, hnext, hresult⟩ := ih hrest
    refine ⟨next, ?_, hresult⟩
    rw [defineAll_cons_of_none hfind.2]
    exact hnext

/-- A walk that passes behind a table passes without it. -/
theorem extend_of_behind {counter : Option Int} {statements : List Statement}
    (h : (front.behind table).extend counter statements = .ok result) :
    ∃ next, table.extend counter statements = .ok next ∧ result = front.behind next := by
  induction statements generalizing table counter with
  | nil =>
    cases h
    exact ⟨table, rfl, rfl⟩
  | cons statement rest ih =>
    obtain ⟨middle, counter', hadvances, hrest⟩ := advances_of_extend h
    cases hadvances with
    | orig h hvalue =>
      rw [Advances.extend (.orig h hvalue)]
      exact ih hrest
    | finish h =>
      rw [Advances.extend (.finish h)]
      exact ih hrest
    | placed hplaced hmemory hmiddle hsize =>
      obtain ⟨next, hnext, rfl⟩ := defineAll_of_behind hmiddle
      rw [Advances.extend (.placed hplaced hmemory hnext hsize)]
      exact ih hrest

theorem ofStatements_append_eq_ok {a b : List Statement} (hb : StartsAnew b) :
    ofStatements (a ++ b) = .ok table ↔
      ∃ first second, ofStatements a = .ok first ∧ ofStatements b = .ok second ∧
        first.firstShared second = none ∧ table = first.behind second := by
  have hempty : ∀ first : SymbolTable, first.behind empty = first := fun first => by
    rw [behind, empty, List.append_nil]
  rw [ofStatements, extend_anew hb]
  constructor
  · intro h
    obtain ⟨first, hfirst, h⟩ := bind_eq_ok.1 h
    rw [← hempty first] at h
    obtain ⟨second, hsecond, rfl⟩ := extend_of_behind h
    have hjoins : Joins first second ((first.behind empty).extend none b) :=
      extend_behind hsecond rfl
    rw [h] at hjoins
    cases hjoins with
    | fresh hfresh => exact ⟨first, second, hfirst, hsecond, hfresh, rfl⟩
  · rintro ⟨first, second, hfirst, hsecond, hfresh, rfl⟩
    have hjoins : Joins first second ((first.behind empty).extend none b) :=
      extend_behind hsecond rfl
    have hwalk : first.extend none b = .ok (first.behind second) := by
      rw [hempty] at hjoins
      generalize first.extend none b = outcome at hjoins
      cases hjoins with
      | fresh => rfl
      | shared hshared =>
        rw [hfresh] at hshared
        cases hshared
    exact bind_eq_ok.2 ⟨first, hfirst, hwalk⟩

end SymbolTable

/-! ## Blocks of two parts -/

namespace Block
variable {table : SymbolTable}

theorem ofStatements_append_eq_ok {a b : List Statement} (hb : StartsAnew b) {blocks : List Block} :
    ofStatements table (a ++ b) = .ok blocks ↔
      ∃ first second, ofStatements table a = .ok first ∧ ofStatements table b = .ok second ∧
        blocks = first ++ second := by
  rw [ofStatements, encodeFrom_anew hb]
  constructor
  · intro h
    obtain ⟨first, hfirst, h⟩ := bind_eq_ok.1 h
    obtain ⟨second, hsecond, rfl⟩ := map_eq_ok.1 h
    exact ⟨first, second, hfirst, hsecond, rfl⟩
  · rintro ⟨first, second, hfirst, hsecond, rfl⟩
    exact bind_eq_ok.2 ⟨first, hfirst, map_eq_ok.2 ⟨second, hsecond, rfl⟩⟩

end Block

/-! ## Programs of two parts -/

theorem Assembly.swap {a b : List Statement} {ab : Assembly} (ha : StartsAnew a)
    (hb : StartsAnew b) (h : Assembly.ofStatements (a ++ b) = .ok ab) :
    ∃ ba front back, Assembly.ofStatements (b ++ a) = .ok ba ∧
      (∀ name, ba.symbols.find? name = ab.symbols.find? name) ∧
      ab.blocks = front ++ back ∧ ba.blocks = back ++ front ∧
      front.map Block.statement = a.filter Statement.isPlaced ∧
      back.map Block.statement = b.filter Statement.isPlaced := by
  obtain ⟨-, htable, hblocks⟩ := Assembly.ofStatements_eq_ok.1 h
  obtain ⟨first, second, hfirst, hsecond, hfresh, hsymbols⟩ :=
    (SymbolTable.ofStatements_append_eq_ok hb).1 htable
  obtain ⟨front, back, hfront, hback, hjoined⟩ := (Block.ofStatements_append_eq_ok hb).1 hblocks
  have hsame : ∀ name, (second.behind first).find? name = ab.symbols.find? name := by
    intro name
    rw [hsymbols, SymbolTable.find?_behind_comm hfresh]
  have hlarger : ∀ name symbol, ab.symbols.find? name = some symbol →
      (second.behind first).find? name = some symbol := by
    intro name symbol hfind
    rw [hsame, hfind]
  have htable' : SymbolTable.ofStatements (b ++ a) = .ok (second.behind first) :=
    (SymbolTable.ofStatements_append_eq_ok ha).2
      ⟨second, first, hsecond, hfirst, SymbolTable.firstShared_comm.1 hfresh, rfl⟩
  have hblocks' : Block.ofStatements (second.behind first) (b ++ a) = .ok (back ++ front) :=
    (Block.ofStatements_append_eq_ok ha).2
      ⟨back, front, Block.encodeFrom_larger hlarger hback, Block.encodeFrom_larger hlarger hfront,
        rfl⟩
  refine ⟨⟨b ++ a, second.behind first, back ++ front⟩, front, back, ?_, hsame, hjoined, rfl, ?_, ?_⟩
  · exact Assembly.ofStatements_eq_ok.2 ⟨rfl, htable', hblocks'⟩
  · exact Block.encodeFrom_statements hfront
  · exact Block.encodeFrom_statements hback

/-- **The order of regions does not matter.** Two lists of statements that start anew, as with an
`.ORIG`, assemble together in one order exactly if they do in the other. Then every label has the
same entry in both tables, and the blocks of the one list stand, unchanged, in front of those of the
other or behind them. -/
theorem region_order_irrelevant {a b : List Statement} (ha : StartsAnew a) (hb : StartsAnew b) :
    ((∃ ab, Assembly.ofStatements (a ++ b) = .ok ab) ↔
        ∃ ba, Assembly.ofStatements (b ++ a) = .ok ba) ∧
      ∀ ab ba, Assembly.ofStatements (a ++ b) = .ok ab → Assembly.ofStatements (b ++ a) = .ok ba →
        (∀ name, ba.symbols.find? name = ab.symbols.find? name) ∧
          ∃ front back, ab.blocks = front ++ back ∧ ba.blocks = back ++ front ∧
            front.map Block.statement = a.filter Statement.isPlaced ∧
            back.map Block.statement = b.filter Statement.isPlaced := by
  refine ⟨⟨?_, ?_⟩, ?_⟩
  · rintro ⟨ab, hab⟩
    obtain ⟨ba, -, -, hba, -⟩ := Assembly.swap ha hb hab
    exact ⟨ba, hba⟩
  · rintro ⟨ba, hba⟩
    obtain ⟨ab, -, -, hab, -⟩ := Assembly.swap hb ha hba
    exact ⟨ab, hab⟩
  · intro ab ba hab hba
    obtain ⟨_, front, back, hswap, hsame, hfront, hback, hstatements⟩ := Assembly.swap ha hb hab
    rw [hba] at hswap
    cases hswap
    exact ⟨hsame, front, back, hfront, hback, hstatements⟩

/-- A region that is left open and calls into another one, and that other one, which jumps back. -/
def Source.caller : Source :=
  ⟨[], ".ORIG x3000 A LD R1 B JSR C".toList⟩

def Source.callee : Source :=
  ⟨[], ".ORIG x3010 B .FILL #7 C BRn A .END".toList⟩

theorem region_order_irrelevant_caller :
    ∃ p q ab ba, Source.caller.read = .ok p ∧ Source.callee.read = .ok q ∧
      (∀ alone, Assembly.ofStatements p.2.statements ≠ .ok alone) ∧
      Assembly.ofStatements (p.2.statements ++ q.2.statements) = .ok ab ∧
      Assembly.ofStatements (q.2.statements ++ p.2.statements) = .ok ba ∧
      ab.words = [0x220F, 0x480F, 0x0007, 0x09EE] ∧
      ba.symbols.address? "C".toList = some 0x3011 := by
  have hprograms : ∃ p, Source.caller.read = .ok p ∧ ∃ q, Source.callee.read = .ok q ∧
      StartsAnew p.2.statements ∧ StartsAnew q.2.statements ∧
      (∀ alone, Assembly.ofStatements p.2.statements = .ok alone → False) ∧
      ∃ ab, Assembly.ofStatements (p.2.statements ++ q.2.statements) = .ok ab ∧
        ab.words = [0x220F, 0x480F, 0x0007, 0x09EE] ∧
        ab.symbols.address? "C".toList = some 0x3011 := by
    decide +kernel
  obtain ⟨p, hp, q, hq, hstarts, hstarts', halone, ab, hab, hwords, haddress⟩ := hprograms
  obtain ⟨hsucceeds, hresult⟩ := region_order_irrelevant hstarts hstarts'
  obtain ⟨ba, hba⟩ := hsucceeds.1 ⟨ab, hab⟩
  have hfind := (hresult ab ba hab hba).1 "C".toList
  refine ⟨p, q, ab, ba, hp, hq, halone, hab, hba, hwords, ?_⟩
  rw [SymbolTable.address?, hfind]
  exact haddress

end LittleComputer
