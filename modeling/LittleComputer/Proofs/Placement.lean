import LittleComputer.Proofs.WellFormed
import Mathlib.Tactic

/-! # Declared addresses

Where a statement stands is said here without a counter: at the value of the nearest `.ORIG` in
front of it, if no `.END` follows that, plus the words of all statements in between.

* `Statement.isPlaced`: the statements that occupy memory, which are all but `.ORIG` and `.END`.
* `Stands before address`: a statement behind the statements `before` stands at `address`.
* `EveryPlaced P`: each placed statement and the statements in front of it satisfy `P`.
* `Tracks before counter`: a counter shows where the next statement stands. The lemmas about it say
  what each sort of statement does to the counter, for both walks at once.
* `WalkOutcome`: the three ways in which a walk over statements ends.
-/

namespace LittleComputer
set_option autoImplicit false

namespace Statement

/-- True for the statements that occupy memory. -/
def isPlaced (statement : Statement) : Bool :=
  statement.mnemonic != .orig && statement.mnemonic != .finish

theorem isPlaced_iff {statement : Statement} :
    statement.isPlaced = true ↔ statement.mnemonic ≠ .orig ∧ statement.mnemonic ≠ .finish := by
  simp [isPlaced]

theorem not_isPlaced_of_orig {statement : Statement} (h : statement.mnemonic = .orig) :
    statement.isPlaced = false := by
  rw [isPlaced, h]
  rfl

theorem not_isPlaced_of_finish {statement : Statement} (h : statement.mnemonic = .finish) :
    statement.isPlaced = false := by
  rw [isPlaced, h]
  rfl

/-- The three sorts of statements. -/
theorem sort_cases (statement : Statement) :
    statement.mnemonic = .orig ∨ statement.mnemonic = .finish ∨ statement.isPlaced = true := by
  by_cases horig : statement.mnemonic = .orig
  · exact .inl horig
  · by_cases hfinish : statement.mnemonic = .finish
    · exact .inr (.inl hfinish)
    · exact .inr (.inr (isPlaced_iff.2 ⟨horig, hfinish⟩))

end Statement

/-! ## Where a statement stands -/

/-- A statement behind `before` stands at `address`. -/
def Stands (before : List Statement) (address : Int) : Prop :=
  ∃ (earlier since : List Statement) (opening : Statement) (value : Int) (sizes : List Nat),
    before = earlier ++ opening :: since ∧ opening.mnemonic = .orig ∧ opening.origin = .ok value ∧
      (∀ statement ∈ since, statement.isPlaced = true) ∧
      List.Forall₂ (fun statement size => statement.footprint = .ok size) since sizes ∧
      address = value + sizes.sum

theorem not_stands_nil (address : Int) : ¬ Stands [] address := by
  rintro ⟨earlier, since, opening, -, -, h, -⟩
  exact List.append_ne_nil_of_right_ne_nil earlier (List.cons_ne_nil opening since) h.symm

theorem forall₂_concat {α β : Type} {R : α → β → Prop} {l : List α} {a : α} {m : List β}
    (h : List.Forall₂ R (l ++ [a]) m) : ∃ m' b, m = m' ++ [b] ∧ List.Forall₂ R l m' ∧ R a b := by
  rw [← List.forall₂_reverse_iff, List.reverse_append, List.reverse_singleton,
    List.singleton_append, List.forall₂_cons_left_iff] at h
  obtain ⟨b, m', hab, hrest, hm⟩ := h
  refine ⟨m'.reverse, b, ?_, ?_, hab⟩
  · rw [← List.reverse_reverse m, hm, List.reverse_cons]
  · rw [← List.forall₂_reverse_iff, List.reverse_reverse]
    exact hrest

/-- One more statement: an `.ORIG` sets the address, a placed statement moves it. -/
theorem stands_concat {before : List Statement} {statement : Statement} {address : Int} :
    Stands (before ++ [statement]) address ↔
      (statement.mnemonic = .orig ∧ statement.origin = .ok address) ∨
      (statement.isPlaced = true ∧ ∃ (base : Int) (size : Nat),
        Stands before base ∧ statement.footprint = .ok size ∧ address = base + size) := by
  constructor
  · rintro ⟨earlier, since, opening, value, sizes, hsplit, horig, hvalue, hplaced, hsizes, haddress⟩
    rcases List.eq_nil_or_concat' since with rfl | ⟨since, last, rfl⟩
    · obtain ⟨-, hlast⟩ := List.append_inj' hsplit rfl
      cases hlast
      rw [List.forall₂_nil_left_iff] at hsizes
      subst hsizes
      refine .inl ⟨horig, ?_⟩
      rw [hvalue, haddress]
      simp
    · rw [← List.cons_append, ← List.append_assoc] at hsplit
      obtain ⟨hbefore, hlast⟩ := List.append_inj' hsplit rfl
      cases hlast
      obtain ⟨sizes, size, rfl, hsizes, hsize⟩ := forall₂_concat hsizes
      have hsince : ∀ s ∈ since, s.isPlaced = true :=
        fun s hs => hplaced s (List.mem_append_left _ hs)
      refine .inr ⟨hplaced statement (by simp), value + sizes.sum, size, ?_, hsize, ?_⟩
      · exact ⟨earlier, since, opening, value, sizes, hbefore, horig, hvalue, hsince, hsizes, rfl⟩
      · rw [haddress, List.sum_append, List.sum_singleton]
        push_cast
        omega
  · rintro (⟨horig, hvalue⟩ | ⟨hplaced, base, size, hstands, hsize, haddress⟩)
    · exact ⟨before, [], statement, address, [], rfl, horig, hvalue, by simp, .nil, by simp⟩
    · obtain ⟨earlier, since, opening, value, sizes, rfl, horig, hvalue, hsince, hsizes, hbase⟩ :=
        hstands
      refine ⟨earlier, since ++ [statement], opening, value, sizes ++ [size], by simp, horig,
        hvalue, ?_, List.rel_append hsizes (.cons hsize .nil), ?_⟩
      · intro s hs
        rcases List.mem_append.1 hs with hs | hs
        · exact hsince s hs
        · rw [List.mem_singleton.1 hs]
          exact hplaced
      · rw [haddress, hbase, List.sum_append, List.sum_singleton]
        push_cast
        omega

/-- A statement stands at one address only. -/
theorem Stands.unique {before : List Statement} {a b : Int} (ha : Stands before a)
    (hb : Stands before b) : a = b := by
  induction before using List.reverseRecOn generalizing a b with
  | nil => exact absurd ha (not_stands_nil a)
  | append_singleton before statement ih =>
    rcases stands_concat.1 ha with ⟨horig, hvalue⟩ | ⟨hplaced, base, size, hstands, hsize, rfl⟩
    · rcases stands_concat.1 hb with ⟨-, hvalue'⟩ | ⟨hplaced, -⟩
      · rw [hvalue] at hvalue'
        exact Except.ok.inj hvalue'
      · rw [Statement.not_isPlaced_of_orig horig] at hplaced
        exact Bool.noConfusion hplaced
    · rcases stands_concat.1 hb with ⟨horig, -⟩ | ⟨-, base', size', hstands', hsize', rfl⟩
      · rw [Statement.not_isPlaced_of_orig horig] at hplaced
        exact Bool.noConfusion hplaced
      · rw [hsize] at hsize'
        rw [ih hstands hstands', Except.ok.inj hsize']

/-! ## Counters -/

/-- The counter shows where a statement behind `before` stands, if it stands anywhere. -/
def Tracks (before : List Statement) (counter : Option Int) : Prop :=
  ∀ address, Stands before address ↔ counter = some address

theorem tracks_nil : Tracks [] none := by
  intro address
  exact ⟨fun h => absurd h (not_stands_nil address), fun h => nomatch h⟩

theorem Tracks.orig {before : List Statement} {statement : Statement} {value : Int}
    (horig : statement.mnemonic = .orig) (hvalue : statement.origin = .ok value) :
    Tracks (before ++ [statement]) (some value) := by
  intro address
  rw [stands_concat, hvalue, Statement.not_isPlaced_of_orig horig]
  simp [horig]

theorem Tracks.finish {before : List Statement} {statement : Statement}
    (hfinish : statement.mnemonic = .finish) : Tracks (before ++ [statement]) none := by
  intro address
  rw [stands_concat, Statement.not_isPlaced_of_finish hfinish]
  simp [hfinish]

theorem Tracks.placed {before : List Statement} {statement : Statement} {address : Int} {size : Nat}
    (h : Tracks before (some address)) (hplaced : statement.isPlaced = true)
    (hsize : statement.footprint = .ok size) :
    Tracks (before ++ [statement]) (some (address + size)) := by
  have hstands : Stands before address := (h address).2 rfl
  intro a
  constructor
  · intro ha
    have hmoved : Stands (before ++ [statement]) (address + size) :=
      stands_concat.2 (.inr ⟨hplaced, address, size, hstands, hsize, rfl⟩)
    rw [ha.unique hmoved]
  · intro ha
    rw [← Option.some.inj ha]
    exact stands_concat.2 (.inr ⟨hplaced, address, size, hstands, hsize, rfl⟩)

/-! ## Properties of all placed statements -/

/-- Every placed statement of a program satisfies `P`, given the statements in front of it. -/
def EveryPlaced (P : List Statement → Statement → Prop) (statements : List Statement) : Prop :=
  ∀ before statement after, statements = before ++ statement :: after →
    statement.isPlaced = true → P before statement

theorem everyPlaced_nil (P : List Statement → Statement → Prop) : EveryPlaced P [] := by
  intro before statement after h
  exact absurd h.symm (List.append_ne_nil_of_right_ne_nil _ (List.cons_ne_nil _ _))

theorem everyPlaced_concat {P : List Statement → Statement → Prop} {statements : List Statement}
    {last : Statement} :
    EveryPlaced P (statements ++ [last]) ↔
      EveryPlaced P statements ∧ (last.isPlaced = true → P statements last) := by
  constructor
  · intro h
    refine ⟨?_, h statements last [] rfl⟩
    intro before statement after hsplit
    exact h before statement (after ++ [last]) (by rw [hsplit]; simp)
  · rintro ⟨hfront, hlast⟩ before statement after hsplit hplaced
    rcases List.eq_nil_or_concat' after with rfl | ⟨after, final, rfl⟩
    · obtain ⟨rfl, hsame⟩ := List.append_inj' hsplit rfl
      cases hsame
      exact hlast hplaced
    · rw [← List.cons_append, ← List.append_assoc] at hsplit
      obtain ⟨rfl, -⟩ := List.append_inj' hsplit rfl
      exact hfront before statement after rfl hplaced

theorem EveryPlaced.imp {P Q : List Statement → Statement → Prop} {statements : List Statement}
    (h : EveryPlaced P statements)
    (himp : ∀ before statement, P before statement → Q before statement) :
    EveryPlaced Q statements := by
  intro before statement after hsplit hplaced
  exact himp before statement (h before statement after hsplit hplaced)

/-- A statement that is not placed adds no condition. -/
theorem EveryPlaced.concat_of_not {P : List Statement → Statement → Prop}
    {statements : List Statement} {last : Statement} (h : EveryPlaced P statements)
    (hlast : last.isPlaced = false) : EveryPlaced P (statements ++ [last]) :=
  everyPlaced_concat.2 ⟨h, fun hplaced => by rw [hlast] at hplaced; exact Bool.noConfusion hplaced⟩

/-! ## Walks -/

/-- How a walk over `statements` behind `before` ends: with a result that is `Good` for all of them,
at the first placed statement that `Stops` it, or at a literal beyond the limits. -/
inductive WalkOutcome {α : Type} (Good : List Statement → α → Prop)
    (Stops : List Statement → Statement → Failure → Prop) (before statements : List Statement) :
    Except Failure α → Prop
  | finished {result : α} (hgood : Good (before ++ statements) result) :
    WalkOutcome Good Stops before statements (.ok result)
  | stopped {middle after : List Statement} {statement : Statement} {failure : Failure} {result : α}
    (hsplit : statements = middle ++ statement :: after) (hplaced : statement.isPlaced = true)
    (hgood : Good (before ++ middle) result) (hstops : Stops (before ++ middle) statement failure) :
    WalkOutcome Good Stops before statements (.error failure)
  | beyond {statement : Statement} {fault : Fault} (hmem : statement ∈ statements)
    (hlimits : ¬ statement.WithinLimits) :
    WalkOutcome Good Stops before statements (.error (.fault fault))

namespace WalkOutcome
variable {α : Type} {Good : List Statement → α → Prop}
  {Stops : List Statement → Statement → Failure → Prop} {before rest : List Statement}
  {statement : Statement}

theorem nil {result : α} (hgood : Good before result) :
    WalkOutcome Good Stops before [] (.ok result) :=
  .finished (by rw [List.append_nil]; exact hgood)

/-- A walk that passes its first statement ends as the walk over the others does. -/
theorem cons {result : Except Failure α}
    (h : WalkOutcome Good Stops (before ++ [statement]) rest result) :
    WalkOutcome Good Stops before (statement :: rest) result := by
  cases h with
  | finished hgood =>
    rw [List.append_assoc] at hgood
    exact .finished hgood
  | @stopped middle after last failure result hsplit hplaced hgood hstops =>
    have hcons : statement :: rest = (statement :: middle) ++ last :: after := by rw [hsplit]; rfl
    rw [List.append_assoc] at hgood hstops
    exact .stopped hcons hplaced hgood hstops
  | beyond hmem hlimits => exact .beyond (List.mem_cons_of_mem statement hmem) hlimits

/-- A walk that its first statement stops. -/
theorem head {result : α} {failure : Failure} (hplaced : statement.isPlaced = true)
    (hgood : Good before result) (hstops : Stops before statement failure) :
    WalkOutcome Good Stops before (statement :: rest) (.error failure) := by
  have hsplit : statement :: rest = [] ++ statement :: rest := rfl
  rw [← List.append_nil before] at hgood hstops
  exact .stopped hsplit hplaced hgood hstops

theorem good {statements : List Statement} {result : α}
    (h : WalkOutcome Good Stops [] statements (.ok result)) : Good statements result := by
  cases h with
  | finished hgood => exact hgood

end WalkOutcome

end LittleComputer
