import LittleComputer.SymbolTable.Similar
import Mathlib.Tactic

/-! # The edit distance

A text is edited one character at a time. The distance that is computed row by row, with only the
diagonal neighbour where two characters agree, is the least number of edits that lead from one text
to the other.

* `Edit`, `Edits`: one edit, and a number of edits in turn.
* `levenshtein`: the distance by recursion over the first characters, with the cheapest of three
  ways at every pair; `levenshtein_cons_self`: at equal characters no way beats the diagonal.
* `Edit.levenshtein_le`: one edit saves at most one; `isLeast_levenshtein` follows.
* `EditDistance.nextRow_eq`, `EditDistance.row_eq`: what a row holds, for one more character and for
  the whole text.
* `editDistance_exact`: the distance is the least number of edits, and a metric.
-/

namespace LittleComputer
set_option autoImplicit false

/-! ## Edits -/

/-- One character is inserted, deleted, or put in the place of another or of itself. -/
inductive Edit : Text → Text → Prop
  | insertion (front : Text) (c : Char) (back : Text) : Edit (front ++ back) (front ++ c :: back)
  | deletion (front : Text) (c : Char) (back : Text) : Edit (front ++ c :: back) (front ++ back)
  | substitution (front : Text) (c d : Char) (back : Text) :
    Edit (front ++ c :: back) (front ++ d :: back)

/-- A number of edits in turn. -/
inductive Edits : Nat → Text → Text → Prop
  | none (a : Text) : Edits 0 a a
  | next {n : Nat} {a b c : Text} (first : Edit a b) (rest : Edits n b c) : Edits (n + 1) a c

namespace Edit
variable {a b : Text}

theorem cons (h : Edit a b) (c : Char) : Edit (c :: a) (c :: b) := by
  cases h with
  | insertion front d back => exact .insertion (c :: front) d back
  | deletion front d back => exact .deletion (c :: front) d back
  | substitution front d e back => exact .substitution (c :: front) d e back

theorem reverse (h : Edit a b) : Edit a.reverse b.reverse := by
  cases h with
  | insertion front c back => simpa using Edit.insertion back.reverse c front.reverse
  | deletion front c back => simpa using Edit.deletion back.reverse c front.reverse
  | substitution front c d back => simpa using Edit.substitution back.reverse c d front.reverse

end Edit

namespace Edits
variable {m n : Nat} {a b c : Text}

theorem single (h : Edit a b) : Edits 1 a b :=
  .next h (.none b)

theorem trans (h : Edits m a b) (h' : Edits n b c) : Edits (m + n) a c := by
  induction h with
  | none a => rwa [Nat.zero_add]
  | next first _ ih =>
    rw [Nat.succ_add]
    exact .next first (ih h')

theorem cons (h : Edits n a b) (c : Char) : Edits n (c :: a) (c :: b) := by
  induction h with
  | none a => exact .none (c :: a)
  | next first _ ih => exact .next (first.cons c) ih

theorem reverse (h : Edits n a b) : Edits n a.reverse b.reverse := by
  induction h with
  | none a => exact .none a.reverse
  | next first _ ih => exact .next first.reverse ih

theorem reverse_iff : Edits n a.reverse b.reverse ↔ Edits n a b :=
  ⟨fun h => by simpa using h.reverse, reverse⟩

theorem eq_of_zero (h : Edits 0 a b) : a = b := by
  cases h
  rfl

end Edits

/-! ## The cheapest way -/

/-- The first characters are exchanged for each other, which is free when they are equal, or one of
them is left out. -/
def levenshtein : Text → Text → Nat
  | [], b => b.length
  | _ :: a, [] => a.length + 1
  | c :: a, d :: b =>
    min (levenshtein a b + if c = d then 0 else 1)
      (min (levenshtein a (d :: b)) (levenshtein (c :: a) b) + 1)

theorem levenshtein_nil_left (b : Text) : levenshtein [] b = b.length := by
  rw [levenshtein]

theorem levenshtein_nil_right (a : Text) : levenshtein a [] = a.length := by
  cases a with
  | nil => rw [levenshtein]
  | cons c a => rw [levenshtein, List.length_cons]

theorem levenshtein_cons_cons (c : Char) (a : Text) (d : Char) (b : Text) :
    levenshtein (c :: a) (d :: b) =
      min (levenshtein a b + if c = d then 0 else 1)
        (min (levenshtein a (d :: b)) (levenshtein (c :: a) b) + 1) := by
  rw [levenshtein]

theorem levenshtein_comm (a b : Text) : levenshtein a b = levenshtein b a := by
  fun_induction levenshtein a b with
  | case1 b => rw [levenshtein_nil_right]
  | case2 c a => rw [levenshtein_nil_left, List.length_cons]
  | case3 c a d b hdiagonal hleft hright =>
    rw [levenshtein_cons_cons d b c a, hdiagonal, hleft, hright, min_comm (levenshtein (d :: b) a)]
    simp only [eq_comm]

theorem levenshtein_cons_left_le (c : Char) (a b : Text) :
    levenshtein (c :: a) b ≤ levenshtein a b + 1 := by
  cases b with
  | nil => simp [levenshtein_nil_right]
  | cons d b =>
    rw [levenshtein_cons_cons]
    omega

theorem levenshtein_le_cons_right (a : Text) (d : Char) (b : Text) :
    levenshtein a b ≤ levenshtein a (d :: b) + 1 := by
  induction a with
  | nil =>
    simp only [levenshtein_nil_left, List.length_cons]
    omega
  | cons c a ih =>
    have hshorter := levenshtein_cons_left_le c a b
    rw [levenshtein_cons_cons]
    split <;> omega

theorem levenshtein_le_cons_left (c : Char) (a b : Text) :
    levenshtein a b ≤ levenshtein (c :: a) b + 1 := by
  rw [levenshtein_comm a, levenshtein_comm (c :: a)]
  exact levenshtein_le_cons_right b c a

theorem levenshtein_cons_self (c : Char) (a b : Text) :
    levenshtein (c :: a) (c :: b) = levenshtein a b := by
  have hright := levenshtein_le_cons_right a c b
  have hleft := levenshtein_le_cons_left c a b
  rw [levenshtein_cons_cons, if_pos rfl]
  omega

theorem levenshtein_cell (c : Char) (a : Text) (d : Char) (b : Text) :
    levenshtein (c :: a) (d :: b) =
      if c = d then levenshtein a b
      else 1 + min (levenshtein a b) (min (levenshtein a (d :: b)) (levenshtein (c :: a) b)) := by
  split
  · next h => rw [h, levenshtein_cons_self]
  · next h =>
    rw [levenshtein_cons_cons, if_neg h]
    omega

theorem levenshtein_self (a : Text) : levenshtein a a = 0 := by
  induction a with
  | nil => rw [levenshtein_nil_left, List.length_nil]
  | cons c a ih => rw [levenshtein_cons_self, ih]

/-! ## The least number of edits -/

theorem edits_levenshtein (a b : Text) : Edits (levenshtein a b) a b := by
  fun_induction levenshtein a b with
  | case1 b =>
    induction b with
    | nil => exact .none []
    | cons d b ih => exact .next (.insertion [] d []) (ih.cons d)
  | case2 c a =>
    induction a generalizing c with
    | nil => exact .single (.deletion [] c [])
    | cons d a ih => exact .next (.deletion [] c (d :: a)) (ih d)
  | case3 c a d b hdiagonal hleft hright =>
    rw [← levenshtein_cons_cons, levenshtein_cell]
    split
    · next h =>
      rw [h]
      exact hdiagonal.cons d
    · rw [Nat.add_comm]
      -- the minimum is one of the three neighbours, each one edit away
      rcases min_choice (levenshtein a b)
        (min (levenshtein a (d :: b)) (levenshtein (c :: a) b)) with h | h <;> rw [h]
      · exact .next (.substitution [] c d a) (hdiagonal.cons d)
      · rcases min_choice (levenshtein a (d :: b)) (levenshtein (c :: a) b) with h | h <;> rw [h]
        · exact .next (.deletion [] c a) hleft
        · exact hright.trans (.single (.insertion [] d b))

theorem levenshtein_substitution_le (c d : Char) (a t : Text) :
    levenshtein (c :: a) t ≤ levenshtein (d :: a) t + 1 := by
  induction t with
  | nil => simp [levenshtein_nil_right]
  | cons e t ih =>
    rw [levenshtein_cons_cons, levenshtein_cons_cons]
    split <;> split <;> omega

theorem levenshtein_append_le {a b : Text} (h : ∀ t, levenshtein a t ≤ levenshtein b t + 1)
    (front t : Text) : levenshtein (front ++ a) t ≤ levenshtein (front ++ b) t + 1 := by
  induction front generalizing t with
  | nil => exact h t
  | cons c front ihfront =>
    rw [List.cons_append, List.cons_append]
    -- one of the three ways leaves the front as it is and shortens `t`
    induction t with
    | nil =>
      have hnil := ihfront []
      simp only [levenshtein_nil_right, List.length_cons] at hnil ⊢
      omega
    | cons d t iht =>
      have hdiagonal := ihfront t
      have hleft := ihfront (d :: t)
      rw [levenshtein_cons_cons, levenshtein_cons_cons]
      omega

theorem Edit.levenshtein_le {a b : Text} (h : Edit a b) (t : Text) :
    levenshtein a t ≤ levenshtein b t + 1 := by
  cases h with
  | insertion front c back =>
    exact levenshtein_append_le (levenshtein_le_cons_left c back) front t
  | deletion front c back =>
    exact levenshtein_append_le (levenshtein_cons_left_le c back) front t
  | substitution front c d back =>
    exact levenshtein_append_le (levenshtein_substitution_le c d back) front t

theorem Edits.levenshtein_le {n : Nat} {a b : Text} (h : Edits n a b) : levenshtein a b ≤ n := by
  induction h with
  | none a => rw [levenshtein_self]
  | @next n a b c first _ ih =>
    calc levenshtein a c
        ≤ levenshtein b c + 1 := first.levenshtein_le c
      _ ≤ n + 1 := by omega

theorem isLeast_levenshtein (a b : Text) : IsLeast {n | Edits n a b} (levenshtein a b) :=
  ⟨edits_levenshtein a b, fun _ h => Edits.levenshtein_le h⟩

theorem levenshtein_reverse (a b : Text) :
    levenshtein a.reverse b.reverse = levenshtein a b := by
  have hreverse := isLeast_levenshtein a.reverse b.reverse
  simp only [Edits.reverse_iff] at hreverse
  exact hreverse.unique (isLeast_levenshtein a b)

/-! ## Rows -/

-- a row grows at the ends of the texts, where the recursion is the one on reversed texts
theorem levenshtein_concat (a : Text) (c : Char) (b : Text) (d : Char) :
    levenshtein (a ++ [c]) (b ++ [d]) =
      if c = d then levenshtein a b
      else 1 + min (levenshtein a b)
        (min (levenshtein a (b ++ [d])) (levenshtein (a ++ [c]) b)) := by
  have hcell := levenshtein_cell c a.reverse d b.reverse
  simp only [← List.reverse_concat, levenshtein_reverse] at hcell
  exact hcell

namespace EditDistance

theorem map_inits {α : Type} (f : Text → α) (text : Text) :
    text.inits.map f = f [] :: text.inits.tail.map f := by
  cases text <;> simp

/-- The cells behind a beginning `b` of the other text, whose own cell is on the left. -/
theorem cells_eq (a : Text) (c : Char) (b other : Text) :
    cells c other (other.inits.map fun part => levenshtein a (b ++ part))
        (levenshtein (a ++ [c]) b) =
      other.inits.tail.map fun part => levenshtein (a ++ [c]) (b ++ part) := by
  induction other generalizing b with
  | nil => rfl
  | cons d other ih =>
    -- the cell of `d` is the one on the left of all that follow
    have hbehind := ih (b ++ [d])
    simp only [List.append_assoc, List.singleton_append] at hbehind
    simp only [List.inits_cons, List.map_cons, List.map_map, List.tail_cons, Function.comp_def,
      List.append_nil]
    rw [map_inits] at hbehind ⊢
    rw [map_inits fun part => levenshtein (a ++ [c]) (b ++ d :: part), cells, ← levenshtein_concat,
      hbehind]

theorem nextRow_eq (other a : Text) (c : Char) :
    nextRow other (other.inits.map (levenshtein a)) c =
      other.inits.map (levenshtein (a ++ [c])) := by
  have hfirst : levenshtein (a ++ [c]) [] = levenshtein a [] + 1 := by
    simp [levenshtein_nil_right]
  have hcells := cells_eq a c [] other
  simp only [List.nil_append] at hcells
  rw [map_inits, hfirst] at hcells
  rw [map_inits, map_inits, nextRow, hfirst, hcells]

/-- The row of the empty text: all of a beginning is inserted. -/
theorem firstRow_eq (other : Text) :
    List.range (other.length + 1) = other.inits.map (levenshtein []) := by
  refine List.ext_getElem (by simp) fun i hi _ => ?_
  have hle : i ≤ other.length := by
    rw [List.length_range] at hi
    omega
  simp [levenshtein_nil_left, hle]

/-- The row of a text holds its distances to all beginnings of the other text. -/
theorem row_eq (text other : Text) : row text other = other.inits.map (levenshtein text) := by
  unfold row
  induction text using List.reverseRecOn with
  | nil => exact firstRow_eq other
  | append_singleton text c ih => rw [List.foldl_concat, ih, nextRow_eq]

theorem getLast?_row (text other : Text) :
    (row text other).getLast? = some (levenshtein text other) := by
  rw [row_eq, List.getLast?_map]
  cases other using List.reverseRecOn with
  | nil => simp
  | append_singleton other d => simp [List.inits_append]

end EditDistance

theorem editDistance_eq (a b : Text) : editDistance a b = levenshtein a b := by
  rw [editDistance]
  -- the rows of the other text lead to the same distance
  split
  · rw [EditDistance.getLast?_row, Option.getD_some, levenshtein_comm]
  · rw [EditDistance.getLast?_row, Option.getD_some]

theorem editDistance_le_iff {n : Nat} {a b : Text} :
    editDistance a b ≤ n ↔ ∃ m ≤ n, Edits m a b := by
  rw [editDistance_eq]
  constructor
  · intro h
    exact ⟨levenshtein a b, h, edits_levenshtein a b⟩
  · rintro ⟨m, hm, hedits⟩
    exact hedits.levenshtein_le.trans hm

/-! ## The distance -/

/-- **The exact distance.** It is the least number of insertions, deletions and substitutions of
single characters that turn one text into the other. So it does not depend on the direction, it is
zero for equal texts only, and a detour over a third text is never shorter. -/
theorem editDistance_exact (a b c : Text) :
    IsLeast {n | Edits n a b} (editDistance a b) ∧
      editDistance a b = editDistance b a ∧
      (editDistance a b = 0 ↔ a = b) ∧
      editDistance a c ≤ editDistance a b + editDistance b c := by
  simp only [editDistance_eq]
  refine ⟨isLeast_levenshtein a b, levenshtein_comm a b, ⟨fun h => ?_, ?_⟩, ?_⟩
  · have hedits := edits_levenshtein a b
    rw [h] at hedits
    exact hedits.eq_of_zero
  · rintro rfl
    exact levenshtein_self a
  · exact ((edits_levenshtein a b).trans (edits_levenshtein b c)).levenshtein_le

end LittleComputer
