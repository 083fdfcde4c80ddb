import LittleComputer.Text

/-! # Likeness

How much two texts have in common. The longest run of characters that stands in both is counted, and
then, in the same way, the runs in front of it and the runs behind it.

* `Text.longestRun`: the longest common run. Of runs of one length it is the one that starts first
  in the first text, and then the one that starts first in the second.
* `Text.shared`: the number of characters counted.
* `Text.alike`: at least three fifths of both texts together are shared.
* `Text.closest`: the names closest to a text, at most three.
-/

namespace LittleComputer.Text
set_option autoImplicit false

/-! ## Common runs -/

/-- A run of characters common to two texts: how many characters stand in front of it in the first
and in the second, and its length. -/
structure Run where
  first : Nat
  second : Nat
  length : Nat
  deriving DecidableEq, Repr

/-- The longer of two runs, and of runs of one length the first. -/
def Run.longer (run other : Run) : Run :=
  if run.length < other.length then other else run

/-- The number of characters in which two texts agree from their start. -/
def agreement : Text → Text → Nat
  | c :: text, d :: other => if c = d then agreement text other + 1 else 0
  | _, _ => 0

/-- The longest run that starts where the first text does. -/
def leadingRun (text : Text) : Text → Run
  | [] => ⟨0, 0, 0⟩
  | d :: other =>
    let later := leadingRun text other
    Run.longer ⟨0, 0, agreement text (d :: other)⟩ { later with second := later.second + 1 }

def longestRun : Text → Text → Run
  | [], _ => ⟨0, 0, 0⟩
  | c :: text, other =>
    let later := longestRun text other
    (leadingRun (c :: text) other).longer { later with first := later.first + 1 }

theorem agreement_le (text other : Text) : agreement text other ≤ text.length := by
  induction text generalizing other with
  | nil => simp [agreement]
  | cons c text ih =>
    cases other with
    | nil => simp [agreement]
    | cons d other =>
      have h := ih other
      rw [agreement, List.length_cons]
      split <;> omega

theorem leadingRun_fits (text other : Text) :
    (leadingRun text other).first + (leadingRun text other).length ≤ text.length := by
  induction other with
  | nil => simp [leadingRun]
  | cons d other ih =>
    have h := agreement_le text (d :: other)
    rw [leadingRun, Run.longer]
    split
    · exact ih
    · simpa using h

/-- A common run lies within the first text. -/
theorem longestRun_fits (text other : Text) :
    (longestRun text other).first + (longestRun text other).length ≤ text.length := by
  induction text with
  | nil => simp [longestRun]
  | cons c text ih =>
    have h := leadingRun_fits (c :: text) other
    rw [longestRun, Run.longer]
    split
    · simp only [List.length_cons]
      omega
    · exact h

/-! ## Likeness -/

/-- The number of characters in the longest run, in the runs in front of it and in those behind. -/
def shared (text other : Text) : Nat :=
  let run := longestRun text other
  if _nothing : run.length = 0 then 0
  else
    shared (text.take run.first) (other.take run.second) + run.length
      + shared (text.drop (run.first + run.length)) (other.drop (run.second + run.length))
termination_by text.length
decreasing_by
  all_goals
    have h := longestRun_fits text other
    have hl : (longestRun text other).length ≠ 0 := _nothing
    simp only [List.length_take, List.length_drop]
    omega

/-- True when at least three fifths of two texts are shared. No more than the shorter text can be, so
texts of very different lengths are never alike. -/
def alike (text other : Text) : Bool :=
  let total := text.length + other.length
  3 * total ≤ 10 * min text.length other.length && 3 * total ≤ 10 * shared text other

/-- True when the first name shares a greater part with a text than the second does, or as great a
part and is not before it in the order of the code points. -/
def closer (text name other : Text) : Bool :=
  let part := shared name text * (other.length + text.length)
  let otherPart := shared other text * (name.length + text.length)
  otherPart < part || (otherPart == part && atMost other name)

/-- The three names closest to a text among those that are alike, in the order of the code
points. -/
def closest (text : Text) (names : List Text) : List Text :=
  let ranked := (names.filter fun name => alike name text).mergeSort (closer text)
  (ranked.take 3).mergeSort atMost

end LittleComputer.Text
