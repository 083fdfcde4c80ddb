import LittleComputer.Proofs.Reading
import Mathlib.Tactic

/-! # Reading on behind an error

A reader can be called again and again. It holds its tokens and how many of them it has read, and an
error leaves it where it stands, be it in the middle of a statement.

* `Reader.call`: one call of a reader, token by token.
* `Reader.call_cases`: all that a call can do.
* `Reader.exists_between`, `Reader.exists_failures`: what many calls do.
* `resumed_readings`: every call reads on as a fresh reader would, and all but finitely many return.
-/

namespace LittleComputer
set_option autoImplicit false

/-- A list of tokens, of which those in front of the position are read. -/
structure Reader where
  tokens : List Token
  position : Nat

namespace Reader

def start (tokens : List Token) : Reader :=
  ⟨tokens, 0⟩

def advance (reader : Reader) : Reader :=
  { reader with position := reader.position + 1 }

/-- Reads on with what is pending. A token is passed before it is looked at. -/
def readOn (reader : Reader) (pending : Pending) : Except Diagnostic Reading × Reader :=
  match _token : reader.tokens[reader.position]? with
  | none => (pending.finish.map (⟨[], ·⟩), reader)
  | some token =>
    match pending.step token with
    | .error diagnostic => (.error diagnostic, reader.advance)
    | .ok (made, behind) =>
      let further := reader.advance.readOn behind
      (further.1.map fun reading => ⟨made.toList ++ reading.statements, reading.trailing⟩,
        further.2)
termination_by reader.tokens.length - reader.position
decreasing_by
  have hlt := (List.getElem?_eq_some_iff.1 _token).1
  simp only [advance]
  omega

/-- The outcome of a call, and the reader behind it. -/
def call (reader : Reader) : Except Diagnostic Reading × Reader :=
  reader.readOn (.labels [])

/-- The reader behind a number of calls. -/
def after (reader : Reader) : Nat → Reader
  | 0 => reader
  | calls + 1 => reader.call.2.after calls

@[simp] theorem after_zero (reader : Reader) : reader.after 0 = reader := rfl

@[simp] theorem after_succ (reader : Reader) (calls : Nat) :
    reader.after (calls + 1) = reader.call.2.after calls := rfl

/-! ## One call -/

/-- The reader that has read some tokens and not yet the others. -/
def between (read left : List Token) : Reader :=
  ⟨read ++ left, read.length⟩

theorem advance_between (read : List Token) (token : Token) (left : List Token) :
    (between read (token :: left)).advance = between (read ++ [token]) left := by
  simp [between, advance]

theorem between_next (read : List Token) (token : Token) (left : List Token) :
    (between read (token :: left)).tokens[(between read (token :: left)).position]? =
      some token := by
  simp [between]

theorem readOn_end (read : List Token) (pending : Pending) :
    (between read []).readOn pending = (pending.finish.map (⟨[], ·⟩), between read []) := by
  have hend : (between read []).tokens[(between read []).position]? = none := by
    simp [between]
  rw [readOn]
  split
  · rfl
  · next hnext =>
    rw [hend] at hnext
    cases hnext

theorem readOn_refused {pending : Pending} {token : Token} {diagnostic : Diagnostic}
    (h : pending.step token = .error diagnostic) (read left : List Token) :
    (between read (token :: left)).readOn pending =
      (.error diagnostic, between (read ++ [token]) left) := by
  rw [readOn]
  split
  · next hnext =>
    rw [between_next] at hnext
    cases hnext
  · next hnext =>
    rw [between_next] at hnext
    cases hnext
    rw [h, advance_between]

theorem readOn_taken {pending behind : Pending} {token : Token} {made : Option Statement}
    (h : pending.step token = .ok (made, behind)) (read left : List Token) :
    (between read (token :: left)).readOn pending =
      (((between (read ++ [token]) left).readOn behind).1.map fun reading =>
          ⟨made.toList ++ reading.statements, reading.trailing⟩,
        ((between (read ++ [token]) left).readOn behind).2) := by
  rw [readOn]
  split
  · next hnext =>
    rw [between_next] at hnext
    cases hnext
  · next hnext =>
    rw [between_next] at hnext
    cases hnext
    rw [h, advance_between]

theorem readOn_of_error {pending : Pending} {left : List Token} {stop : Pending.Stop}
    (h : pending.run left = .error stop) (read : List Token) :
    ∃ taken, taken ≠ [] ∧ left = taken ++ stop.rest ∧
      (between read left).readOn pending =
        (.error stop.diagnostic, between (read ++ taken) stop.rest) := by
  induction left generalizing pending read with
  | nil => cases h
  | cons token left ih =>
    cases hstep : pending.step token with
    | error diagnostic =>
      rw [Pending.run_cons, hstep] at h
      cases h
      exact ⟨[token], by simp, rfl, readOn_refused hstep read left⟩
    | ok state =>
      obtain ⟨made, behind⟩ := state
      rw [Pending.run_of_step hstep, Pending.resume] at h
      cases hrun : behind.run left with
      | ok result =>
        rw [hrun] at h
        cases h
      | error other =>
        rw [hrun] at h
        cases h
        obtain ⟨taken, -, hsplit, hread⟩ := ih hrun (read ++ [token])
        refine ⟨token :: taken, by simp, by rw [hsplit]; rfl, ?_⟩
        rw [readOn_taken hstep, hread, List.append_assoc]
        rfl

theorem readOn_of_ok {pending behind : Pending} {left : List Token} {statements : List Statement}
    (h : pending.run left = .ok (statements, behind)) (read : List Token) :
    (between read left).readOn pending =
      (behind.finish.map (⟨statements, ·⟩), between (read ++ left) []) := by
  induction left generalizing pending read statements with
  | nil =>
    cases h
    rw [readOn_end, List.append_nil]
  | cons token left ih =>
    obtain ⟨⟨made, next⟩, further, hstep, hrun, rfl⟩ := Pending.run_cons_eq_ok h
    rw [readOn_taken hstep, ih hrun (read ++ [token]), List.append_assoc]
    cases behind.finish <;> rfl

/-- What a call makes of the tokens that are left: it returns behind all of them, or it fails behind
those it has taken, of which there is at least one. -/
inductive Calls (read left : List Token) : Except Diagnostic Reading × Reader → Prop
  | returned {reading : Reading} (h : Statement.readAll left = .ok reading) :
    Calls read left (.ok reading, between (read ++ left) [])
  | failed {stop : Pending.Stop} {taken : List Token} (h : Statement.readAll left = .error stop)
    (htaken : taken ≠ []) (hleft : left = taken ++ stop.rest) :
    Calls read left (.error stop.diagnostic, between (read ++ taken) stop.rest)

theorem call_cases (read left : List Token) : Calls read left (between read left).call := by
  unfold call
  cases hrun : (Pending.labels []).run left with
  | error stop =>
    obtain ⟨taken, htaken, hleft, hread⟩ := readOn_of_error hrun read
    rw [hread]
    exact .failed (by rw [Statement.readAll, hrun]) htaken hleft
  | ok result =>
    obtain ⟨statements, pending⟩ := result
    rw [readOn_of_ok hrun read]
    cases hfinish : pending.finish with
    | ok trailing => exact .returned (by simp only [Statement.readAll, hrun, hfinish])
    | error diagnostic =>
      -- without tokens nothing is pending, so the end alone is no error
      have hne : left ≠ [] := by
        rintro rfl
        cases hrun
        cases hfinish
      have hall : Statement.readAll left = .error ⟨diagnostic, []⟩ := by
        simp only [Statement.readAll, hrun, hfinish]
      exact .failed hall hne (List.append_nil left).symm

theorem call_end (read : List Token) :
    (between read []).call = (.ok ⟨[], []⟩, between read []) :=
  readOn_end read _

/-! ## Many calls -/

theorem after_end (read : List Token) (calls : Nat) :
    (between read []).after calls = between read [] := by
  induction calls with
  | zero => rfl
  | succ calls ih => simp [call_end, ih]

/-- No call loses a token. -/
theorem exists_between (read left : List Token) (calls : Nat) :
    ∃ before behind, before ++ behind = read ++ left ∧
      (between read left).after calls = between before behind := by
  induction calls generalizing read left with
  | zero => exact ⟨read, left, rfl, rfl⟩
  | succ calls ih =>
    rw [after_succ]
    have hcall := call_cases read left
    generalize (between read left).call = answer at hcall ⊢
    cases hcall with
    | returned => exact ⟨read ++ left, [], by simp, after_end _ calls⟩
    | @failed stop taken _ _ hleft =>
      obtain ⟨before, behind, hsame, hafter⟩ := ih (read ++ taken) stop.rest
      refine ⟨before, behind, ?_, hafter⟩
      rw [hsame, hleft, List.append_assoc]

theorem readTimes_eq (calls : Nat) (read left : List Token) :
    Statement.readTimes calls left =
      (List.range calls).map fun n => ((between read left).after n).call.1 := by
  induction calls generalizing read left with
  | zero => rfl
  | succ calls ih =>
    have hcall := call_cases read left
    rw [Statement.readTimes, List.range_succ_eq_map]
    simp only [List.map_cons, List.map_map, Function.comp_def, after_zero, after_succ]
    generalize (between read left).call = answer at hcall ⊢
    cases hcall with
    | returned h => simp only [h, ih (read ++ left) []]
    | @failed stop taken h => simp only [h, ih (read ++ taken) stop.rest]

/-- First come the calls that fail, each for at least one token, then one that returns what is left,
then those that have nothing to read. -/
theorem exists_failures (read left : List Token) :
    ∃ failures ≤ left.length,
      (∀ n < failures, ∃ diagnostic,
        ((between read left).after n).call.1 = .error diagnostic) ∧
      (∃ reading, ((between read left).after failures).call.1 = .ok reading) ∧
      ∀ n > failures, ((between read left).after n).call.1 = .ok ⟨[], []⟩ := by
  induction hlength : left.length using Nat.strongRecOn generalizing read left with
  | ind length ih =>
    have hcall := call_cases read left
    generalize hanswer : (between read left).call = answer at hcall
    cases hcall with
    | @returned reading =>
      refine ⟨0, by omega, by omega, ⟨reading, by rw [after_zero, hanswer]⟩, fun n hn => ?_⟩
      obtain ⟨n, rfl⟩ := Nat.exists_eq_add_one.2 hn
      rw [after_succ, hanswer, after_end, call_end]
    | @failed stop taken _ htaken hleft =>
      have hpos := List.length_pos_iff.2 htaken
      have hsum : length = taken.length + stop.rest.length := by
        rw [← hlength, hleft, List.length_append]
      obtain ⟨failures, hle, hfail, hreturn, hempty⟩ :=
        ih stop.rest.length (by omega) (read ++ taken) stop.rest rfl
      refine ⟨failures + 1, by omega, fun n hn => ?_, ?_, fun n hn => ?_⟩
      · cases n with
        | zero => exact ⟨stop.diagnostic, by rw [after_zero, hanswer]⟩
        | succ n =>
          rw [after_succ, hanswer]
          exact hfail n (by omega)
      · rw [after_succ, hanswer]
        exact hreturn
      · obtain ⟨n, rfl⟩ := Nat.exists_eq_add_one.2 (Nat.zero_lt_of_lt hn)
        rw [after_succ, hanswer]
        exact hempty n (by omega)

/-- What holds of a reader of the given tokens, in front of any of its calls. -/
structure Resumes (tokens : List Token) (reader : Reader) : Prop where
  tokens_eq : reader.tokens = tokens
  fresh : reader.call.1 = (start (tokens.drop reader.position)).call.1
  read : reader.call.1 = Statement.read (tokens.drop reader.position)
  failed : ∀ diagnostic, reader.call.1 = .error diagnostic →
    reader.position < reader.call.2.position ∧ reader.call.2.position ≤ tokens.length
  returned : ∀ reading, reader.call.1 = .ok reading → reader.call.2.position = tokens.length

theorem call_between (read left : List Token) :
    (between read left).call.1 = Statement.read left := by
  have hcall := call_cases read left
  generalize (between read left).call = answer at hcall ⊢
  cases hcall with
  | returned h =>
    rw [Statement.read, h]
    rfl
  | failed h =>
    rw [Statement.read, h]
    rfl

theorem resumes_between (read left : List Token) :
    Resumes (read ++ left) (between read left) := by
  have hleft : (read ++ left).drop (between read left).position = left := by
    simp [between]
  have hfresh : (start left).call.1 = Statement.read left := call_between [] left
  refine ⟨rfl, ?_, ?_, ?_, ?_⟩
  · rw [hleft, call_between, hfresh]
  · rw [hleft, call_between]
  · intro diagnostic hdiagnostic
    have hcall := call_cases read left
    generalize (between read left).call = answer at hcall hdiagnostic ⊢
    cases hcall with
    | returned => cases hdiagnostic
    | failed _ htaken hsplit =>
      have hpos := List.length_pos_iff.2 htaken
      simp only [between, hsplit, List.length_append]
      omega
  · intro reading hreading
    have hcall := call_cases read left
    generalize (between read left).call = answer at hcall hreading ⊢
    cases hcall with
    | returned => rfl
    | failed => cases hreading

end Reader

/-- **Reading on behind errors.** However often a reader has been called, its next call gives what a
fresh reader of the tokens behind its position gives. A call that fails moves the position forward
and not past the end, and a call that returns moves it to the end. So no more calls fail than there
are tokens; they come first, the next call returns, and all others return nothing. -/
theorem resumed_readings (tokens : List Token) :
    (∀ calls, Statement.readTimes calls tokens =
      (List.range calls).map fun n => ((Reader.start tokens).after n).call.1) ∧
    (∀ calls, Reader.Resumes tokens ((Reader.start tokens).after calls)) ∧
    ∃ failures ≤ tokens.length,
      (∀ n < failures, ∃ diagnostic,
        ((Reader.start tokens).after n).call.1 = .error diagnostic) ∧
      (∃ reading, ((Reader.start tokens).after failures).call.1 = .ok reading) ∧
      ∀ n > failures, ((Reader.start tokens).after n).call.1 = .ok ⟨[], []⟩ := by
  refine ⟨fun calls => Reader.readTimes_eq calls [] tokens, fun calls => ?_,
    Reader.exists_failures [] tokens⟩
  obtain ⟨before, behind, hsame, hafter⟩ := Reader.exists_between [] tokens calls
  have hresumes := Reader.resumes_between before behind
  rw [hsame, ← hafter] at hresumes
  exact hresumes

/-- A number that starts no statement, a branch to an operator, and a statement with a label in front
of it and one behind it. -/
def stumblingTokens : List Token :=
  [⟨.number, "5".toList, ⟨[], 1, 1⟩⟩, ⟨.operator, "BR".toList, ⟨[], 1, 3⟩⟩,
    ⟨.operator, "RET".toList, ⟨[], 1, 6⟩⟩, ⟨.label, "A".toList, ⟨[], 1, 10⟩⟩,
    ⟨.operator, "HALT".toList, ⟨[], 1, 12⟩⟩, ⟨.label, "B".toList, ⟨[], 1, 17⟩⟩]

theorem resumed_readings_stumbling :
    ∃ first second reading, Statement.readTimes 4 stumblingTokens =
        [.error first, .error second, .ok reading, .ok ⟨[], []⟩] ∧
      reading.statements.map Statement.text = ["[A] <TRAP> I:x25".toList] ∧
      ((Reader.start stumblingTokens).after 2).call.1 = .ok reading ∧
      ((Reader.start stumblingTokens).after 2).call.2.position = 6 := by
  have htimes : Statement.readTimes 4 stumblingTokens =
      [.error (.plain (.operatorExpected ⟨.number, "5".toList, ⟨[], 1, 1⟩⟩) (some ⟨[], 1, 1⟩)),
        .error (.plain (.operandMismatch .br 1 .label ⟨.operator, "RET".toList, ⟨[], 1, 6⟩⟩)
          (some ⟨[], 1, 6⟩)),
        .ok ⟨[⟨["A".toList], .trap, [⟨.immediate, "x25".toList, ⟨[], 1, 12⟩⟩],
          some ⟨[], 1, 12⟩⟩], ["B".toList]⟩,
        .ok ⟨[], []⟩] := by
    decide +kernel
  obtain ⟨hcalls, hresumes, -⟩ := resumed_readings stumblingTokens
  have hthird := congrArg (·[2]?) ((hcalls 4).symm.trans htimes)
  simp only [List.getElem?_map, List.getElem?_range, Nat.reduceLT, Option.map_some,
    List.getElem?_cons_succ, List.getElem?_cons_zero] at hthird
  have hthird := Option.some.inj hthird
  exact ⟨_, _, _, htimes, by decide +kernel, hthird, (hresumes 2).returned _ hthird⟩

end LittleComputer
