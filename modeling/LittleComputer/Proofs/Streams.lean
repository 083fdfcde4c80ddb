import LittleComputer.Proofs.Turns
import Mathlib.Tactic

/-! # Streams over one lexer

Several streams can be opened on one lexer. They share its cursor, and all that a stream has of its
own is whether it is finished. A stream that is not stands in front of its loop or behind the token
that it delivered last; either way it goes on from the cursor, wherever others have left it.

* `Source.Pulls`: how a stream gets to what it delivers, turn by turn. `Source.pulls_iff` says that
  `Source.deliver` does this in one step.
* `Source.future`: what is still to be delivered behind a cursor, and `Source.future_deliver`.
* `Moves`, `Lexer.deliveries`: the sessions, and what the streams deliver in one.
* `Lexer.ask_spec`, `Lexer.deliveries_eq`: one step of a session, and all of them.
* `streams_lose_nothing`: no token is lost or repeated, and a failure is reported once.
-/

namespace LittleComputer
set_option autoImplicit false

namespace Source

/-! ## Turns up to a delivery -/

/-- A stream takes turns from a cursor on until there is something to deliver. A string that is not
closed takes the cursor to the end. -/
inductive Pulls (source : Source) : Cursor → Delivery → Cursor → Prop
  | ended (position : Position) : Pulls source ⟨position, []⟩ .ended ⟨position, []⟩
  | failed {position : Position} {text : Text} (h : Scan.turn text = .failed) :
    Pulls source ⟨position, text⟩ (.failed (source.unterminated ⟨position, text⟩))
      ⟨position.after text, []⟩
  | token {position : Position} {kind : TokenKind} {text content written behind : Text}
    (h : Scan.turn text = .took (some (kind, content)) written behind) :
    Pulls source ⟨position, text⟩ (.token ⟨kind, content, source.locate position⟩)
      ⟨position.after written, behind⟩
  | gap {position : Position} {text written behind : Text} {delivery : Delivery} {cursor : Cursor}
    (h : Scan.turn text = .took none written behind)
    (hrest : Pulls source ⟨position.after written, behind⟩ delivery cursor) :
    Pulls source ⟨position, text⟩ delivery cursor

theorem Pulls.unique {source : Source} {cursor b b' : Cursor} {d d' : Delivery}
    (h : source.Pulls cursor d b) (h' : source.Pulls cursor d' b') : d = d' ∧ b = b' := by
  induction h with
  | ended position =>
    cases h' with
    | ended => exact ⟨rfl, rfl⟩
    | failed h' => cases h'
    | token h' => cases h'
    | gap h' => cases h'
  | failed h =>
    cases h' with
    | ended => cases h
    | failed => exact ⟨rfl, rfl⟩
    | token h' => cases h.symm.trans h'
    | gap h' => cases h.symm.trans h'
  | token h =>
    cases h' with
    | ended => cases h
    | failed h' => cases h.symm.trans h'
    | token h' =>
      cases h.symm.trans h'
      exact ⟨rfl, rfl⟩
    | gap h' => cases h.symm.trans h'
  | gap h _ ih =>
    cases h' with
    | ended => cases h
    | failed h' => cases h.symm.trans h'
    | token h' => cases h.symm.trans h'
    | gap h' hrest =>
      cases h.symm.trans h'
      exact ih hrest

theorem deliver_gap (source : Source) {after gap : Text} (h : IsGap after gap)
    (position : Position) :
    source.deliver ⟨position, gap ++ after⟩ = source.deliver ⟨position.after gap, after⟩ := by
  have hfinish : finish ⟨position, gap ++ after⟩ = finish ⟨position.after gap, after⟩ := by
    simp only [finish, Position.after_append]
  simp only [deliver, source.next_gap h, hfinish]

theorem pulls_deliver (source : Source) (position : Position) (text : Text) :
    source.Pulls ⟨position, text⟩ (source.deliver ⟨position, text⟩).1
      (source.deliver ⟨position, text⟩).2 := by
  induction hlength : text.length using Nat.strongRecOn generalizing position text with
  | ind length ih =>
    by_cases hne : text = []
    · subst hne
      exact .ended position
    have hturn := Scan.turn_cases hne
    generalize hscan : Scan.turn text = scan at hturn
    cases hturn with
    | @failed body htext hsplit =>
      subst htext
      simp only [deliver, source.next_unclosed hsplit]
      exact .failed hscan
    | @lexeme lead hlead =>
      simp only [deliver, source.next_of_leads position hlead.splitGap_eq hlead]
      exact .token hscan
    | @gap gap after htext hgap hisGap =>
      subst htext
      have hpos := List.length_pos_iff.2 hgap
      rw [List.length_append] at hlength
      rw [source.deliver_gap hisGap]
      exact .gap hscan (ih after.length (by omega) (position.after gap) after rfl)

theorem pulls_iff {source : Source} {cursor behind : Cursor} {delivery : Delivery} :
    source.Pulls cursor delivery behind ↔ source.deliver cursor = (delivery, behind) := by
  have hpulls := source.pulls_deliver cursor.position cursor.rest
  constructor
  · intro h
    obtain ⟨hdelivery, hbehind⟩ := hpulls.unique h
    exact Prod.ext hdelivery hbehind
  · intro h
    rw [h] at hpulls
    exact hpulls

/-! ## What is still to come -/

def Delivery.token? : Delivery → Option Token
  | .token found => some found
  | _ => none

def Delivery.failure? : Delivery → Option Diagnostic
  | .failed diagnostic => some diagnostic
  | _ => none

/-- What a stream delivers from a cursor on, up to its end. -/
def future (source : Source) (cursor : Cursor) : List Delivery :=
  (source.scan cursor).1.map .token ++ (source.scan cursor).2.toList.map .failed

theorem future_finish (source : Source) (cursor : Cursor) : source.future (finish cursor) = [] := by
  have hscan : source.scan (finish cursor) = ([], none) := by
    rw [scan_eq]
    rfl
  simp [future, hscan]

theorem future_deliver (source : Source) (cursor : Cursor) :
    (source.deliver cursor).1 = (source.future cursor).headD .ended ∧
      source.future (source.deliver cursor).2 = (source.future cursor).tail := by
  rw [deliver, future, scan_eq]
  cases source.next cursor with
  | error diagnostic => exact ⟨rfl, source.future_finish cursor⟩
  | ok found =>
    cases found with
    | none => exact ⟨rfl, source.future_finish cursor⟩
    | some found => exact ⟨rfl, rfl⟩

theorem future_of_last {source : Source} {cursor : Cursor}
    (h : (source.deliver cursor).1.token? = none) :
    source.future (source.deliver cursor).2 = [] := by
  rw [deliver] at h ⊢
  cases hnext : source.next cursor with
  | error diagnostic => exact source.future_finish cursor
  | ok found =>
    cases found with
    | none => exact source.future_finish cursor
    | some found =>
      rw [hnext] at h
      cases h

end Source

/-! ## Sessions -/

/-- What may be done while a number of streams is open: one of them is asked for its next token, or
one more is opened. -/
inductive Moves : Nat → Type
  | done {streams : Nat} : Moves streams
  | next {streams : Nat} (stream : Fin streams) (rest : Moves streams) : Moves streams
  | fresh {streams : Nat} (rest : Moves (streams + 1)) : Moves streams

/-- How often a stream is asked. -/
def Moves.asks : {streams : Nat} → Moves streams → Nat
  | _, done => 0
  | _, next _ rest => rest.asks + 1
  | _, fresh rest => rest.asks

/-- The cursor that the streams share, and which of them are finished. -/
structure Lexer (streams : Nat) where
  cursor : Cursor
  finished : Fin streams → Bool

namespace Lexer
variable {streams : Nat}

/-- A stream that is finished stays so. Any other one goes on from the cursor. -/
def ask (source : Source) (lexer : Lexer streams) (stream : Fin streams) :
    Source.Delivery × Lexer streams :=
  if lexer.finished stream then (.ended, lexer)
  else
    let answer := source.deliver lexer.cursor
    (answer.1, ⟨answer.2, Function.update lexer.finished stream answer.1.token?.isNone⟩)

/-- One more stream, which is numbered last. -/
def fresh (lexer : Lexer streams) : Lexer (streams + 1) :=
  ⟨lexer.cursor, Fin.snoc lexer.finished false⟩

/-- All that is delivered in a session, in the order of the session. -/
def deliveries (source : Source) : {streams : Nat} → Lexer streams → Moves streams →
    List Source.Delivery
  | _, _, .done => []
  | _, lexer, .next stream rest =>
    (lexer.ask source stream).1 :: deliveries source (lexer.ask source stream).2 rest
  | _, lexer, .fresh rest => deliveries source lexer.fresh rest

/-- A stream is finished only when nothing is left for any of them. -/
def Settled (source : Source) (lexer : Lexer streams) : Prop :=
  ∀ stream, lexer.finished stream = true → source.future lexer.cursor = []

variable {source : Source} {lexer : Lexer streams}

theorem ask_spec (h : lexer.Settled source) (stream : Fin streams) :
    (lexer.ask source stream).1 = (source.future lexer.cursor).headD .ended ∧
      source.future (lexer.ask source stream).2.cursor = (source.future lexer.cursor).tail ∧
      (lexer.ask source stream).2.Settled source := by
  unfold ask
  split
  · next hfinished =>
    have hnone := h stream hfinished
    exact ⟨by rw [hnone]; rfl, by rw [hnone]; rfl, h⟩
  · obtain ⟨hdelivery, hbehind⟩ := source.future_deliver lexer.cursor
    refine ⟨hdelivery, hbehind, fun other hother => ?_⟩
    simp only at hother ⊢
    by_cases hsame : other = stream
    · rw [hsame, Function.update_self] at hother
      exact Source.future_of_last (Option.isNone_iff_eq_none.1 hother)
    · rw [Function.update_of_ne hsame] at hother
      rw [hbehind, h other hother]
      rfl

theorem Settled.fresh (h : lexer.Settled source) : lexer.fresh.Settled source := by
  intro stream
  induction stream using Fin.lastCases with
  | last => simp [Lexer.fresh]
  | cast stream =>
    intro hfinished
    simp only [Lexer.fresh, Fin.snoc_castSucc] at hfinished
    exact h stream hfinished

/-- The first deliveries of a future, with ends behind them where there are not enough. -/
def schedule : List Source.Delivery → Nat → List Source.Delivery
  | _, 0 => []
  | future, count + 1 => future.headD .ended :: schedule future.tail count

/-- Whichever streams are asked, together they deliver what a single one would. -/
theorem deliveries_eq (h : lexer.Settled source) (moves : Moves streams) :
    lexer.deliveries source moves = schedule (source.future lexer.cursor) moves.asks := by
  induction moves with
  | done => rfl
  | next stream rest ih =>
    obtain ⟨hdelivery, hbehind, hsettled⟩ := ask_spec h stream
    rw [deliveries, Moves.asks, schedule, ih hsettled, hdelivery, hbehind]
  | fresh rest ih =>
    rw [deliveries, Moves.asks, ih h.fresh]
    rfl

/-! ## Tokens, a failure, and ends -/

theorem schedule_nil (count : Nat) : schedule [] count = List.replicate count .ended := by
  induction count with
  | zero => rfl
  | succ count ih =>
    rw [List.replicate_succ, ← ih]
    rfl

theorem length_schedule (future : List Source.Delivery) (count : Nat) :
    (schedule future count).length = count := by
  induction count generalizing future with
  | zero => rfl
  | succ count ih => rw [schedule, List.length_cons, ih]

section Schedule
variable (tokens : List Token) (failure : Option Diagnostic) (count : Nat)

theorem schedule_tokens :
    (schedule (tokens.map .token ++ failure.toList.map .failed) count).filterMap
      Source.Delivery.token? = tokens.take count := by
  induction tokens generalizing count with
  | nil =>
    cases failure <;> cases count <;> simp [schedule, schedule_nil, Source.Delivery.token?]
  | cons token tokens ih =>
    cases count with
    | zero => rfl
    | succ count => simpa [schedule, Source.Delivery.token?] using ih count

theorem schedule_failures :
    (schedule (tokens.map .token ++ failure.toList.map .failed) count).filterMap
      Source.Delivery.failure? = if tokens.length < count then failure.toList else [] := by
  induction tokens generalizing count with
  | nil =>
    cases failure <;> cases count <;> simp [schedule, schedule_nil, Source.Delivery.failure?]
  | cons token tokens ih =>
    cases count with
    | zero => rfl
    | succ count => simpa [schedule, List.filterMap_cons, Source.Delivery.failure?] using ih count

variable {tokens failure count}

theorem schedule_behind {before after : List Source.Delivery} {last : Source.Delivery}
    (h : schedule (tokens.map .token ++ failure.toList.map .failed) count = before ++ last :: after)
    (hlast : last.token? = none) :
    before.filterMap Source.Delivery.token? = tokens ∧ ∀ delivery ∈ after, delivery = .ended := by
  induction tokens generalizing count before with
  | nil =>
    have hnone : ∀ delivery ∈ schedule (failure.toList.map .failed) count,
        delivery.token? = none := by
      cases failure <;> cases count <;> simp [schedule, schedule_nil, Source.Delivery.token?]
    have hends : ∀ delivery ∈ (schedule (failure.toList.map .failed) count).tail,
        delivery = .ended := by
      cases failure <;> cases count <;> simp [schedule, schedule_nil]
    rw [List.map_nil, List.nil_append] at h
    rw [h] at hnone hends
    constructor
    · exact List.filterMap_eq_nil_iff.2 fun delivery hmem =>
        hnone delivery (List.mem_append_left _ hmem)
    · intro delivery hmem
      apply hends delivery
      cases before with
      | nil => exact hmem
      | cons first before => exact List.mem_append_right before (List.mem_cons_of_mem last hmem)
  | cons token tokens ih =>
    cases count with
    | zero => simp [schedule] at h
    | succ count =>
      cases before with
      | nil =>
        cases h
        cases hlast
      | cons first before =>
        obtain ⟨hfirst, hrest⟩ := List.cons.inj h
        obtain ⟨htokens, hafter⟩ := ih hrest
        refine ⟨?_, hafter⟩
        rw [← hfirst, ← htokens]
        rfl

end Schedule

end Lexer

/-- What the streams of a fresh lexer deliver in a session. -/
def Source.session (source : Source) (moves : Moves 0) : List Source.Delivery :=
  Lexer.deliveries source ⟨source.start, Fin.elim0⟩ moves

/-- **Streams lose and repeat nothing.** A stream that is asked takes turns of the lexer up to a
token, a failure or the end. Whichever streams of one lexer are opened and asked, and in whatever
order, they deliver as many of the first tokens of the source as they are asked for. Once all tokens
are delivered the next one to be asked reports the failure, if there is one, and nobody else does;
and behind a failure or an end every stream, old or new, is at its end. -/
theorem streams_lose_nothing (source : Source) (moves : Moves 0) :
    (∀ cursor delivery behind, source.Pulls cursor delivery behind ↔
      source.deliver cursor = (delivery, behind)) ∧
    (source.session moves).length = moves.asks ∧
    (source.session moves).filterMap Source.Delivery.token? =
      (source.scan source.start).1.take moves.asks ∧
    (source.session moves).filterMap Source.Delivery.failure? =
      (if (source.scan source.start).1.length < moves.asks then
        (source.scan source.start).2.toList else []) ∧
    ∀ before last after, source.session moves = before ++ last :: after → last.token? = none →
      before.filterMap Source.Delivery.token? = (source.scan source.start).1 ∧
        ∀ delivery ∈ after, delivery = .ended := by
  have hsettled : Lexer.Settled source ⟨source.start, Fin.elim0⟩ := fun stream => stream.elim0
  have hsession : source.session moves = Lexer.schedule (source.future source.start) moves.asks :=
    Lexer.deliveries_eq hsettled moves
  rw [hsession]
  exact ⟨fun cursor delivery behind => Source.pulls_iff, Lexer.length_schedule _ _,
    Lexer.schedule_tokens _ _ _, Lexer.schedule_failures _ _ _,
    fun before last after h hlast => Lexer.schedule_behind h hlast⟩

/-- A word, a string and a string that is not closed. -/
def Source.halfOpen : Source :=
  ⟨[], "A \"b\" ;\n\"c".toList⟩

/-- A stream is left behind a token, a second one goes on, the first one meets the failure, and
neither the second nor a third one finds anything more. -/
def Moves.leftBehind : Moves 0 :=
  .fresh (.next 0 (.fresh (.next 1 (.next 0 (.next 1 (.fresh (.next 2 .done)))))))

theorem streams_lose_nothing_leftBehind :
    ∃ word string diagnostic, Source.halfOpen.session .leftBehind =
        [.token word, .token string, .failed diagnostic, .ended, .ended] ∧
      string.content = "\"b\"".toList ∧ diagnostic.location = some ⟨[], 2, 1⟩ ∧
      (Source.halfOpen.scan Source.halfOpen.start).1 = [word, string] := by
  have hsession : Source.halfOpen.session .leftBehind =
      [.token ⟨.label, "A".toList, ⟨[], 1, 1⟩⟩, .token ⟨.string, "\"b\"".toList, ⟨[], 1, 3⟩⟩,
        .failed ⟨.unterminatedString, some ⟨[], 2, 1⟩, none, some "\"c".toList⟩, .ended,
        .ended] := by
    decide +kernel
  obtain ⟨-, -, -, -, hbehind⟩ := streams_lose_nothing Source.halfOpen .leftBehind
  have htokens := (hbehind [_, _] _ [_, _] hsession rfl).1
  exact ⟨_, _, _, hsession, rfl, rfl, htokens.symm⟩

end LittleComputer
