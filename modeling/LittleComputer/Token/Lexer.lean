import LittleComputer.Diagnostic
import LittleComputer.Token.Class

/-! # Reading tokens

A source is gaps and lexemes in turn. A gap is white space, commas and comments, which run from a
semicolon to the end of the line. A lexeme is a string between double quotes or the longest run of
characters that are neither white space nor comma nor semicolon.

* `splitGap`, `splitString`: a gap or a string at the head of a text, and what follows.
* `Source.next`: the first token behind a cursor, and the cursor behind it.
* `Source.scan`: all tokens behind a cursor, and the diagnostic that ends them, if any.
* `Source.tokens`: the tokens of a whole source.
-/

namespace LittleComputer
set_option autoImplicit false

/-! ## Positions -/

/-- A line and a column, both counted from one. -/
structure Position where
  line : Nat
  column : Nat
  deriving DecidableEq, Repr

namespace Position

def start : Position := ⟨1, 1⟩

/-- The position behind a character. -/
def advance (position : Position) (c : Char) : Position :=
  if c = '\n' then ⟨position.line + 1, 1⟩ else ⟨position.line, position.column + 1⟩

def after (position : Position) (text : Text) : Position :=
  text.foldl advance position

end Position

/-! ## Gaps and lexemes -/

def isSeparator (c : Char) : Bool :=
  Text.isBlank c || c == ','

def isWordChar (c : Char) : Bool :=
  !isSeparator c && c != ';'

/-- The gap at the head of a text and the rest. Inside a comment every character up to the newline
belongs to the gap. -/
def splitGap (inComment : Bool) : Text → Text × Text
  | [] => ([], [])
  | c :: rest =>
    if inComment || !isWordChar c then
      let split := splitGap ((inComment || c == ';') && c != '\n') rest
      (c :: split.1, split.2)
    else ([], c :: rest)

/-- The character that a backslash and a character stand for. -/
def unescape (c : Char) : Char :=
  match c with
  | 'n' => '\n'
  | 't' => '\t'
  | 'b' => Char.ofNat 8
  | c => c

/-- A string behind its opening quote: how it is written, the characters it denotes, both with the
closing quote, and what follows. -/
structure StringSplit where
  lexeme : Text
  content : Text
  rest : Text
  deriving DecidableEq, Repr

/-- The string at the head of a text that follows an opening quote, if it is closed. -/
def splitString : Text → Option StringSplit
  | [] => none
  | '"' :: rest => some ⟨['"'], ['"'], rest⟩
  | '\\' :: [] => none
  | '\\' :: c :: rest =>
    (splitString rest).map fun split =>
      ⟨'\\' :: c :: split.lexeme, unescape c :: split.content, split.rest⟩
  | c :: rest =>
    (splitString rest).map fun split => ⟨c :: split.lexeme, c :: split.content, split.rest⟩

/-! ### A lexeme shortens the rest -/

theorem splitGap_append (inComment : Bool) (text : Text) :
    (splitGap inComment text).1 ++ (splitGap inComment text).2 = text := by
  induction text generalizing inComment with
  | nil => rfl
  | cons c rest ih =>
    rw [splitGap]
    split
    · simp only [List.cons_append, ih]
    · rfl

theorem splitGap_length_le (inComment : Bool) (text : Text) :
    (splitGap inComment text).2.length ≤ text.length := by
  have h := congrArg List.length (splitGap_append inComment text)
  rw [List.length_append] at h
  omega

theorem splitString_append {text : Text} {split : StringSplit} (h : splitString text = some split) :
    split.lexeme ++ split.rest = text := by
  fun_induction splitString text generalizing split with
  | case1 => simp at h
  | case2 rest => cases h; rfl
  | case3 => simp at h
  | case4 c rest ih =>
    obtain ⟨inner, hinner, rfl⟩ := Option.map_eq_some_iff.1 h
    simp only [List.cons_append, ih hinner]
  | case5 c rest _ _ _ ih =>
    obtain ⟨inner, hinner, rfl⟩ := Option.map_eq_some_iff.1 h
    simp only [List.cons_append, ih hinner]

theorem splitString_length_le {text : Text} {split : StringSplit}
    (h : splitString text = some split) : split.rest.length ≤ text.length := by
  have h := congrArg List.length (splitString_append h)
  rw [List.length_append] at h
  omega

/-- What follows a gap does not start with a character of gaps. -/
theorem isWordChar_of_splitGap {inComment : Bool} {text : Text} {c : Char} {rest : Text}
    (h : (splitGap inComment text).2 = c :: rest) : isWordChar c = true := by
  induction text generalizing inComment with
  | nil => simp [splitGap] at h
  | cons d tail ih =>
    rw [splitGap] at h
    split at h
    · exact ih h
    · next hd =>
      obtain ⟨rfl, rfl⟩ := List.cons.inj h
      have hword : inComment = false ∧ isWordChar d = true := by simpa using hd
      exact hword.2

/-! ## Sources and cursors -/

/-- A text to assemble and the file name that messages show for it. -/
structure Source where
  file : Text
  text : Text
  deriving DecidableEq, Repr

/-- A place in a source: where it is and what is still to be read. -/
structure Cursor where
  position : Position
  rest : Text
  deriving DecidableEq, Repr

namespace Source

/-- The name shown for a text that comes from no file. -/
def unnamed : Text := "<input>".toList

def start (source : Source) : Cursor :=
  ⟨.start, source.text⟩

/-- The cursor behind everything that is left. -/
def finish (cursor : Cursor) : Cursor :=
  ⟨cursor.position.after cursor.rest, []⟩

def locate (source : Source) (position : Position) : Location :=
  ⟨source.file, position.line, position.column⟩

/-- The number of characters that are read in front of a cursor. -/
def offset (source : Source) (cursor : Cursor) : Nat :=
  source.text.length - cursor.rest.length

/-- The diagnostic for a string that is not closed, with the cursor at its opening quote. The line it
shows is the one around the offset of the quote. -/
def unterminated (source : Source) (quote : Cursor) : Diagnostic :=
  { problem := .unterminatedString
    location := some (source.locate quote.position)
    advice := none
    sourceLine := some (source.text.lineAround (source.offset quote)) }

/-- The first token behind a cursor and the cursor behind that token. -/
def next (source : Source) (cursor : Cursor) : Except Diagnostic (Option (Token × Cursor)) :=
  let gap := splitGap false cursor.rest
  let place := cursor.position.after gap.1
  match gap.2 with
  | [] => .ok none
  | '"' :: body =>
    match splitString body with
    | none => .error (source.unterminated ⟨place, '"' :: body⟩)
    | some split =>
      .ok (some (⟨.string, '"' :: split.content, source.locate place⟩,
        ⟨place.after ('"' :: split.lexeme), split.rest⟩))
  | c :: rest =>
    let word := (c :: rest).takeWhile isWordChar
    .ok (some (⟨.ofWord word, word, source.locate place⟩,
      ⟨place.after word, (c :: rest).dropWhile isWordChar⟩))

theorem next_length_lt {source : Source} {cursor : Cursor} {token : Token} {behind : Cursor}
    (h : source.next cursor = .ok (some (token, behind))) :
    behind.rest.length < cursor.rest.length := by
  have hgap := splitGap_length_le false cursor.rest
  rw [next] at h
  split at h
  · simp at h
  · next body hbody =>
    rw [hbody, List.length_cons] at hgap
    split at h
    · simp at h
    · next split hsplit =>
      have hle := splitString_length_le hsplit
      injection h with h
      injection h with h
      injection h with _ h
      subst h
      show split.rest.length < cursor.rest.length
      omega
  · next c rest _ hrest =>
    rw [hrest, List.length_cons] at hgap
    have hc := isWordChar_of_splitGap hrest
    have hle := (List.dropWhile_sublist (l := rest) isWordChar).length_le
    injection h with h
    injection h with h
    injection h with _ h
    subst h
    show (List.dropWhile isWordChar (c :: rest)).length < cursor.rest.length
    rw [List.dropWhile_cons_of_pos hc]
    omega

/-- All tokens behind a cursor, and the diagnostic that ends them, if any. -/
def scan (source : Source) (cursor : Cursor) : List Token × Option Diagnostic :=
  match _next : source.next cursor with
  | .error diagnostic => ([], some diagnostic)
  | .ok none => ([], none)
  | .ok (some (token, behind)) =>
    let rest := source.scan behind
    (token :: rest.1, rest.2)
termination_by cursor.rest.length
decreasing_by exact next_length_lt _next

def tokens (source : Source) : Except Diagnostic (List Token) :=
  match source.scan source.start with
  | (tokens, none) => .ok tokens
  | (_, some diagnostic) => .error diagnostic

/-! ## Streams -/

/-- What a stream of tokens delivers when it is asked for the next one. -/
inductive Delivery where
  | token (token : Token)
  | failed (diagnostic : Diagnostic)
  | ended
  deriving DecidableEq, Repr

/-- One step of a stream. It goes on from where the cursor stands; behind a failure nothing is
left. -/
def deliver (source : Source) (cursor : Cursor) : Delivery × Cursor :=
  match source.next cursor with
  | .error diagnostic => (.failed diagnostic, finish cursor)
  | .ok none => (.ended, finish cursor)
  | .ok (some (token, behind)) => (.token token, behind)

end Source

end LittleComputer
