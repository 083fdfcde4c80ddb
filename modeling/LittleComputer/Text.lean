/-! # Text

Sources, names, messages and renderings are lists of characters, so that lengths, columns and
slices count code points.

* `Text.join`: parts with a separator between neighbours; `Text.unlines` joins lines.
* `Text.split`: the pieces between the occurrences of a character; `Text.lines` splits at newlines.
* `Text.lineAround`: the line of a place, found by a search for newlines to both sides of it.
* `Text.splitLines`: the lines of a text that may end in other characters than newlines.
* `Text.distinct`: a list of texts without repeats, each kept where it stands first.
* `Text.atMost`: the order of texts by code points.
* `Text.isBlank`: white space.
-/

namespace LittleComputer
set_option autoImplicit false

/-- A sequence of code points. -/
abbrev Text := List Char

namespace Text

/-- The parts in order, with the separator between neighbours. -/
def join (separator : Text) : List Text → Text
  | [] => []
  | [part] => part
  | part :: next :: rest => part ++ (separator ++ join separator (next :: rest))

/-- The lines in order, with a newline between neighbours and none behind the last. -/
def unlines (parts : List Text) : Text :=
  join ['\n'] parts

/-- The pieces between the occurrences of a character; there is always at least one. -/
def split (separator : Char) : Text → List Text
  | [] => [[]]
  | c :: rest =>
    if c = separator then
      [] :: split separator rest
    else
      match split separator rest with
      | [] => [[c]]
      | piece :: pieces => (c :: piece) :: pieces

def lines (text : Text) : List Text :=
  split '\n' text

/-- The texts without repeats, each kept where it stands first. -/
def distinct : List Text → List Text
  | [] => []
  | name :: rest => name :: (distinct rest).filter (· ≠ name)

/-- True when a text equals another or comes before it in the order of the code points; a text comes
before its continuations. -/
def atMost : Text → Text → Bool
  | [], _ => true
  | _ :: _, [] => false
  | a :: as, b :: bs => a.toNat < b.toNat || (a == b && atMost as bs)

/-- The text between two apostrophes, as messages show names. -/
def named (text : Text) : Text :=
  "'".toList ++ text ++ "'".toList

/-! ## The line of a place -/

/-- The index of the last newline in front of an offset. -/
def newlineBefore? (text : Text) (offset : Nat) : Option Nat :=
  let front := text.take offset
  (front.reverse.idxOf? '\n').map fun distance => front.length - 1 - distance

/-- The index of the first newline from an offset on. -/
def newlineFrom? (text : Text) (offset : Nat) : Option Nat :=
  ((text.drop offset).idxOf? '\n').map (offset + ·)

/-- Where the line of an offset starts: behind the last newline in front of the offset, or with the
text. -/
def lineStart (text : Text) (offset : Nat) : Nat :=
  match text.newlineBefore? offset with
  | some index => index + 1
  | none => 0

/-- Where the line of an offset ends: at the first newline from the offset on, or with the text. -/
def lineEnd (text : Text) (offset : Nat) : Nat :=
  (text.newlineFrom? offset).getD text.length

/-- The line that an offset lies on. -/
def lineAround (text : Text) (offset : Nat) : Text :=
  (text.take (text.lineEnd offset)).drop (text.lineStart offset)

/-! ## Classes of characters -/

/-- True when the character lies in one of the ranges, ends included. -/
def inRanges (ranges : List (Nat × Nat)) (c : Char) : Bool :=
  ranges.any fun range => range.1 ≤ c.toNat && c.toNat ≤ range.2

/-- The ranges of white space: Unicode's bidirectional classes B, S and WS and its category Zs. A
newline is one of them; a zero-width space and a byte order mark are not. -/
def blankRanges : List (Nat × Nat) :=
  [(0x09, 0x0D), (0x1C, 0x20), (0x85, 0x85), (0xA0, 0xA0), (0x1680, 0x1680), (0x2000, 0x200A),
    (0x2028, 0x2029), (0x202F, 0x202F), (0x205F, 0x205F), (0x3000, 0x3000)]

def isBlank (c : Char) : Bool :=
  inRanges blankRanges c

/-- A text without the white space at its end. -/
def trimEnd (text : Text) : Text :=
  (text.reverse.dropWhile isBlank).reverse

/-! ## Line ends

Text that is printed line by line is cut at every character that ends a line, not only at newlines.
A carriage return and a newline behind it are one end, and the last end opens no further line. -/

def lineEndRanges : List (Nat × Nat) :=
  [(0x0A, 0x0D), (0x1C, 0x1E), (0x85, 0x85), (0x2028, 0x2029)]

def endsLine (c : Char) : Bool :=
  inRanges lineEndRanges c

/-- The lines of a text without their ends. -/
def splitLines : Text → List Text
  | [] => []
  | '\r' :: '\n' :: rest => [] :: splitLines rest
  | c :: rest =>
    if endsLine c then
      [] :: splitLines rest
    else
      match splitLines rest with
      | [] => [[c]]
      | line :: lines => (c :: line) :: lines

end Text

end LittleComputer
