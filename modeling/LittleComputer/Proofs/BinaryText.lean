import LittleComputer.Proofs.Listing
import Mathlib.Tactic

/-! # Reading the binary text of words

The words of a program are written one a line, as sixteen binary digits. The text says no more and
no less than the words: a reader that knows nothing but the format gets them back, and of integers
beyond the range of words their remainder modulo 65536.

* `Word.ofBits?`, `Word.ofLines?`: the reader.
* `Word.ofBits?_bits`, `Word.ofLines?_lines`: it undoes the writer.
* `words_read_back`: the text of an assembled source, and of any integers.
-/

namespace LittleComputer
set_option autoImplicit false

namespace Word

/-- The value of sixteen binary digits, the most significant first. -/
def ofBits? (text : Text) : Option Nat :=
  if text.length = 16 ∧ text.all (fun c => c == '0' || c == '1') then
    some (Nat.ofDigits 2 (text.reverse.map fun c => if c = '1' then 1 else 0))
  else none

/-- The values of the lines of a text. The empty text has no line. -/
def ofLines? (text : Text) : Option (List Nat) :=
  if text = [] then some [] else (Text.lines text).mapM ofBits?

theorem ofBits?_of_writes {n : Nat} {text : Text} (h : Numeral.Writes 2 16 n text) :
    ofBits? text = some n := by
  obtain ⟨values, rfl, hlength, hvalues, rfl⟩ := h
  have hdigit : ∀ v < 2, (Numeral.digitChar v == '0' || Numeral.digitChar v == '1') = true := by
    decide
  have hbit : ∀ v < 2, (if Numeral.digitChar v = '1' then 1 else 0) = v := by decide
  have hform : (values.map Numeral.digitChar).length = 16 ∧
      (values.map Numeral.digitChar).all (fun c => c == '0' || c == '1') = true := by
    refine ⟨by rw [List.length_map, hlength], ?_⟩
    rw [List.all_map, List.all_eq_true]
    intro v hv
    exact hdigit v (hvalues v hv)
  have hread : (values.map Numeral.digitChar).reverse.map (fun c => if c = '1' then 1 else 0) =
      values.reverse := by
    rw [← List.map_reverse, List.map_map]
    conv_rhs => rw [← List.map_id values.reverse]
    exact List.map_congr_left fun v hv => hbit v (hvalues v (List.mem_reverse.1 hv))
  rw [ofBits?, if_pos hform, hread, Numeral.value_eq_ofDigits]

theorem ofBits?_bits (word : Word) : ofBits? word.bits = some word.toNat :=
  ofBits?_of_writes (Numeral.writes_bits word)

theorem newline_notMem_bits (word : Word) : '\n' ∉ word.bits :=
  Text.newline_notMem ((Numeral.writes_bits word).not_isBlank (by omega))

theorem lines_lines {words : List Word} (h : words ≠ []) :
    Text.lines (Word.lines words) = words.map bits := by
  have hparts : words.map bits ≠ [] := by simpa using h
  rw [Word.lines, Text.lines_unlines hparts, Text.flatMap_lines_eq_self]
  intro part hpart
  obtain ⟨word, -, rfl⟩ := List.mem_map.1 hpart
  exact newline_notMem_bits word

theorem mapM_ofBits? (words : List Word) :
    (words.map bits).mapM ofBits? = some (words.map BitVec.toNat) := by
  induction words with
  | nil => rfl
  | cons word rest ih => simp [ofBits?_bits, ih]

theorem ofLines?_lines (words : List Word) :
    ofLines? (Word.lines words) = some (words.map BitVec.toNat) := by
  cases words with
  | nil => rfl
  | cons word rest =>
    have hlines := lines_lines (List.cons_ne_nil word rest)
    have hne : Word.lines (word :: rest) ≠ [] := by
      -- the empty text is one empty line
      intro hnone
      rw [hnone] at hlines
      exact List.cons_ne_nil _ _ (List.cons.inj hlines).1.symm
    rw [ofLines?, if_neg hne, hlines, mapM_ofBits?]

end Word

/-- **The words are read back.** The binary text of an assembled source gives its words, which are
the numbers that its statements make, and the binary text of any integers gives each of them modulo
65536, in order. -/
theorem words_read_back :
    (∀ (source : Source) (assembly : Assembly), source.assemble = .ok assembly →
      Word.ofLines? assembly.wordsText = some (assembly.words.map BitVec.toNat) ∧
      ∀ block ∈ assembly.blocks,
        block.statement.Makes assembly.symbols block.address (block.words.map BitVec.toNat)) ∧
    ∀ numbers : List Int, Word.ofLines? (Word.lines (numbers.map Word.ofInteger)) =
      some (numbers.map fun n => (n % 0x10000).toNat) := by
  constructor
  · intro source assembly h
    exact ⟨Word.ofLines?_lines assembly.words, fun _ => Source.makes_of_assemble h⟩
  · intro numbers
    rw [Word.ofLines?_lines, List.map_map]
    exact congrArg some (List.map_congr_left fun n _ => Word.toNat_ofInteger_mod n)

/-- The least and the greatest datum, a trap and a block without words. -/
def Source.outermost : Source :=
  ⟨[], ".ORIG x3000 .FILL #-32768 .FILL x7FFF .BLKW 0 HALT .END".toList⟩

theorem words_read_back_outermost :
    (∃ assembly, Source.outermost.assemble = .ok assembly ∧
      Word.ofLines? assembly.wordsText = some [0x8000, 0x7FFF, 0xF025]) ∧
    Word.ofLines? (Word.lines ([-1, 0x10000, 0x1FFFE].map Word.ofInteger)) =
      some [0xFFFF, 0, 0xFFFE] := by
  obtain ⟨hassembled, hnumbers⟩ := words_read_back
  refine ⟨?_, hnumbers [-1, 0x10000, 0x1FFFE]⟩
  have hprogram : ∃ assembly, Source.outermost.assemble = .ok assembly ∧
      assembly.words.map BitVec.toNat = [0x8000, 0x7FFF, 0xF025] := by
    decide +kernel
  obtain ⟨assembly, h, hwords⟩ := hprogram
  exact ⟨assembly, h, hwords ▸ (hassembled Source.outermost assembly h).1⟩

end LittleComputer
