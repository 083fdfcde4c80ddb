import LittleComputer.Proofs.Definitions
import LittleComputer.Proofs.EditDistance
import LittleComputer.Proofs.LetterCase
import Mathlib.Tactic

/-! # Suggestions for a misspelt name

A name that is not defined is reported together with labels that are close to it. One slip of the
keyboard is always close enough, in whatever case the letters are: the lengths then differ by one at
most, and two edits make up for it. What can hide a label are three others that were defined
earlier.

* `Slip`, `Typo`: one slip, and one slip up to the case of the letters.
* `Text.lower_eq_map`: texts of ASCII keep their length in lower case.
* `Typo.resembles`: a typo passes the test of lengths and the test of the distance.
* `SymbolTable.mem_similar_or`: a close label is suggested, or three before it are.
* `typos_suggested`: typos are suggested, and nothing else than close labels in their order.
-/

namespace LittleComputer
set_option autoImplicit false

/-! ## Slips -/

/-- Nothing, one edit, or a swap of two neighbours. -/
inductive Slip : Text → Text → Prop
  | none (a : Text) : Slip a a
  | edit {a b : Text} (h : Edit a b) : Slip a b
  | swap (front : Text) (c d : Char) (back : Text) :
    Slip (front ++ c :: d :: back) (front ++ d :: c :: back)

/-- The name differs from the label by one slip at most, the case of letters aside. -/
def Typo (name label : Text) : Prop :=
  ∃ a b, SameLetters name a ∧ Slip a b ∧ SameLetters b label

theorem Edit.map {a b : Text} (h : Edit a b) (f : Char → Char) : Edit (a.map f) (b.map f) := by
  cases h with
  | insertion front c back => simpa using Edit.insertion (front.map f) (f c) (back.map f)
  | deletion front c back => simpa using Edit.deletion (front.map f) (f c) (back.map f)
  | substitution front c d back =>
    simpa using Edit.substitution (front.map f) (f c) (f d) (back.map f)

theorem Edit.length_le {a b : Text} (h : Edit a b) :
    b.length ≤ a.length + 1 ∧ a.length ≤ b.length + 1 := by
  cases h <;> simp <;> omega

namespace Slip
variable {a b : Text}

theorem map (h : Slip a b) (f : Char → Char) : Slip (a.map f) (b.map f) := by
  cases h with
  | none => exact .none (a.map f)
  | edit h => exact .edit (h.map f)
  | swap front c d back => simpa using Slip.swap (front.map f) (f c) (f d) (back.map f)

theorem length_le (h : Slip a b) : b.length ≤ a.length + 1 ∧ a.length ≤ b.length + 1 := by
  cases h with
  | none => omega
  | edit h => exact h.length_le
  | swap front c d back => simp

/-- A swap is made up for by two substitutions. -/
theorem edits (h : Slip a b) : ∃ n ≤ 2, Edits n a b := by
  cases h with
  | none => exact ⟨0, by omega, .none a⟩
  | edit h => exact ⟨1, by omega, .single h⟩
  | swap front c d back =>
    have hsecond : Edit (front ++ d :: d :: back) (front ++ d :: c :: back) := by
      simpa using Edit.substitution (front ++ [d]) d c back
    exact ⟨2, le_rfl, .next (.substitution front c d (d :: back)) (.single hsecond)⟩

end Slip

/-! ## Lower case -/

/-- The text has characters of ASCII only. -/
def Text.IsAscii (text : Text) : Prop :=
  ∀ c ∈ text, c.toNat < 128

theorem Text.lowerFrom_eq_map (before : Text) {text : Text} (h : text.IsAscii) :
    lowerFrom before text = text.map Char.toLower := by
  induction text generalizing before with
  | nil => rfl
  | cons c rest ih =>
    have hc : c.toNat < 128 := h c List.mem_cons_self
    have hsigma : c ≠ 'Σ' := by
      rintro rfl
      exact absurd hc (by decide)
    rw [lowerFrom, if_neg hsigma, lowerChar, if_pos hc,
      ih (c :: before) fun d hd => h d (List.mem_cons_of_mem c hd)]
    rfl

theorem Text.lower_eq_map {text : Text} (h : text.IsAscii) :
    lower text = text.map Char.toLower :=
  lowerFrom_eq_map [] h

theorem toNat_toLower (c : Char) :
    c.toLower.toNat = if 65 ≤ c.toNat ∧ c.toNat ≤ 90 then c.toNat + 32 else c.toNat := by
  unfold Char.toLower
  split
  · next h =>
    have hlow : 65 ≤ c.toNat := h.1
    have hhigh : c.toNat ≤ 90 := h.2
    rw [if_pos ⟨hlow, hhigh⟩]
    show (c.val + ('a'.val - 'A'.val)).toNat = c.val.toNat + 32
    have hshift : ('a'.val - 'A'.val).toNat = 32 := by decide
    have hval : c.val.toNat = c.toNat := rfl
    rw [UInt32.toNat_add, hshift]
    omega
  · next h =>
    rw [if_neg fun hc => h ⟨hc.1, hc.2⟩]

theorem SameLetter.toLower_eq {c d : Char} (h : SameLetter c d) : d.toLower = c.toLower := by
  rw [← Char.toNat_inj, toNat_toLower, toNat_toLower]
  rcases h.cases with rfl | hletter | hletter
  · rfl
  · rw [if_neg (by omega), if_pos (by omega)]
    omega
  · rw [if_pos (by omega), if_neg (by omega)]
    omega

theorem SameLetters.map_toLower {a b : Text} (h : SameLetters a b) :
    b.map Char.toLower = a.map Char.toLower :=
  map_eq_of_forall₂ h fun _ _ => SameLetter.toLower_eq

/-! ## Close names -/

theorem resembles_iff {name label : Text} :
    resembles name label = true ↔ Text.lower label = Text.lower name ∨
      (label.length ≤ name.length + 1 ∧ name.length ≤ label.length + 1) ∧
        ∃ n ≤ 2, Edits n (Text.lower name) (Text.lower label) := by
  rw [← editDistance_le_iff]
  simp [resembles]

theorem Typo.resembles {name label : Text} (h : Typo name label) (hname : name.IsAscii)
    (hlabel : label.IsAscii) : resembles name label = true := by
  obtain ⟨a, b, hfirst, hslip, hsecond⟩ := h
  have hlower : Slip (Text.lower name) (Text.lower label) := by
    rw [Text.lower_eq_map hname, Text.lower_eq_map hlabel, hsecond.map_toLower,
      ← hfirst.map_toLower]
    exact hslip.map Char.toLower
  have hlengths := hslip.length_le
  rw [← hfirst.length_eq, hsecond.length_eq] at hlengths
  exact resembles_iff.2 (.inr ⟨hlengths, hlower.edits⟩)

theorem edits_of_resembles {name label : Text} (h : resembles name label = true) :
    ∃ n ≤ 2, Edits n (Text.lower name) (Text.lower label) := by
  rcases resembles_iff.1 h with hsame | ⟨-, hedits⟩
  · rw [hsame]
    exact ⟨0, by omega, .none (Text.lower name)⟩
  · exact hedits

/-! ## The labels that are suggested -/

/-- The first call of one name comes before the first call of another. -/
def DefinedBefore (calls : List Symbol) (a b : Text) : Prop :=
  (calls.map Symbol.name).idxOf a < (calls.map Symbol.name).idxOf b

namespace SymbolTable
variable {table : SymbolTable} {name label : Text}

theorem similar_sublist (table : SymbolTable) (name : Text) :
    (table.similar name).Sublist table.names :=
  (List.take_sublist 3 _).trans List.filter_sublist

theorem length_similar_le (table : SymbolTable) (name : Text) : (table.similar name).length ≤ 3 :=
  List.length_take_le 3 _

theorem resembles_of_mem_similar (h : label ∈ table.similar name) : resembles name label = true :=
  (List.mem_filter.1 (List.mem_of_mem_take h)).2

/-- A close label that is cut off stands behind all that are kept, whatever orders the labels. -/
theorem mem_similar_or {before : Text → Text → Prop} (hordered : table.names.Pairwise before)
    (hlabel : label ∈ table.names) (hclose : resembles name label = true) :
    label ∈ table.similar name ∨
      (table.similar name).length = 3 ∧ ∀ other ∈ table.similar name, before other label := by
  have hmem : label ∈ table.names.filter (resembles name) := List.mem_filter.2 ⟨hlabel, hclose⟩
  have hfiltered := hordered.sublist (List.filter_sublist (p := resembles name))
  rw [← List.take_append_drop 3 (table.names.filter (resembles name))] at hmem hfiltered
  rcases List.mem_append.1 hmem with hkept | hcut
  · exact .inl hkept
  · refine .inr ⟨?_, fun other hother => (List.pairwise_append.1 hfiltered).2.2 other hother _ hcut⟩
    have hlong := List.length_pos_of_mem hcut
    rw [List.length_drop] at hlong
    rw [similar, List.length_take]
    omega

end SymbolTable

/-- **Typos are suggested.** Whatever labels were defined, a label of ASCII is suggested for every
name of ASCII that is a typo of it, unless three labels are suggested that were all defined before
it. For any name the suggestions are three at most, without repeats and in the order of definition,
and each is a label that in lower case is two edits or less from the name. -/
theorem typos_suggested (calls : List Symbol) (name : Text) :
    (∀ label ∈ (SymbolTable.ofCalls calls).names, name.IsAscii → label.IsAscii →
      Typo name label →
        label ∈ (SymbolTable.ofCalls calls).similar name ∨
          ((SymbolTable.ofCalls calls).similar name).length = 3 ∧
            ∀ other ∈ (SymbolTable.ofCalls calls).similar name,
              DefinedBefore calls other label) ∧
      ((SymbolTable.ofCalls calls).similar name).Nodup ∧
      ((SymbolTable.ofCalls calls).similar name).length ≤ 3 ∧
      ((SymbolTable.ofCalls calls).similar name).Pairwise (DefinedBefore calls) ∧
      ∀ label ∈ (SymbolTable.ofCalls calls).similar name,
        label ∈ (SymbolTable.ofCalls calls).names ∧
          ∃ n ≤ 2, Edits n (Text.lower name) (Text.lower label) := by
  have hnames := (SymbolTable.recalls_ofCalls calls).names
  have hsublist := SymbolTable.similar_sublist (SymbolTable.ofCalls calls) name
  refine ⟨fun label hlabel hname hascii htypo => ?_, hnames.nodup.sublist hsublist,
    SymbolTable.length_similar_le _ name, hnames.ordered.sublist hsublist,
    fun label hlabel => ⟨hsublist.subset hlabel, ?_⟩⟩
  · exact SymbolTable.mem_similar_or hnames.ordered hlabel (htypo.resembles hname hascii)
  · exact edits_of_resembles (SymbolTable.resembles_of_mem_similar hlabel)

/-- A swap in small letters, with another label in front. -/
theorem typos_suggested_swapped :
    "TEXT".toList ∈ (SymbolTable.ofCalls
      [⟨"COUNTER".toList, 0x3004, none⟩, ⟨"TEXT".toList, 0x3003, none⟩]).similar "txet".toList := by
  have hascii : ∀ text : Text, text.all (·.toNat < 128) = true → text.IsAscii := by
    intro text h c hc
    simpa using List.all_eq_true.1 h c hc
  have htypo : Typo "txet".toList "TEXT".toList :=
    ⟨"txet".toList, "text".toList, .refl _, .swap ['t'] 'x' 'e' ['t'], by decide⟩
  obtain ⟨hsuggested, -⟩ := typos_suggested
    [⟨"COUNTER".toList, 0x3004, none⟩, ⟨"TEXT".toList, 0x3003, none⟩] "txet".toList
  refine (hsuggested "TEXT".toList (by decide) (hascii _ (by decide)) (hascii _ (by decide))
    htypo).resolve_right ?_
  rintro ⟨hlength, -⟩
  exact absurd hlength (by decide +kernel)

end LittleComputer
