import LittleComputer.Proofs.Encoding
import LittleComputer.Proofs.Rendering
import Mathlib.Data.Char
import Mathlib.Data.List.Lex
import Mathlib.Data.Prod.Lex
import Mathlib.Tactic

/-! # The text of a symbol table

The text shows the entries by address and then by name, so it does not tell in which order the
labels were defined, and it tells everything else: a name holds no blank, and an address of the
machine has four digits.

* `Symbol.key`: what the text shows of an entry, in the order in which it shows it.
* `SymbolTable.Regular`: what holds of the table of every source.
* `SymbolTable.sortedKeys_lt`: no two entries are shown alike.
* `symbols_canonical`: tables have one text exactly if they map names to the same addresses.
-/

namespace LittleComputer
set_option autoImplicit false

/-! ## The order of the entries -/

theorem Text.atMost_iff {a b : Text} : atMost a b = true ↔ a ≤ b := by
  rw [le_iff_lt_or_eq]
  induction a generalizing b with
  | nil => cases b <;> simp [atMost]
  | cons c a ih =>
    cases b with
    | nil => simp [atMost]
    | cons d b =>
      have hlt : c.toNat < d.toNat ↔ c < d := Iff.rfl
      rw [List.cons_lt_cons_iff, List.cons_eq_cons, or_assoc, ← and_or_left, ← ih, ← hlt]
      simp [atMost]

namespace Symbol

/-- Address and name: all that the text of a table shows of an entry. -/
def key (symbol : Symbol) : Int ×ₗ Text :=
  toLex (symbol.address, symbol.name)

/-- The entry stands in front of another: at a lower address, or at the same one with a name that
comes first by code points. -/
def Before (a b : Symbol) : Prop :=
  a.address < b.address ∨
    a.address = b.address ∧ List.Lex (fun c d => c.toNat < d.toNat) a.name b.name

theorem before_iff {a b : Symbol} : a.Before b ↔ a.key < b.key := by
  rw [key, key, Prod.Lex.toLex_lt_toLex]
  rfl

/-- A line that shows the entry: the name, a blank and an x, and four hexadecimal digits. -/
def ShownBy (symbol : Symbol) (line : Text) : Prop :=
  ∃ (n : Nat) (digits : Text), symbol.address = n ∧ Numeral.Writes 16 4 n digits ∧
    line = symbol.name ++ ' ' :: 'x' :: digits

/-- A line shows one address and one name that is a word. -/
theorem ShownBy.key_eq {a b : Symbol} {line : Text} (ha : a.ShownBy line) (hb : b.ShownBy line)
    (hword : ' ' ∉ a.name) (hword' : ' ' ∉ b.name) : a.key = b.key := by
  obtain ⟨n, digits, haddress, hwrites, rfl⟩ := ha
  obtain ⟨m, digits', haddress', hwrites', hline⟩ := hb
  obtain ⟨hname, hdigits⟩ := Text.append_mark_inj hword hword' hline
  obtain rfl := (List.cons.inj hdigits).2
  have hvalue : n = m := (hwrites.value_eq (.inr rfl)).symm.trans (hwrites'.value_eq (.inr rfl))
  rw [key, key, haddress, haddress', hname, hvalue]

end Symbol

namespace SymbolTable

theorem precedes_iff {a b : Symbol} : precedes a b = true ↔ a.key ≤ b.key := by
  rw [Symbol.key, Symbol.key, Prod.Lex.toLex_le_toLex, ← Text.atMost_iff]
  simp [precedes]

theorem shownBy_line {symbol : Symbol} (h : InMemory symbol.address) :
    symbol.ShownBy (line symbol) := by
  obtain ⟨n, hn⟩ := Int.eq_ofNat_of_zero_le h.1
  have htop : symbol.address ≤ 65535 := h.2
  refine ⟨n, Numeral.address n, hn, Numeral.writes_address (by omega), ?_⟩
  rw [line, hn, List.append_assoc]
  rfl

/-! ## Tables of sources -/

/-- No name is repeated, the names are words and the addresses are those of the machine. -/
structure Regular (table : SymbolTable) : Prop where
  nodup : table.names.Nodup
  words : ∀ symbol ∈ table.symbols, ∀ c ∈ symbol.name, isWordChar c = true
  inMemory : ∀ symbol ∈ table.symbols, InMemory symbol.address

theorem regular_of_read {source : Source} {tokens : List Token} {reading : Reading}
    {table : SymbolTable} (hread : source.read = .ok (tokens, reading))
    (htable : ofStatements reading.statements = .ok table) : table.Regular := by
  have hrecords := records_of_ofStatements (Source.read_wellFormed hread) htable
  have hnodup : table.names.Nodup := by
    rw [hrecords.names]
    exact hrecords.nodup
  refine ⟨hnodup, ?_, ?_⟩
  · intro symbol hsymbol
    obtain ⟨earlier, statement, later, hsplit, -, hlabel, -⟩ := hrecords.source hsymbol
    have hstatement : statement ∈ reading.statements := by
      rw [hsplit]
      exact List.mem_append_right _ List.mem_cons_self
    exact ((read_writable hread statement hstatement).labels _ hlabel).2.1
  · intro symbol hsymbol
    have hfind := find?_of_mem hnodup hsymbol
    exact hrecords.inMemory (Option.map_eq_some_iff.2 ⟨symbol, hfind, rfl⟩)

/-- The keys in the order of the text. -/
def sortedKeys (table : SymbolTable) : List (Int ×ₗ Text) :=
  (table.symbols.mergeSort precedes).map Symbol.key

theorem text_of_sortedKeys {t u : SymbolTable} (h : t.sortedKeys = u.sortedKeys) :
    t.text = u.text := by
  -- a line is made from the key of its entry
  let shown (key : Int ×ₗ Text) : Text :=
    (ofLex key).2 ++ " x".toList ++ Numeral.address (ofLex key).1
  have hlines : ∀ table : SymbolTable,
      (table.symbols.mergeSort precedes).map line = table.sortedKeys.map shown := by
    intro table
    rw [sortedKeys, List.map_map]
    rfl
  rw [text, text, hlines, hlines, h]

theorem sortedKeys_le (table : SymbolTable) : table.sortedKeys.Pairwise (· ≤ ·) := by
  refine List.pairwise_map.2 ((List.pairwise_mergeSort ?_ ?_ table.symbols).imp precedes_iff.1)
  · intro a b c hab hbc
    exact precedes_iff.2 ((precedes_iff.1 hab).trans (precedes_iff.1 hbc))
  · intro a b
    rw [Bool.or_eq_true, precedes_iff, precedes_iff]
    exact le_total a.key b.key

theorem perm_sortedKeys (table : SymbolTable) :
    table.sortedKeys.Perm (table.symbols.map Symbol.key) :=
  (List.mergeSort_perm table.symbols precedes).map Symbol.key

namespace Regular
variable {table t u : SymbolTable}

theorem nodup_sortedKeys (h : table.Regular) : table.sortedKeys.Nodup := by
  rw [table.perm_sortedKeys.nodup_iff]
  refine List.Nodup.of_map (fun key => (ofLex key).2) ?_
  rw [List.map_map]
  exact h.nodup

theorem sortedKeys_lt (h : table.Regular) : table.sortedKeys.Pairwise (· < ·) :=
  table.sortedKeys_le.imp₂ (fun _ _ hle hne => lt_of_le_of_ne hle hne) h.nodup_sortedKeys

theorem mem_sortedKeys (h : table.Regular) {name : Text} {address : Int} :
    toLex (address, name) ∈ table.sortedKeys ↔ table.address? name = some address := by
  rw [table.perm_sortedKeys.mem_iff, List.mem_map, address?, Option.map_eq_some_iff]
  constructor
  · rintro ⟨symbol, hsymbol, hkey⟩
    obtain ⟨rfl, rfl⟩ := Prod.mk.inj (toLex.injective hkey)
    exact ⟨symbol, find?_of_mem h.nodup hsymbol, rfl⟩
  · rintro ⟨symbol, hfind, rfl⟩
    exact ⟨symbol, List.mem_of_find?_eq_some hfind, by rw [Symbol.key, find?_name hfind]⟩

/-- Sorted keys are determined by the keys, so the order of definition does not show. -/
theorem sortedKeys_eq (ht : t.Regular) (hu : u.Regular)
    (h : ∀ name, t.address? name = u.address? name) : t.sortedKeys = u.sortedKeys := by
  have hperm : t.sortedKeys.Perm u.sortedKeys := by
    rw [List.perm_ext_iff_of_nodup ht.nodup_sortedKeys hu.nodup_sortedKeys]
    intro key
    obtain ⟨address, name⟩ := key
    exact ht.mem_sortedKeys.trans ((Iff.of_eq (by rw [h])).trans hu.mem_sortedKeys.symm)
  exact hperm.eq_of_pairwise (fun _ _ _ _ => le_antisymm) t.sortedKeys_le u.sortedKeys_le

theorem lines_text (h : table.Regular) :
    Text.lines table.text =
      "; Symbol table".toList :: (table.symbols.mergeSort precedes).map line := by
  apply SymbolTable.lines_text
  intro name hname
  obtain ⟨symbol, hsymbol, rfl⟩ := List.mem_map.1 hname
  exact newline_notMem_word (h.words symbol hsymbol)

/-- A line of one table that is also a line of the other shows the same key. -/
theorem address?_of_text (ht : t.Regular) (hu : u.Regular) (h : t.text = u.text) {name : Text}
    {address : Int} (haddress : t.address? name = some address) :
    u.address? name = some address := by
  obtain ⟨symbol, hfind, rfl⟩ := Option.map_eq_some_iff.1 haddress
  have hsymbol : symbol ∈ t.symbols := List.mem_of_find?_eq_some hfind
  have hline : line symbol ∈ (u.symbols.mergeSort precedes).map line := by
    have hlines := ht.lines_text
    rw [h, hu.lines_text] at hlines
    rw [(List.cons.inj hlines).2]
    exact List.mem_map_of_mem (List.mem_mergeSort.2 hsymbol)
  obtain ⟨other, hother, hshown⟩ := List.mem_map.1 hline
  have hother := List.mem_mergeSort.1 hother
  have hkey : other.key = symbol.key := by
    have hshows := shownBy_line (hu.inMemory other hother)
    rw [hshown] at hshows
    exact hshows.key_eq (shownBy_line (ht.inMemory symbol hsymbol))
      (blank_notMem_word (hu.words other hother)) (blank_notMem_word (ht.words symbol hsymbol))
  have hmem : symbol.key ∈ u.sortedKeys := by
    rw [← hkey, u.perm_sortedKeys.mem_iff]
    exact List.mem_map_of_mem hother
  rw [← find?_name hfind]
  exact hu.mem_sortedKeys.1 hmem

theorem text_eq_iff (ht : t.Regular) (hu : u.Regular) :
    t.text = u.text ↔ ∀ name, t.address? name = u.address? name := by
  constructor
  · intro h name
    apply Option.ext
    intro address
    exact ⟨ht.address?_of_text hu h, hu.address?_of_text ht h.symm⟩
  · intro h
    exact text_of_sortedKeys (ht.sortedKeys_eq hu h)

end Regular

end SymbolTable

/-! ## Canonical texts -/

/-- **Canonical symbol tables.** The tables of two sources that can be read have one text exactly if
they give every name the same address, whatever the order of the definitions. Behind the heading the
text has one line for each entry, by address and then by the code points of the names. -/
theorem symbols_canonical {p q : Source} {ts us : List Token} {first second : Reading}
    {t u : SymbolTable} (hp : p.read = .ok (ts, first)) (hq : q.read = .ok (us, second))
    (ht : SymbolTable.ofStatements first.statements = .ok t)
    (hu : SymbolTable.ofStatements second.statements = .ok u) :
    (t.text = u.text ↔ ∀ name, t.address? name = u.address? name) ∧
      ∃ (entries : List Symbol) (lines : List Text), entries.Perm t.symbols ∧
        Text.lines t.text = "; Symbol table".toList :: lines ∧
        List.Forall₂ Symbol.ShownBy entries lines ∧ entries.Pairwise Symbol.Before := by
  have hregular := SymbolTable.regular_of_read hp ht
  refine ⟨hregular.text_eq_iff (SymbolTable.regular_of_read hq hu), _, _,
    List.mergeSort_perm t.symbols SymbolTable.precedes, hregular.lines_text, ?_, ?_⟩
  · rw [List.forall₂_map_right_iff, List.forall₂_same]
    intro symbol hsymbol
    exact SymbolTable.shownBy_line (hregular.inMemory symbol (List.mem_mergeSort.1 hsymbol))
  · exact (List.pairwise_map.1 hregular.sortedKeys_lt).imp Symbol.before_iff.2

/-- Two labels of one address and a third one behind them. -/
def Source.upwards : Source :=
  ⟨[], ".ORIG x3000\nB A HALT\nÉ HALT\n.END".toList⟩

/-- The same labels, defined in the opposite order. -/
def Source.downwards : Source :=
  ⟨[], ".ORIG x3001 É HALT .ORIG x3000 A B HALT .END".toList⟩

theorem symbols_canonical_opposite :
    ∃ ts us first second t u, Source.upwards.read = .ok (ts, first) ∧
      Source.downwards.read = .ok (us, second) ∧
      SymbolTable.ofStatements first.statements = .ok t ∧
      SymbolTable.ofStatements second.statements = .ok u ∧ t.names ≠ u.names ∧
      t.text = u.text := by
  have hupwards : ∃ result, Source.upwards.read = .ok result ∧
      ∃ table, SymbolTable.ofStatements result.2.statements = .ok table ∧
        table = ⟨[⟨['B'], 0x3000, some ⟨[], 2, 5⟩⟩, ⟨['A'], 0x3000, some ⟨[], 2, 5⟩⟩,
          ⟨['É'], 0x3001, some ⟨[], 3, 3⟩⟩]⟩ := by
    decide +kernel
  have hdownwards : ∃ result, Source.downwards.read = .ok result ∧
      ∃ table, SymbolTable.ofStatements result.2.statements = .ok table ∧
        table = ⟨[⟨['É'], 0x3001, some ⟨[], 1, 15⟩⟩, ⟨['A'], 0x3000, some ⟨[], 1, 36⟩⟩,
          ⟨['B'], 0x3000, some ⟨[], 1, 36⟩⟩]⟩ := by
    decide +kernel
  obtain ⟨⟨ts, first⟩, hp, t, ht, rfl⟩ := hupwards
  obtain ⟨⟨us, second⟩, hq, u, hu, rfl⟩ := hdownwards
  refine ⟨ts, us, first, second, _, _, hp, hq, ht, hu, by decide,
    (symbols_canonical hp hq ht hu).1.2 ?_⟩
  intro name
  by_cases hmem : name ∈ [['A'], ['B'], ['É']]
  · simp only [List.mem_cons, List.not_mem_nil, or_false] at hmem
    rcases hmem with rfl | rfl | rfl <;> rfl
  · have hnone : ∀ table : SymbolTable, table.names ⊆ [['A'], ['B'], ['É']] →
        table.address? name = none := by
      intro table hnames
      rw [SymbolTable.address?, SymbolTable.find?_eq_none_iff.2 fun h => hmem (hnames h)]
      rfl
    rw [hnone _ (by decide), hnone _ (by decide)]

end LittleComputer
