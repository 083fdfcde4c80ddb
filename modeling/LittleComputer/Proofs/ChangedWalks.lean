import LittleComputer.Proofs.Change
import LittleComputer.Proofs.Encoding
import Mathlib.Tactic

/-! # Both walks under a change

The walks over two programs that differ by a change of names and places keep in step. Their counters
and tables differ by the distance between the values of `.ORIG`; the words do not differ at all,
since an instruction holds only differences of addresses.

* `Change.mirrors_encode`: one statement of the second walk.
* `Change.mirrors_encodeFrom`: the whole second walk.
* `Change.mirrors_extend`: the whole first walk. Where addresses move, one of the two programs may
  leave the memory and fail alone.
-/

namespace LittleComputer
set_option autoImplicit false

namespace Change
variable {c : Change} {d : Int} {left right : Prop} {table table' : SymbolTable}

/-! ## One statement -/

section Statements
variable {s s' : Statement}

theorem mirrors_footprint (h : c.MapsStatement d s s') (horig : s.mnemonic ≠ .orig) :
    Mirrors left right c.MapsFailure (fun a b => b = a) s.footprint s'.footprint := by
  have hfirst : Mirrors left right c.MapsFault c.MapsToken s.firstOperand s'.firstOperand :=
    mirrors_firstOperand (h.operands horig)
  unfold Statement.footprint
  rw [h.mnemonic]
  apply MapsFault.mirrors
  split
  · refine hfirst.bind fun t t' ht => ht.stringText.bind fun text _ heq => ?_
    rw [heq]
    exact .ok rfl
  · refine hfirst.bind fun t t' ht => ht.numberValue.bind fun count _ heq => ?_
    rw [heq]
    exact .ok rfl
  · exact .ok rfl

theorem mirrors_characterWords {l l' : Location} (h : c.places l l') (text : Text) :
    Mirrors left right c.MapsFailure (fun a b => b = a) (Statement.characterWords l text)
      (Statement.characterWords l' text) := by
  induction text with
  | nil => exact .ok rfl
  | cons character text ih =>
    unfold Statement.characterWords
    split
    · refine ih.bind fun words _ heq => ?_
      rw [heq]
      exact .ok rfl
    · exact .error (MapsDiagnostic.plain (.same _) (.some h)).failure

/-- The words of a statement do not change: registers and immediates stay, and so do the distances
to labels. -/
theorem mirrors_encodeAs (h : c.MapsStatement d s s') (horig : s.mnemonic ≠ .orig)
    (htable : c.MapsLookup d left right table table') (format : Format) (next : Int) :
    Mirrors left right c.MapsFailure (fun a b => b = a) (s.encodeAs format table next)
      (s'.encodeAs format table' (next + d)) := by
  have hoperands := h.operands horig
  unfold Statement.encodeAs
  rw [h.mnemonic]
  cases format with
  | operate =>
    refine (mirrors_threeOperands hoperands).bind fun ⟨t, u, v⟩ ⟨t', u', v'⟩ ⟨ht, hu, hv⟩ => ?_
    refine (ht.registerBits 9).bind fun m _ hm => (hu.registerBits 6).bind fun n _ hn => ?_
    have hkind : v'.kind = v.kind := hv.kind
    simp only [hm, hn, hkind]
    split
    · refine (hv.immediateBits 5).bind fun k _ hk => ?_
      rw [hk]
      exact .ok rfl
    · refine (hv.registerBits 0).bind fun k _ hk => ?_
      rw [hk]
      exact .ok rfl
  | complement =>
    refine (mirrors_twoOperands hoperands).bind fun ⟨t, u⟩ ⟨t', u'⟩ ⟨ht, hu⟩ => ?_
    refine (ht.registerBits 9).bind fun m _ hm => (hu.registerBits 6).bind fun n _ hn => ?_
    rw [hm, hn]
    exact .ok rfl
  | branch =>
    refine (mirrors_oneOperand hoperands).bind fun t t' ht => ?_
    have hconditions : Mirrors left right c.MapsFailure (fun a b => b = a)
        s.mnemonic.conditions s.mnemonic.conditions := by
      refine .same _ fun e he => ?_
      unfold Mnemonic.conditions at he
      split at he <;> cases he
      exact .fault (.same _)
    refine hconditions.bind fun bits _ hbits => (ht.offsetBits htable next 9).bind fun o _ ho => ?_
    rw [hbits, ho]
    exact .ok rfl
  | base =>
    refine (mirrors_oneOperand hoperands).bind fun t t' ht => ?_
    refine (ht.registerBits 6).bind fun m _ hm => ?_
    rw [hm]
    exact .ok rfl
  | goBack => exact .ok rfl
  | call =>
    refine (mirrors_oneOperand hoperands).bind fun t t' ht => ?_
    refine (ht.offsetBits htable next 11).bind fun o _ ho => ?_
    rw [ho]
    exact .ok rfl
  | bare => exact .ok rfl
  | vector =>
    refine (mirrors_oneOperand hoperands).bind fun t t' ht => ?_
    refine (MapsFault.mirrors ht.immediateValue).bind fun value _ hvalue => ?_
    rw [hvalue]
    exact .ok rfl
  | relative =>
    refine (mirrors_twoOperands hoperands).bind fun ⟨t, u⟩ ⟨t', u'⟩ ⟨ht, hu⟩ => ?_
    refine (ht.registerBits 9).bind fun m _ hm => ?_
    refine (hu.offsetBits htable next 9).bind fun o _ ho => ?_
    rw [hm, ho]
    exact .ok rfl
  | indexed =>
    refine (mirrors_threeOperands hoperands).bind fun ⟨t, u, v⟩ ⟨t', u', v'⟩ ⟨ht, hu, hv⟩ => ?_
    refine (ht.registerBits 9).bind fun m _ hm => (hu.registerBits 6).bind fun n _ hn => ?_
    refine (hv.immediateBits 6).bind fun k _ hk => ?_
    rw [hm, hn, hk]
    exact .ok rfl
  | datum =>
    refine (mirrors_oneOperand hoperands).bind fun t t' ht => ?_
    refine (ht.immediateBits 16).bind fun k _ hk => ?_
    rw [hk]
    exact .ok rfl
  | reserve =>
    refine (mirrors_footprint h horig).bind fun size _ hsize => ?_
    rw [hsize]
    split
    · exact .ok rfl
    · exact .error (.fault (.same _))
  | characters =>
    refine (mirrors_oneOperand hoperands).bind fun t t' ht => ?_
    refine (MapsFault.mirrors ht.stringText).bind fun text _ htext => ?_
    rw [htext]
    refine (mirrors_characterWords ht.place text).bind fun words _ hwords => ?_
    rw [hwords]
    exact .ok rfl

theorem mirrors_encode (h : c.MapsStatement d s s') (horig : s.mnemonic ≠ .orig)
    (htable : c.MapsLookup d left right table table') (next : Int) :
    Mirrors left right c.MapsFailure (fun a b => b = a) (s.encode table next)
      (s'.encode table' (next + d)) := by
  unfold Statement.encode
  rw [h.mnemonic]
  split
  · exact mirrors_encodeAs h horig htable _ next
  · exact .error (MapsDiagnostic.plain (.same _) h.place).failure

end Statements

/-! ## The second walk -/

theorem mirrors_encodeFrom {statements statements' : List Statement}
    (h : List.Forall₂ (c.MapsStatement d) statements statements')
    (htable : c.MapsLookup d left right table table') (counter : Option Int) :
    Mirrors left right c.MapsFailure (List.Forall₂ (c.MapsBlock d))
      (Block.encodeFrom table counter statements)
      (Block.encodeFrom table' (counter.map (· + d)) statements') := by
  induction h generalizing counter with
  | nil => exact .ok .nil
  | @cons s s' rest rest' hs hrest ih =>
    rcases s.sort_cases with horig | hfinish | hplaced
    · rw [Block.encodeFrom_orig horig, Block.encodeFrom_orig (hs.mnemonic.trans horig)]
      refine (MapsFault.mirrors (hs.origin horig left right)).bind fun value _ heq => ?_
      rw [heq]
      exact ih (some value)
    · rw [Block.encodeFrom_finish hfinish, Block.encodeFrom_finish (hs.mnemonic.trans hfinish)]
      exact ih none
    · have hplaced' : s'.isPlaced = true := by rw [Statement.isPlaced, hs.mnemonic]; exact hplaced
      have horig := (Statement.isPlaced_iff.1 hplaced).1
      cases counter with
      | none =>
        rw [Option.map_none, Block.encodeFrom_nowhere hplaced, Block.encodeFrom_nowhere hplaced']
        exact .error (MapsDiagnostic.plain (.outsideRegion .encoding hs horig) hs.place).failure
      | some address =>
        have hnext : address + d + 1 = address + 1 + d := by omega
        rw [Option.map_some, Block.encodeFrom_placed hplaced, Block.encodeFrom_placed hplaced',
          hnext]
        refine (mirrors_encode hs horig htable (address + 1)).bind fun words _ hwords => ?_
        refine (mirrors_footprint hs horig).bind fun size _ hsize => ?_
        have hcounter : address + d + size = address + size + d := by omega
        rw [hwords, hsize, hcounter]
        refine (ih (some (address + size))).map fun blocks blocks' hblocks => ?_
        exact .cons ⟨rfl, rfl, hs, horig⟩ hblocks

/-! ## Tables -/

theorem MapsTable.names_eq (h : c.MapsTable d table table') :
    table'.names = table.names.map c.name := by
  rw [SymbolTable.names, SymbolTable.names, List.map_map]
  exact map_eq_of_forall₂ h fun _ _ hx => hx.name

/-- Different names stay different, so a name is found where its new name is. -/
theorem MapsTable.find? (h : c.MapsTable d table table') (name : Text) :
    Option.Rel (c.MapsSymbol d) (table.find? name) (table'.find? (c.name name)) := by
  obtain ⟨symbols⟩ := table
  obtain ⟨symbols'⟩ := table'
  unfold MapsTable at h
  simp only [SymbolTable.find?] at h ⊢
  induction h with
  | nil => exact .none
  | @cons x x' rest rest' hx _ ih =>
    by_cases hname : x.name = name
    · rw [List.find?_cons_of_pos (by simp [hname]),
        List.find?_cons_of_pos (by simp [hx.name, hname])]
      exact .some hx
    · have hname' : x'.name ≠ c.name name := by
        rw [hx.name]
        exact fun heq => hname (c.injective heq)
      rw [List.find?_cons_of_neg (by simp [hname]), List.find?_cons_of_neg (by simp [hname'])]
      exact ih

theorem MapsTable.lookup (h : c.MapsTable d table table') (left right : Prop) :
    c.MapsLookup d left right table table' := by
  intro t t' ht
  refine (MapsFault.mirrors ht.labelName).bind fun name _ heq => ?_
  have hfind := h.find? name
  rw [heq]
  simp only [SymbolTable.address?]
  generalize table.find? name = found at hfind ⊢
  generalize table'.find? (c.name name) = found' at hfind ⊢
  cases hfind with
  | some hx => exact .ok hx.address
  | none =>
    refine .error (MapsDiagnostic.failure
      (.plain (.undefinedLabel name fun hid => ?_) (.some ht.place)))
    rw [SymbolTable.similar, h.names_eq, hid, List.map_id, id_eq, SymbolTable.similar]

theorem mirrors_defineAll (h : c.MapsTable d table table') (labels : List Text) (address : Int)
    {l l' : Option Location} (hplace : Option.Rel c.places l l') :
    Mirrors left right c.MapsDiagnostic (c.MapsTable d) (table.defineAll address l labels)
      (table'.defineAll (address + d) l' (labels.map c.name)) := by
  induction labels generalizing table table' with
  | nil => exact .ok h
  | cons name labels ih =>
    have hfind := h.find? name
    rw [List.map_cons]
    cases hfound : table.find? name <;> cases hfound' : table'.find? (c.name name) <;>
      rw [hfound, hfound'] at hfind
    · rw [SymbolTable.defineAll_cons_of_none hfound, SymbolTable.defineAll_cons_of_none hfound']
      exact ih (List.rel_append h (.cons ⟨rfl, rfl, hplace⟩ .nil))
    · cases hfind
    · cases hfind
    · rw [SymbolTable.defineAll_cons_of_some hfound, SymbolTable.defineAll_cons_of_some hfound']
      cases hfind with
      | some hx => exact .error (.plain (.duplicateLabel name hx.place) hplace)

/-! ## The first walk -/

theorem mirrors_extend {statements statements' : List Statement}
    (h : List.Forall₂ (c.MapsStatement d) statements statements')
    (htable : c.MapsTable d table table') (hd : d = 0 ∨ left ∧ right) (counter : Option Int) :
    Mirrors left right c.MapsFailure (c.MapsTable d) (table.extend counter statements)
      (table'.extend (counter.map (· + d)) statements') := by
  induction h generalizing table table' counter with
  | nil => exact .ok htable
  | @cons s s' rest rest' hs hrest ih =>
    rcases s.sort_cases with horig | hfinish | hplaced
    · rw [SymbolTable.extend_orig horig, SymbolTable.extend_orig (hs.mnemonic.trans horig)]
      refine (MapsFault.mirrors (hs.origin horig left right)).bind fun value _ heq => ?_
      rw [heq]
      exact ih htable (some value)
    · rw [SymbolTable.extend_finish hfinish, SymbolTable.extend_finish (hs.mnemonic.trans hfinish)]
      exact ih htable none
    · have hplaced' : s'.isPlaced = true := by rw [Statement.isPlaced, hs.mnemonic]; exact hplaced
      have horig := (Statement.isPlaced_iff.1 hplaced).1
      cases counter with
      | none =>
        rw [Option.map_none, SymbolTable.extend_nowhere hplaced,
          SymbolTable.extend_nowhere hplaced']
        exact .error (MapsDiagnostic.plain (.outsideRegion .layout hs horig) hs.place).failure
      | some address =>
        rw [Option.map_some, SymbolTable.extend_placed hplaced, SymbolTable.extend_placed hplaced']
        by_cases hin : InMemory address <;> by_cases hin' : InMemory (address + d)
        · rw [if_pos hin, if_pos hin', hs.labels]
          refine ((mirrors_defineAll htable s.labels address hs.place).mapError
            fun _ _ => MapsDiagnostic.failure).bind fun next next' hnext => ?_
          refine (mirrors_footprint hs horig).bind fun size _ hsize => ?_
          have hcounter : address + d + size = address + size + d := by omega
          rw [hsize, hcounter]
          exact ih hnext (some (address + size))
        -- without a distance both addresses are one, so the other cases leave only one failure
        · rcases hd with rfl | hd
          · rw [Int.add_zero] at hin'
            exact absurd hin hin'
          · rw [if_neg hin']
            exact .second hd.2
        · rcases hd with rfl | hd
          · rw [Int.add_zero] at hin'
            exact absurd hin' hin
          · rw [if_neg hin]
            exact .first hd.1
        · rw [if_neg hin, if_neg hin']
          rcases hd with rfl | hd
          · rw [Int.add_zero]
            exact .error (MapsDiagnostic.plain (.same _) hs.place).failure
          · exact .first hd.1

theorem mapsTable_empty : c.MapsTable d SymbolTable.empty SymbolTable.empty :=
  .nil

end Change

end LittleComputer
