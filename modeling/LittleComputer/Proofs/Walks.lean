import LittleComputer.Proofs.Invariance
import Mathlib.Tactic

/-! # Both walks piece by piece

A walk that ends well can be taken apart between any two statements: what is behind a statement does
not depend on what follows it.

* `SymbolTable.Advances`, `Block.encodeFrom_cons_eq_ok`: one statement of either walk.
* `SymbolTable.extend_append`, `Block.encodeFrom_append`: a list of statements and those behind it.
* `SymbolTable.extend_behind`: the first walk behind a table that is already there reports the first
  label that both have.
* `Block.encodeFrom_larger`: the second walk with a larger table.
-/

namespace LittleComputer
set_option autoImplicit false

/-! ## Both walks, step by step -/

namespace SymbolTable

/-- One statement of the first walk: the table and the counter in front of it and behind it. -/
inductive Advances (table : SymbolTable) (statement : Statement) :
    Option Int → SymbolTable → Option Int → Prop
  | orig {counter : Option Int} {value : Int} (h : statement.mnemonic = .orig)
    (hvalue : statement.origin = .ok value) : Advances table statement counter table (some value)
  | finish {counter : Option Int} (h : statement.mnemonic = .finish) :
    Advances table statement counter table none
  | placed {address : Int} {size : Nat} {next : SymbolTable} (h : statement.isPlaced = true)
    (hmemory : InMemory address)
    (hnext : table.defineAll address statement.location statement.labels = .ok next)
    (hsize : statement.footprint = .ok size) :
    Advances table statement (some address) next (some (address + size))

theorem Advances.extend {table next : SymbolTable} {statement : Statement}
    {counter counter' : Option Int} (h : Advances table statement counter next counter')
    (rest : List Statement) :
    table.extend counter (statement :: rest) = next.extend counter' rest := by
  cases h with
  | orig h hvalue =>
    rw [extend_orig h, hvalue]
    rfl
  | finish h => exact extend_finish h
  | placed h hmemory hnext hsize =>
    rw [extend_placed h, if_pos hmemory, hnext, hsize]
    rfl

theorem advances_of_extend {table result : SymbolTable} {statement : Statement}
    {counter : Option Int} {rest : List Statement}
    (h : table.extend counter (statement :: rest) = .ok result) :
    ∃ next counter', Advances table statement counter next counter' ∧
      next.extend counter' rest = .ok result := by
  rcases statement.sort_cases with horig | hfinish | hplaced
  · rw [extend_orig horig] at h
    obtain ⟨value, hvalue, hrest⟩ := bind_eq_ok.1 h
    exact ⟨table, some value, .orig horig hvalue, hrest⟩
  · rw [extend_finish hfinish] at h
    exact ⟨table, none, .finish hfinish, h⟩
  · cases counter with
    | none =>
      rw [extend_nowhere hplaced] at h
      cases h
    | some address =>
      rw [extend_placed hplaced] at h
      by_cases hmemory : InMemory address
      · rw [if_pos hmemory] at h
        obtain ⟨next, hnext, h⟩ := bind_eq_ok.1 h
        obtain ⟨size, hsize, hrest⟩ := bind_eq_ok.1 h
        exact ⟨next, _, .placed hplaced hmemory (mapError_eq_ok.1 hnext) hsize, hrest⟩
      · rw [if_neg hmemory] at h
        cases h

end SymbolTable

namespace Block

/-- What the first statement of a second walk that ends well has done: it has made blocks and moved
the counter, whatever follows it. -/
theorem encodeFrom_cons_eq_ok {table : SymbolTable} {statement : Statement} {counter : Option Int}
    {rest : List Statement} {blocks : List Block}
    (h : encodeFrom table counter (statement :: rest) = .ok blocks) :
    ∃ made counter' further, encodeFrom table counter' rest = .ok further ∧
      blocks = made ++ further ∧
      made.map Block.statement = [statement].filter Statement.isPlaced ∧
      ∀ more, encodeFrom table counter (statement :: more) =
        (encodeFrom table counter' more).map (made ++ ·) := by
  have hnone : ∀ result : Except Failure (List Block), result.map ([] ++ ·) = result := by
    rintro (failure | blocks) <;> rfl
  rcases statement.sort_cases with horig | hfinish | hplaced
  · rw [encodeFrom_orig horig] at h
    obtain ⟨value, hvalue, hrest⟩ := bind_eq_ok.1 h
    refine ⟨[], some value, blocks, hrest, rfl, ?_, fun more => ?_⟩
    · simp [Statement.not_isPlaced_of_orig horig]
    · rw [encodeFrom_orig horig, hvalue, hnone]
      rfl
  · rw [encodeFrom_finish hfinish] at h
    refine ⟨[], none, blocks, h, rfl, ?_, fun more => ?_⟩
    · simp [Statement.not_isPlaced_of_finish hfinish]
    · rw [encodeFrom_finish hfinish, hnone]
  · cases counter with
    | none =>
      rw [encodeFrom_nowhere hplaced] at h
      cases h
    | some address =>
      rw [encodeFrom_placed hplaced] at h
      obtain ⟨words, hwords, h⟩ := bind_eq_ok.1 h
      obtain ⟨size, hsize, h⟩ := bind_eq_ok.1 h
      obtain ⟨further, hrest, rfl⟩ := map_eq_ok.1 h
      refine ⟨[⟨address, statement, words⟩], _, further, hrest, rfl, ?_, fun more => ?_⟩
      · simp [hplaced]
      · rw [encodeFrom_placed hplaced, hwords, hsize]
        rfl

theorem encodeFrom_statements {table : SymbolTable} {counter : Option Int}
    {statements : List Statement} {blocks : List Block}
    (h : encodeFrom table counter statements = .ok blocks) :
    blocks.map Block.statement = statements.filter Statement.isPlaced := by
  induction statements generalizing counter blocks with
  | nil =>
    cases h
    rfl
  | cons statement rest ih =>
    obtain ⟨made, counter', further, hrest, rfl, hmade, -⟩ := encodeFrom_cons_eq_ok h
    rw [List.map_append, hmade, ih hrest, ← List.filter_append]
    rfl

end Block

/-! ## Two lists of statements -/

/-- Behind statements that are done the walk goes on with their table and a counter, whatever
follows. -/
theorem SymbolTable.extend_append {table front : SymbolTable} {counter : Option Int}
    {statements : List Statement} (h : table.extend counter statements = .ok front) :
    ∃ counter', ∀ more, table.extend counter (statements ++ more) = front.extend counter' more := by
  induction statements generalizing table counter with
  | nil =>
    cases h
    exact ⟨counter, fun _ => rfl⟩
  | cons statement rest ih =>
    obtain ⟨next, counter', hadvances, hrest⟩ := advances_of_extend h
    obtain ⟨counter'', hmore⟩ := ih hrest
    refine ⟨counter'', fun more => ?_⟩
    rw [List.cons_append, hadvances.extend, hmore]

theorem Block.encodeFrom_append {table : SymbolTable} {counter : Option Int}
    {statements : List Statement} {blocks : List Block}
    (h : encodeFrom table counter statements = .ok blocks) :
    ∃ counter', ∀ more, encodeFrom table counter (statements ++ more) =
      (encodeFrom table counter' more).map (blocks ++ ·) := by
  induction statements generalizing counter blocks with
  | nil =>
    refine ⟨counter, fun more => ?_⟩
    rw [← Except.ok.inj h, List.nil_append]
    cases encodeFrom table counter more <;> rfl
  | cons statement rest ih =>
    obtain ⟨made, counter', further, hrest, rfl, -, hstep⟩ := encodeFrom_cons_eq_ok h
    obtain ⟨counter'', hmore⟩ := ih hrest
    refine ⟨counter'', fun more => ?_⟩
    rw [List.cons_append, hstep, hmore]
    cases encodeFrom table counter'' more with
    | error failure => rfl
    | ok blocks => simp only [Except.map, List.append_assoc]

/-! ## The first walk behind a table -/

theorem attachedLabels_cons_of_not {statement : Statement} {rest : List Statement}
    (h : statement.isPlaced = false) :
    attachedLabels (statement :: rest) = attachedLabels rest := by
  simp [attachedLabels, h]

theorem attachedLabels_cons {statement : Statement} {rest : List Statement}
    (h : statement.isPlaced = true) :
    attachedLabels (statement :: rest) = statement.labels ++ attachedLabels rest := by
  simp [attachedLabels, h]

namespace SymbolTable
variable {front table next : SymbolTable}

theorem defineAll_cons_eq_ok {name : Text} {labels : List Text} {address : Int}
    {location : Option Location}
    (h : table.defineAll address location (name :: labels) = .ok next) :
    table.find? name = none ∧
      (table.append address location [name]).defineAll address location labels = .ok next := by
  cases hfind : table.find? name with
  | some first =>
    rw [defineAll_cons_of_some hfind] at h
    cases h
  | none =>
    rw [defineAll_cons_of_none hfind] at h
    exact ⟨rfl, h⟩

theorem defineAll_names {labels : List Text} {address : Int} {location : Option Location}
    (h : table.defineAll address location labels = .ok next) :
    next.names = table.names ++ labels := by
  induction labels generalizing table with
  | nil =>
    cases h
    rw [List.append_nil]
  | cons name labels ih =>
    rw [ih (defineAll_cons_eq_ok h).2, names_append, List.append_assoc]
    rfl

theorem extend_names {counter : Option Int} {statements : List Statement}
    (h : table.extend counter statements = .ok next) :
    next.names = table.names ++ attachedLabels statements := by
  induction statements generalizing table counter with
  | nil =>
    cases h
    exact (List.append_nil _).symm
  | cons statement rest ih =>
    obtain ⟨middle, counter', hadvances, hrest⟩ := advances_of_extend h
    rw [ih hrest]
    cases hadvances with
    | orig h => rw [attachedLabels_cons_of_not (Statement.not_isPlaced_of_orig h)]
    | finish h => rw [attachedLabels_cons_of_not (Statement.not_isPlaced_of_finish h)]
    | placed hplaced _ hmiddle =>
      rw [attachedLabels_cons hplaced, defineAll_names hmiddle, List.append_assoc]

/-- The labels of one table and behind them those of another. -/
def behind (front table : SymbolTable) : SymbolTable :=
  ⟨front.symbols ++ table.symbols⟩

theorem find?_behind (front table : SymbolTable) (name : Text) :
    (front.behind table).find? name = (front.find? name).or (table.find? name) :=
  List.find?_append

theorem append_behind (front table : SymbolTable) (address : Int) (location : Option Location)
    (labels : List Text) :
    (front.behind table).append address location labels =
      front.behind (table.append address location labels) := by
  rw [append, append, behind, behind, List.append_assoc]

theorem mem_names_of_find? {name : Text} {symbol : Symbol} (h : table.find? name = some symbol) :
    name ∈ table.names := by
  by_contra hname
  rw [find?_eq_none_iff.2 hname] at h
  cases h

/-- The first label of a table that the table in front has as well. -/
def firstShared (front table : SymbolTable) : Option Text :=
  table.names.find? (· ∈ front.names)

theorem firstShared_eq_none :
    front.firstShared table = none ↔ ∀ name ∈ table.names, name ∉ front.names := by
  simp [firstShared]

/-- A label of the table behind is found there, unless the table in front has it as well. -/
theorem find?_behind_of_fresh (hfresh : front.firstShared table = none) {name : Text}
    {symbol : Symbol} (h : table.find? name = some symbol) :
    (front.behind table).find? name = some symbol := by
  have hname := firstShared_eq_none.1 hfresh name (mem_names_of_find? h)
  rw [find?_behind, find?_eq_none_iff.2 hname, Option.none_or, h]

theorem firstShared_of_names {more : List Text} (hnames : next.names = table.names ++ more) :
    front.firstShared next = (front.firstShared table).or (more.find? (· ∈ front.names)) := by
  rw [firstShared, hnames, List.find?_append]
  rfl

/-- How a walk ends that adds the labels of `table` behind `front`: it reports the first label that
is already there. -/
inductive Joins (front table : SymbolTable) : Except Failure SymbolTable → Prop
  | fresh (h : front.firstShared table = none) : Joins front table (.ok (front.behind table))
  | shared {name : Text} (h : front.firstShared table = some name)
    (first location : Option Location) :
    Joins front table (.error (.diagnostic (.plain (.duplicateLabel name first) location)))

theorem defineAll_behind {labels : List Text} {address : Int} {location : Option Location}
    (h : table.defineAll address location labels = .ok next)
    (hfresh : front.firstShared table = none) :
    Joins front next
      (((front.behind table).defineAll address location labels).mapError Diagnostic.failure) := by
  induction labels generalizing table with
  | nil =>
    cases h
    exact .fresh hfresh
  | cons name labels ih =>
    obtain ⟨hfind, hrest⟩ := defineAll_cons_eq_ok h
    have hlookup : (front.behind table).find? name = front.find? name := by
      rw [find?_behind, hfind, Option.or_none]
    cases hfront : front.find? name with
    | some first =>
      have hname : name ∈ front.names := mem_names_of_find? hfront
      rw [defineAll_cons_of_some (hlookup.trans hfront)]
      refine .shared ?_ first.location location
      rw [firstShared_of_names (defineAll_names h), hfresh, Option.none_or,
        List.find?_cons_of_pos (by simpa using hname)]
    | none =>
      have hname : name ∉ front.names := find?_eq_none_iff.1 hfront
      have hnext : front.firstShared (table.append address location [name]) = none := by
        rw [firstShared_of_names (names_append table address location [name]), hfresh,
          Option.none_or]
        simpa using hname
      rw [defineAll_cons_of_none (hlookup.trans hfront), append_behind]
      exact ih hrest hnext

theorem extend_behind {counter : Option Int} {statements : List Statement}
    (h : table.extend counter statements = .ok next) (hfresh : front.firstShared table = none) :
    Joins front next ((front.behind table).extend counter statements) := by
  -- the labels met so far are fresh, so the first shared one is still to come
  induction statements generalizing table counter with
  | nil =>
    cases h
    exact .fresh hfresh
  | cons statement rest ih =>
    obtain ⟨middle, counter', hadvances, hrest⟩ := advances_of_extend h
    cases hadvances with
    | orig h hvalue =>
      rw [Advances.extend (.orig h hvalue)]
      exact ih hrest hfresh
    | finish h =>
      rw [Advances.extend (.finish h)]
      exact ih hrest hfresh
    | @placed address size _ hplaced hmemory hmiddle hsize =>
      have hjoins := defineAll_behind hmiddle hfresh
      rw [extend_placed hplaced, if_pos hmemory, hsize]
      generalize ((front.behind table).defineAll address statement.location
        statement.labels).mapError Diagnostic.failure = outcome at hjoins ⊢
      cases hjoins with
      | fresh hfresh => exact ih hrest hfresh
      | @shared name hshared first location =>
        refine .shared ?_ first location
        rw [firstShared_of_names (extend_names hrest), hshared, Option.some_or]

end SymbolTable

/-! ## The second walk with a larger table -/

/-- Labels that are found keep their addresses in a larger table, so the blocks stay. -/
theorem Block.encodeFrom_larger {table larger : SymbolTable}
    (hlarger : ∀ name symbol, table.find? name = some symbol → larger.find? name = some symbol)
    {counter : Option Int} {statements : List Statement} {blocks : List Block}
    (h : encodeFrom table counter statements = .ok blocks) :
    encodeFrom larger counter statements = .ok blocks := by
  have hsame : List.Forall₂ (Change.identity.MapsStatement 0) statements statements := by
    refine List.forall₂_same.2 fun s _ => Change.MapsPhrase.statement ⟨?_, rfl, ?_, ?_⟩
    · exact (List.map_id s.labels).symm
    · exact option_rel_refl s.location
    · exact List.forall₂_same.2 fun t _ => Change.mapsToken_identity t
  have hlookup : Change.identity.MapsLookup 0 True False table larger := by
    intro t t' ht
    rw [ht.eq]
    refine (Change.MapsFault.mirrors (Change.mapsToken_identity t).labelName).bind
      fun name _ heq => ?_
    rw [heq]
    simp only [SymbolTable.address?, Change.identity, id_eq]
    cases hfind : table.find? name with
    | none => exact .first trivial
    | some symbol =>
      rw [hlarger name symbol hfind]
      exact .ok (Int.add_zero _).symm
  have hmirrors := Change.mirrors_encodeFrom hsame hlookup counter
  rw [h] at hmirrors
  obtain ⟨blocks', hblocks', hmaps⟩ := hmirrors.of_ok
  have hcounter : counter.map (· + (0 : Int)) = counter := by
    cases counter with
    | none => rfl
    | some address => rw [Option.map_some, Int.add_zero]
  have hunmoved : ∀ block : Block, block.moved 0 = block := by
    intro block
    rw [Block.moved, Int.add_zero]
  rw [hcounter, Change.eq_moved_of_blocks hmaps, List.map_congr_left fun b _ => hunmoved b,
    List.map_id'] at hblocks'
  exact hblocks'

end LittleComputer
