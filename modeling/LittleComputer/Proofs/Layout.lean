import LittleComputer.Proofs.Placement
import Mathlib.Tactic

/-! # The first walk and the declared addresses

The walk that fills the symbol table is compared with the declared addresses.

* `Records before table`: the table after the statements `before`.
* `Misplaced before statement problem`: what is wrong with a statement behind `before`.
* `SymbolTable.extend_outcome`: the walk records every statement, or stops at the first misplaced
  one, or meets a literal beyond the limits.
* `layout_exact`: the walk succeeds exactly on programs that are `LaidOut`.
-/

namespace LittleComputer
set_option autoImplicit false

/-! ## Defining labels -/

namespace SymbolTable

theorem find?_eq_none_iff {table : SymbolTable} {name : Text} :
    table.find? name = none ↔ name ∉ table.names := by
  simp [find?, names]

theorem find?_name {table : SymbolTable} {name : Text} {symbol : Symbol}
    (h : table.find? name = some symbol) : symbol.name = name := by
  have hname := List.find?_some h
  simpa using hname

/-- Where no name is repeated, every entry is found under its name. -/
theorem find?_of_mem {table : SymbolTable} (hnodup : table.names.Nodup) {symbol : Symbol}
    (h : symbol ∈ table.symbols) : table.find? symbol.name = some symbol := by
  obtain ⟨symbols⟩ := table
  unfold find?
  rw [names] at hnodup
  induction symbols with
  | nil => simp at h
  | cons first rest ih =>
    rw [List.map_cons, List.nodup_cons] at hnodup
    rcases List.mem_cons.1 h with rfl | h
    · exact List.find?_cons_of_pos (by simp)
    · have hne : first.name ≠ symbol.name := by
        intro heq
        exact hnodup.1 (heq ▸ List.mem_map_of_mem h)
      rw [List.find?_cons_of_neg (by simpa using hne)]
      exact ih hnodup.2 h

/-- The table with several labels more for one address. -/
def append (table : SymbolTable) (address : Int) (location : Option Location) (labels : List Text) :
    SymbolTable :=
  ⟨table.symbols ++ labels.map fun name => ⟨name, address, location⟩⟩

theorem names_append (table : SymbolTable) (address : Int) (location : Option Location)
    (labels : List Text) :
    (table.append address location labels).names = table.names ++ labels := by
  simp [append, names, Function.comp_def]

section Define
variable {table behind : SymbolTable} {name : Text} {address : Int} {location : Option Location}
  {diagnostic : Diagnostic} {first : Symbol} {work : Defining Unit}

theorem perform_get (table : SymbolTable) (work : SymbolTable → Defining Unit) :
    table.perform (get >>= work) = table.perform (work table) :=
  rfl

theorem perform_bind_of_ok (h : table.perform work = (.ok (), behind))
    (rest : Unit → Defining Unit) :
    table.perform (work >>= rest) = behind.perform (rest ()) := by
  have hrun : (work.run.run table).run = (.ok (), behind) := h
  simp only [perform, ExceptT.run_bind, StateT.run_bind, Id.run_bind, hrun]

theorem perform_bind_of_error (h : table.perform work = (.error diagnostic, behind))
    (rest : Unit → Defining Unit) :
    table.perform (work >>= rest) = (.error diagnostic, behind) := by
  have hrun : (work.run.run table).run = (.error diagnostic, behind) := h
  simp only [perform, ExceptT.run_bind, StateT.run_bind, Id.run_bind, hrun]
  rfl

/-- A name that is taken is refused before anything is stored. -/
theorem perform_define_of_some (h : table.find? name = some first) :
    table.perform (define name address location) =
      (.error (.plain (.duplicateLabel name first.location) location), table) := by
  rw [define, perform_get, h]
  rfl

/-- A name that is free is stored behind all others. -/
theorem perform_define_of_none (h : table.find? name = none) :
    table.perform (define name address location) =
      (.ok (), table.append address location [name]) := by
  have hstore : table.store ⟨name, address, location⟩ = table.append address location [name] := by
    simp [store, contains, append, h]
  rw [define, perform_get, h, ← hstore]
  rfl

theorem defineAll_cons_of_some (h : table.find? name = some first) (rest : List Text) :
    table.defineAll address location (name :: rest) =
      .error (.plain (.duplicateLabel name first.location) location) := by
  have hrefused : table.perform (define name address location) = _ := perform_define_of_some h
  rw [defineAll, List.forM, perform_bind_of_error hrefused]

theorem defineAll_cons_of_none (h : table.find? name = none) (rest : List Text) :
    table.defineAll address location (name :: rest) =
      (table.append address location [name]).defineAll address location rest := by
  have hdefined : table.perform (define name address location) = _ := perform_define_of_none h
  rw [defineAll, List.forM, perform_bind_of_ok hdefined, defineAll]

end Define

/-- Different labels are all defined, or the first that is taken is reported. -/
theorem defineAll_outcome {labels : List Text} (hnodup : labels.Nodup) (table : SymbolTable)
    (address : Int) (location : Option Location) :
    (table.defineAll address location labels = .ok (table.append address location labels) ∧
        ∀ name ∈ labels, name ∉ table.names) ∨
      ∃ fresh name rest first, labels = fresh ++ name :: rest ∧ (∀ n ∈ fresh, n ∉ table.names) ∧
        first ∈ table.symbols ∧ first.name = name ∧
        table.defineAll address location labels =
          .error (.plain (.duplicateLabel name first.location) location) := by
  induction labels generalizing table with
  | nil => exact .inl ⟨by simp [append]; rfl, by simp⟩
  | cons name labels ih =>
    obtain ⟨hname, hlabels⟩ := List.nodup_cons.1 hnodup
    cases hfind : table.find? name with
    | some first =>
      refine .inr ⟨[], name, labels, first, rfl, by simp, ?_, find?_name hfind, ?_⟩
      · exact List.mem_of_find?_eq_some hfind
      · exact defineAll_cons_of_some hfind labels
    | none =>
      have hnew : name ∉ table.names := find?_eq_none_iff.1 hfind
      rw [defineAll_cons_of_none hfind]
      rcases ih hlabels (table.append address location [name]) with
        ⟨hok, hfresh⟩ | ⟨fresh, other, rest, first, hsplit, hfresh, hmem, hfirst, herror⟩
      · refine .inl ⟨by rw [hok]; simp [append], ?_⟩
        intro n hn
        rcases List.mem_cons.1 hn with rfl | hn
        · exact hnew
        · have := hfresh n hn
          rw [names_append] at this
          exact fun hmem => this (List.mem_append_left _ hmem)
      · -- the label that is taken differs from the one just defined, so it was taken before
        have hother : other ≠ name := by
          rintro rfl
          exact hname (by rw [hsplit]; simp)
        refine .inr ⟨name :: fresh, other, rest, first, by rw [hsplit]; rfl, ?_, ?_, hfirst, herror⟩
        · intro n hn
          rcases List.mem_cons.1 hn with rfl | hn
          · exact hnew
          · have := hfresh n hn
            rw [names_append] at this
            exact fun hmem => this (List.mem_append_left _ hmem)
        · rcases List.mem_append.1 hmem with hmem | hmem
          · exact hmem
          · rw [List.map_singleton, List.mem_singleton] at hmem
            rw [hmem] at hfirst
            exact absurd hfirst.symm hother

end SymbolTable

/-! ## What the walk records -/

/-- The labels of all placed statements in order. -/
def attachedLabels (statements : List Statement) : List Text :=
  (statements.filter Statement.isPlaced).flatMap Statement.labels

theorem attachedLabels_concat_of_not {statements : List Statement} {last : Statement}
    (h : last.isPlaced = false) :
    attachedLabels (statements ++ [last]) = attachedLabels statements := by
  simp [attachedLabels, List.filter_append, h]

theorem attachedLabels_concat {statements : List Statement} {last : Statement}
    (h : last.isPlaced = true) :
    attachedLabels (statements ++ [last]) = attachedLabels statements ++ last.labels := by
  simp [attachedLabels, List.filter_append, h]

/-- An address of the machine. -/
def InMemory (address : Int) : Prop :=
  0 ≤ address ∧ address ≤ maxAddress

instance (address : Int) : Decidable (InMemory address) :=
  inferInstanceAs (Decidable (0 ≤ address ∧ address ≤ maxAddress))

/-- The table after the statements `before`: their labels in order, without repeats, each with the
address and the place of its statement. -/
structure Records (before : List Statement) (table : SymbolTable) : Prop where
  names : table.names = attachedLabels before
  nodup : (attachedLabels before).Nodup
  entries : EveryPlaced (fun earlier statement => ∃ address, Stands earlier address ∧
    InMemory address ∧ ∀ name ∈ statement.labels,
      ⟨name, address, statement.location⟩ ∈ table.symbols) before

theorem records_nil : Records [] SymbolTable.empty :=
  ⟨rfl, List.nodup_nil, everyPlaced_nil _⟩

theorem Records.concat_of_not {before : List Statement} {table : SymbolTable} {last : Statement}
    (h : Records before table) (hlast : last.isPlaced = false) :
    Records (before ++ [last]) table := by
  refine ⟨?_, ?_, h.entries.concat_of_not hlast⟩
  · rw [h.names, attachedLabels_concat_of_not hlast]
  · rw [attachedLabels_concat_of_not hlast]
    exact h.nodup

theorem Records.concat {before : List Statement} {table : SymbolTable} {last : Statement}
    {address : Int} (h : Records before table) (hlast : last.isPlaced = true)
    (hlabels : last.labels.Nodup) (hfresh : ∀ name ∈ last.labels, name ∉ table.names)
    (hstands : Stands before address) (hmemory : InMemory address) :
    Records (before ++ [last]) (table.append address last.location last.labels) := by
  refine ⟨?_, ?_, everyPlaced_concat.2 ⟨h.entries.imp ?_, fun _ => ?_⟩⟩
  · rw [SymbolTable.names_append, h.names, attachedLabels_concat hlast]
  · rw [attachedLabels_concat hlast, List.nodup_append]
    refine ⟨h.nodup, hlabels, ?_⟩
    rintro name hname _ hlast rfl
    exact hfresh name hlast (h.names ▸ hname)
  · rintro earlier statement ⟨a, ha, hin, hmem⟩
    exact ⟨a, ha, hin, fun name hname => List.mem_append_left _ (hmem name hname)⟩
  · refine ⟨address, hstands, hmemory, fun name hname => ?_⟩
    exact List.mem_append_right _ (List.mem_map.2 ⟨name, hname, rfl⟩)

/-- A recorded label is found with the address and the place of its statement. -/
theorem Records.find? {before : List Statement} {table : SymbolTable} (h : Records before table) :
    EveryPlaced (fun earlier statement => ∃ address, Stands earlier address ∧ InMemory address ∧
      ∀ name ∈ statement.labels,
        table.find? name = some ⟨name, address, statement.location⟩) before := by
  have hnodup : table.names.Nodup := by rw [h.names]; exact h.nodup
  refine h.entries.imp ?_
  rintro earlier statement ⟨address, hstands, hmemory, hmem⟩
  exact ⟨address, hstands, hmemory,
    fun name hname => SymbolTable.find?_of_mem hnodup (hmem name hname)⟩

/-- Every entry of a recorded table comes from a placed statement. -/
theorem Records.source {before : List Statement} {table : SymbolTable} (h : Records before table)
    {symbol : Symbol} (hsymbol : symbol ∈ table.symbols) :
    ∃ earlier statement later, before = earlier ++ statement :: later ∧
      statement.isPlaced = true ∧ symbol.name ∈ statement.labels ∧
      Stands earlier symbol.address ∧ symbol.location = statement.location := by
  have hname : symbol.name ∈ attachedLabels before := by
    rw [← h.names]
    exact List.mem_map_of_mem hsymbol
  obtain ⟨statement, hstatement, hlabel⟩ := List.mem_flatMap.1 hname
  obtain ⟨hstatement, hplaced⟩ := List.mem_filter.1 hstatement
  obtain ⟨earlier, later, hsplit⟩ := List.append_of_mem hstatement
  obtain ⟨address, hstands, -, hfind⟩ := h.find? earlier statement later hsplit hplaced
  have hnodup : table.names.Nodup := by rw [h.names]; exact h.nodup
  have hsame := SymbolTable.find?_of_mem hnodup hsymbol
  rw [hfind symbol.name hlabel] at hsame
  have hsame := Option.some.inj hsame
  refine ⟨earlier, statement, later, hsplit, hplaced, hlabel, ?_, ?_⟩
  · rw [← hsame]
    exact hstands
  · rw [← hsame]

/-! ## What stops the walk -/

/-- What is wrong with a statement behind `before`. It stands nowhere; or it stands outside the
memory; or one of its labels belongs to an earlier statement, and `name` is the first such label. -/
inductive Misplaced (before : List Statement) (statement : Statement) : Problem → Prop
  | nowhere (hnowhere : ∀ address, ¬ Stands before address) :
    Misplaced before statement (.outsideRegion .layout statement)
  | outside {address : Int} (hstands : Stands before address) (hmemory : ¬ InMemory address) :
    Misplaced before statement (.addressRange address)
  | taken {address : Int} {fresh rest : List Text} {name : Text}
    {earlier later : List Statement} {first : Statement}
    (hstands : Stands before address) (hmemory : InMemory address)
    (hlabels : statement.labels = fresh ++ name :: rest)
    (hfresh : ∀ label ∈ fresh, label ∉ attachedLabels before)
    (hbefore : before = earlier ++ first :: later) (hfirst : first.isPlaced = true)
    (hname : name ∈ first.labels) :
    Misplaced before statement (.duplicateLabel name first.location)

namespace SymbolTable

theorem extend_orig {table : SymbolTable} {counter : Option Int} {statement : Statement}
    {rest : List Statement} (h : statement.mnemonic = .orig) :
    table.extend counter (statement :: rest) =
      statement.origin.bind fun address => table.extend (some address) rest := by
  rw [extend.eq_def]
  simp only [h]
  rfl

theorem extend_finish {table : SymbolTable} {counter : Option Int} {statement : Statement}
    {rest : List Statement} (h : statement.mnemonic = .finish) :
    table.extend counter (statement :: rest) = table.extend none rest := by
  rw [extend.eq_def]
  simp only [h]

theorem extend_nowhere {table : SymbolTable} {statement : Statement} {rest : List Statement}
    (h : statement.isPlaced = true) :
    table.extend none (statement :: rest) =
      .error (Diagnostic.plain (.outsideRegion .layout statement) statement.location).failure := by
  obtain ⟨horig, hfinish⟩ := Statement.isPlaced_iff.1 h
  rw [extend.eq_def]
  dsimp only
  split
  · exact absurd ‹_› horig
  · exact absurd ‹_› hfinish
  · rfl

theorem extend_placed {table : SymbolTable} {address : Int} {statement : Statement}
    {rest : List Statement} (h : statement.isPlaced = true) :
    table.extend (some address) (statement :: rest) =
      if InMemory address then
        ((table.defineAll address statement.location statement.labels).mapError
          Diagnostic.failure).bind fun table =>
            statement.footprint.bind fun words => table.extend (some (address + words)) rest
      else .error (Diagnostic.plain (.addressRange address) statement.location).failure := by
  obtain ⟨horig, hfinish⟩ := Statement.isPlaced_iff.1 h
  rw [extend.eq_def]
  dsimp only
  split
  · exact absurd ‹_› horig
  · exact absurd ‹_› hfinish
  · rfl

end SymbolTable

/-! ## The whole walk -/

/-- What ends the first walk at a statement: the report of what is wrong with it. -/
def StopsLayout (before : List Statement) (statement : Statement) (failure : Failure) : Prop :=
  ∃ problem, Misplaced before statement problem ∧
    failure = (Diagnostic.plain problem statement.location).failure

namespace SymbolTable

/-- **The first walk.** It records all statements, stops at the first misplaced one, or meets a
literal beyond the limits. -/
theorem extend_outcome {before statements : List Statement} {table : SymbolTable}
    {counter : Option Int} (hwell : ∀ statement ∈ statements, statement.WellFormed)
    (htracks : Tracks before counter) (hrecords : Records before table) :
    WalkOutcome Records StopsLayout before statements (table.extend counter statements) := by
  induction statements generalizing before table counter with
  | nil =>
    rw [extend]
    exact .nil hrecords
  | cons statement rest ih =>
    have hhead := hwell statement List.mem_cons_self
    have hrest : ∀ s ∈ rest, s.WellFormed := fun s hs => hwell s (List.mem_cons_of_mem _ hs)
    rcases statement.sort_cases with horig | hfinish | hplaced
    · rw [extend_orig horig]
      rcases hhead.origin_outcome horig with ⟨value, hvalue, -⟩ | ⟨fault, hfault, hlimits⟩
      · have hnot := Statement.not_isPlaced_of_orig horig
        rw [hvalue]
        exact (ih hrest (Tracks.orig horig hvalue) (hrecords.concat_of_not hnot)).cons
      · rw [hfault]
        exact .beyond List.mem_cons_self hlimits
    · rw [extend_finish hfinish]
      have hnot := Statement.not_isPlaced_of_finish hfinish
      exact (ih hrest (Tracks.finish hfinish) (hrecords.concat_of_not hnot)).cons
    · cases counter with
      | none =>
        rw [extend_nowhere hplaced]
        have hnowhere : ∀ a, ¬ Stands before a := fun a ha => nomatch (htracks a).1 ha
        exact .head hplaced hrecords ⟨_, .nowhere hnowhere, rfl⟩
      | some address =>
        have hstands : Stands before address := (htracks address).2 rfl
        rw [extend_placed hplaced]
        by_cases hmemory : InMemory address
        · rw [if_pos hmemory]
          rcases defineAll_outcome hhead.nodup table address statement.location with
            ⟨hdefine, hfresh⟩ |
              ⟨fresh, name, labels, symbol, hlabels, hfresh, hsymbol, hname, hdefine⟩
          · rw [hdefine]
            rcases hhead.footprint_outcome with ⟨size, hsize⟩ | ⟨fault, hfault, hlimits⟩
            · have hnext := hrecords.concat hplaced hhead.nodup hfresh hstands hmemory
              have hstep := ih hrest (htracks.placed hplaced hsize) hnext
              simp only [Except.mapError, Except.bind, hsize]
              exact hstep.cons
            · simp only [Except.mapError, Except.bind, hfault]
              exact .beyond List.mem_cons_self hlimits
          · rw [hdefine]
            obtain ⟨earlier, first, later, hsplit, hfirst, hlabel, -, hlocation⟩ :=
              hrecords.source hsymbol
            rw [hrecords.names] at hfresh
            rw [hname] at hlabel
            rw [hlocation]
            exact .head hplaced hrecords
              ⟨_, .taken hstands hmemory hlabels hfresh hsplit hfirst hlabel, rfl⟩
        · rw [if_neg hmemory]
          exact .head hplaced hrecords ⟨_, .outside hstands hmemory, rfl⟩

theorem ofStatements_outcome {statements : List Statement}
    (hwell : ∀ statement ∈ statements, statement.WellFormed) :
    WalkOutcome Records StopsLayout [] statements (ofStatements statements) :=
  extend_outcome hwell tracks_nil records_nil

theorem records_of_ofStatements {statements : List Statement} {table : SymbolTable}
    (hwell : ∀ statement ∈ statements, statement.WellFormed)
    (h : ofStatements statements = .ok table) : Records statements table := by
  have houtcome := ofStatements_outcome hwell
  rw [h] at houtcome
  exact houtcome.good

end SymbolTable

/-! ## Acceptance -/

/-- The conditions of the first walk: every placed statement stands in the memory, and no two of
them have a label in common. -/
structure LaidOut (statements : List Statement) : Prop where
  addresses : EveryPlaced (fun before _ => ∃ address, Stands before address ∧ InMemory address)
    statements
  labels : (statements.filter Statement.isPlaced).Pairwise fun s t =>
    ∀ name ∈ s.labels, name ∉ t.labels

theorem Records.laidOut {statements : List Statement} {table : SymbolTable}
    (h : Records statements table) : LaidOut statements := by
  refine ⟨h.entries.imp fun _ _ ⟨address, hstands, hmemory, _⟩ => ⟨address, hstands, hmemory⟩, ?_⟩
  refine (List.nodup_flatMap.1 h.nodup).2.imp ?_
  intro s t hdisjoint name hs ht
  exact hdisjoint hs ht

/-- No statement of a program that is laid out is misplaced. -/
theorem LaidOut.not_misplaced {statements before after : List Statement} {statement : Statement}
    {problem : Problem} (h : LaidOut statements)
    (hsplit : statements = before ++ statement :: after) (hplaced : statement.isPlaced = true) :
    ¬ Misplaced before statement problem := by
  obtain ⟨address, hstands, hmemory⟩ := h.addresses before statement after hsplit hplaced
  intro hmisplaced
  cases hmisplaced with
  | nowhere hnowhere => exact hnowhere address hstands
  | outside hstands' hmemory' =>
    rw [hstands'.unique hstands] at hmemory'
    exact hmemory' hmemory
  | taken _ _ hlabels _ hbefore hfirst hname =>
    have hpair := h.labels
    rw [hsplit, hbefore, List.filter_append, List.filter_cons_of_pos hplaced, List.filter_append,
      List.filter_cons_of_pos hfirst, List.pairwise_append] at hpair
    exact hpair.2.2 _ (by simp) statement (by simp) _ hname (by rw [hlabels]; simp)

/-- Behind statements that are laid out and within the limits, every address can be written. -/
theorem Records.natAbs_lt {before : List Statement} {table : SymbolTable} {address : Int}
    (h : Records before table) (hwell : ∀ statement ∈ before, statement.WellFormed)
    (hlimits : ∀ statement ∈ before, statement.WithinLimits)
    (hstrings : ∀ statement ∈ before, ∀ token ∈ statement.operands, token.kind = .string →
      token.content.length ≤ Statement.maxBlock)
    (hstands : Stands before address) : address.natAbs < 10 ^ Numeral.limit := by
  rcases List.eq_nil_or_concat' before with rfl | ⟨before, last, rfl⟩
  · exact absurd hstands (not_stands_nil address)
  · have hlast : last ∈ before ++ [last] := by simp
    rcases stands_concat.1 hstands with ⟨horig, hvalue⟩ | ⟨hplaced, base, size, hbase, hsize, rfl⟩
    · rcases (hwell last hlast).origin_outcome horig with ⟨value, hvalue', hlt⟩ | ⟨fault, hfault, -⟩
      · rw [hvalue] at hvalue'
        rw [Except.ok.inj hvalue']
        exact hlt (hlimits last hlast)
      · rw [hvalue] at hfault
        cases hfault
    · -- the statement before stands in the memory, so the counter moved by one size at most
      obtain ⟨a, ha, hmemory, -⟩ := (everyPlaced_concat.1 h.entries).2 hplaced
      rw [ha.unique hbase] at hmemory
      have hle := (hwell last hlast).footprint_le (hlimits last hlast) (hstrings last hlast) hsize
      have hpow := Numeral.ten_pow_le
      have hmax : Statement.maxBlock = 9223372036854775807 := rfl
      have htop : maxAddress = 65535 := rfl
      obtain ⟨hlow, hhigh⟩ := hmemory
      omega

theorem Misplaced.failure_eq {before : List Statement} {statement : Statement} {problem : Problem}
    (h : Misplaced before statement problem)
    (haddress : ∀ address, Stands before address → address.natAbs < 10 ^ Numeral.limit) :
    (Diagnostic.plain problem statement.location).failure =
      .diagnostic (Diagnostic.plain problem statement.location) := by
  apply Diagnostic.failure_eq
  · intro value hproblem
    cases h <;> cases hproblem
  · intro n hn
    cases h with
    | nowhere => cases hn
    | outside hstands =>
      rw [Diagnostic.plain, Problem.integers, List.mem_singleton] at hn
      rw [hn]
      exact haddress _ hstands
    | taken => cases hn

/-- **Exact acceptance of the first walk.** For the statements of a source within the limits of
numbers, the walk succeeds exactly when they are laid out; then the table lists the labels in the
order of the source, each with the declared address and the place of its statement; otherwise the
failure is that of the first misplaced statement. The length of the source only bounds the
addresses that a report can write. -/
theorem layout_exact {source : Source} {tokens : List Token} {reading : Reading}
    (hread : source.read = .ok (tokens, reading))
    (hlimits : ∀ statement ∈ reading.statements, statement.WithinLimits) :
    ((∃ table, SymbolTable.ofStatements reading.statements = .ok table) ↔
        LaidOut reading.statements) ∧
      (∀ table, SymbolTable.ofStatements reading.statements = .ok table →
        table.names = attachedLabels reading.statements ∧ table.names.Nodup ∧
        EveryPlaced (fun before statement => ∃ address, Stands before address ∧
          ∀ name ∈ statement.labels,
            table.find? name = some ⟨name, address, statement.location⟩) reading.statements) ∧
      ∀ failure, SymbolTable.ofStatements reading.statements = .error failure →
        ∃ before statement after problem, reading.statements = before ++ statement :: after ∧
          statement.isPlaced = true ∧ LaidOut before ∧ Misplaced before statement problem ∧
          failure = (Diagnostic.plain problem statement.location).failure ∧
          (source.text.length ≤ Statement.maxBlock →
            failure = .diagnostic (Diagnostic.plain problem statement.location)) := by
  have hwell := Source.read_wellFormed hread
  have houtcome := SymbolTable.ofStatements_outcome hwell
  generalize SymbolTable.ofStatements reading.statements = result at houtcome
  cases houtcome with
  | finished hrecords =>
    rw [List.nil_append] at hrecords
    refine ⟨⟨fun _ => hrecords.laidOut, fun _ => ⟨_, rfl⟩⟩, ?_, ?_⟩
    · intro table htable
      cases htable
      refine ⟨hrecords.names, ?_, hrecords.find?.imp ?_⟩
      · rw [hrecords.names]
        exact hrecords.nodup
      · rintro before statement ⟨address, hstands, -, hfind⟩
        exact ⟨address, hstands, hfind⟩
    · intro failure herror
      cases herror
  | @stopped before after statement failure table hsplit hplaced hrecords hstops =>
    obtain ⟨problem, hmisplaced, rfl⟩ := hstops
    rw [List.nil_append] at hrecords hmisplaced
    refine ⟨⟨?_, ?_⟩, ?_, ?_⟩
    · rintro ⟨table, htable⟩
      cases htable
    · intro hlaid
      exact absurd hmisplaced (hlaid.not_misplaced hsplit hplaced)
    · intro table htable
      cases htable
    · intro failure herror
      refine ⟨before, statement, after, problem, hsplit, hplaced, hrecords.laidOut, hmisplaced,
        (Except.error.inj herror).symm, ?_⟩
      intro hlength
      have hfront : ∀ s ∈ before, s ∈ reading.statements := by
        intro s hs
        rw [hsplit]
        exact List.mem_append_left _ hs
      rw [← Except.error.inj herror]
      apply hmisplaced.failure_eq
      intro address
      apply hrecords.natAbs_lt (fun s hs => hwell s (hfront s hs))
        (fun s hs => hlimits s (hfront s hs))
      intro s hs token htoken hkind
      exact (Source.read_string_length hread s (hfront s hs) token htoken hkind).trans hlength
  | beyond hmem hbeyond => exact absurd (hlimits _ hmem) hbeyond

/-- Two regions, the second at the last address, with labels in front of both and behind them. -/
def Source.twoRegions : Source :=
  ⟨[], ("S .ORIG x10 A B .BLKW 2 C .STRINGZ \"hi\" D .END " ++
    "D .ORIG xFFFF E HALT .END F").toList⟩

theorem layout_exact_twoRegions :
    ∃ tokens reading, Source.twoRegions.read = .ok (tokens, reading) ∧
      LaidOut reading.statements := by
  have hprogram : ∃ result, Source.twoRegions.read = .ok result ∧
      (∀ statement ∈ result.2.statements, statement.WithinLimits) ∧
      ∃ table, SymbolTable.ofStatements result.2.statements = .ok table ∧
        table.names = ["A".toList, "B".toList, "C".toList, "E".toList] := by
    decide +kernel
  obtain ⟨⟨tokens, reading⟩, hread, hlimits, table, htable, -⟩ := hprogram
  exact ⟨tokens, reading, hread, (layout_exact hread hlimits).1.1 ⟨table, htable⟩⟩

end LittleComputer
