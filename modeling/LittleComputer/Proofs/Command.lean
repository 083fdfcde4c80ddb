import LittleComputer.Command.Arguments
import LittleComputer.Proofs.FileTree
import LittleComputer.Proofs.WellFormed
import Mathlib.Tactic

/-! # Runs of the command

A run that assembles prints and writes all it is asked for, or it prints a report and leaves every
file as it was. This holds on every console that shows a message as a line.

* `Console.EchoesLines`: such a console.
* `Text.splitLines_unlines`: joined lines are found again.
* `Word.splitLines_lines`, `Word.fileText_lines`: the words on standard output and in a file.
* `Command.assemble_of_assembled`, `Command.assemble_of_refused`: the two outcomes.
* `run_all_or_nothing`: both for every run whose files can be written.
-/

namespace LittleComputer
set_option autoImplicit false

/-- A message is shown as it is, with a newline behind it. -/
def Console.EchoesLines (console : Console) : Prop :=
  ∀ message, console.echo message = message ++ ['\n']

/-! ## Texts that are shown -/

namespace Text

theorem unlines_newline {parts : List Text} (h : parts ≠ []) :
    unlines parts ++ ['\n'] = parts.flatMap (· ++ ['\n']) := by
  induction parts with
  | nil => exact absurd rfl h
  | cons part rest ih =>
    cases rest with
    | nil => simp [unlines, join]
    | cons next rest =>
      have hjoin : unlines (part :: next :: rest) = part ++ ['\n'] ++ unlines (next :: rest) := by
        simp [unlines, join]
      rw [hjoin, List.append_assoc, ih (List.cons_ne_nil next rest), List.flatMap_cons (x := part)]

theorem ne_return {c : Char} (h : endsLine c = false) : c ≠ '\r' := by
  rintro rfl
  revert h
  decide

theorem splitLines_singleton {c : Char} (h : endsLine c = false) : splitLines [c] = [[c]] := by
  rw [splitLines.eq_3 c [] fun _ hc _ => ne_return h hc]
  simp [h, splitLines]

theorem splitLines_cons {c : Char} (h : endsLine c = false) {line rest : Text} {lines : List Text}
    (hrest : splitLines rest = line :: lines) : splitLines (c :: rest) = (c :: line) :: lines := by
  rw [splitLines.eq_3 c rest fun _ hc _ => ne_return h hc, hrest]
  simp [h]

theorem splitLines_line {line : Text} (h : ∀ c ∈ line, endsLine c = false) (rest : Text) :
    splitLines (line ++ '\n' :: rest) = line :: splitLines rest := by
  induction line with
  | nil =>
    have hnewline : endsLine '\n' = true := by decide
    rw [List.nil_append, splitLines.eq_3 '\n' rest fun _ hc _ => absurd hc (by decide),
      if_pos hnewline]
  | cons c line ih =>
    exact splitLines_cons (h c List.mem_cons_self) (ih fun d hd => h d (List.mem_cons_of_mem c hd))

theorem splitLines_last {line : Text} (hne : line ≠ []) (h : ∀ c ∈ line, endsLine c = false) :
    splitLines line = [line] := by
  induction line with
  | nil => exact absurd rfl hne
  | cons c line ih =>
    have hc : endsLine c = false := h c List.mem_cons_self
    cases line with
    | nil => exact splitLines_singleton hc
    | cons d line =>
      have hline := ih (List.cons_ne_nil d line) fun e he => h e (List.mem_cons_of_mem c he)
      exact splitLines_cons hc hline

/-- Lines that are joined by newlines are found again, if none of them is empty or holds an end. -/
theorem splitLines_unlines {parts : List Text}
    (h : ∀ part ∈ parts, part ≠ [] ∧ ∀ c ∈ part, endsLine c = false) :
    splitLines (unlines parts) = parts := by
  induction parts with
  | nil => rfl
  | cons part rest ih =>
    obtain ⟨hne, hpart⟩ := h part List.mem_cons_self
    cases rest with
    | nil => exact splitLines_last hne hpart
    | cons next rest =>
      have hrest := ih fun p hp => h p (List.mem_cons_of_mem part hp)
      exact (splitLines_line hpart _).trans (congrArg (part :: ·) hrest)

end Text

namespace Word

theorem bits_ne_nil (word : Word) : word.bits ≠ [] :=
  List.cons_ne_nil _ _

theorem mem_bits {word : Word} {c : Char} (h : c ∈ word.bits) : c = '1' ∨ c = '0' := by
  obtain ⟨place, -, rfl⟩ := List.mem_map.1 h
  split
  · exact .inl rfl
  · exact .inr rfl

theorem splitLines_lines (words : List Word) :
    Text.splitLines (Word.lines words) = words.map bits := by
  refine Text.splitLines_unlines ?_
  intro part hpart
  obtain ⟨word, -, rfl⟩ := List.mem_map.1 hpart
  refine ⟨word.bits_ne_nil, fun c hc => ?_⟩
  rcases mem_bits hc with rfl | rfl <;> decide

/-- A file with words holds what they are on standard output. -/
theorem fileText_lines (words : List Word) :
    Command.fileText (Word.lines words) = words.flatMap fun word => word.bits ++ ['\n'] := by
  cases words with
  | nil => rfl
  | cons word rest =>
    have hparts : (word :: rest).map bits ≠ [] := List.cons_ne_nil _ _
    have hfull : Word.lines (word :: rest) ≠ [] := by
      intro hnone
      have hlines := splitLines_lines (word :: rest)
      rw [hnone] at hlines
      exact hparts hlines.symm
    rw [Command.fileText, if_neg (by simpa using hfull), Word.lines, Text.unlines_newline hparts,
      List.flatMap_map]

end Word

/-! ## The two outcomes -/

/-- The files that a run is asked to write. -/
def Options.targets (options : Options) : List Path :=
  options.output.toList ++ options.symbols.toList ++ options.listing.toList

theorem FileTree.assemble_eq {tree : FileTree} {path : Path} {source : Source}
    (h : tree.source path = .ok source) :
    tree.assemble path = source.assemble.mapError Trouble.program := by
  simp only [assemble, h]
  rfl

namespace Command
variable {console : Console} {tree : FileTree} {options : Options} {source : Source}

theorem deliveries_path (options : Options) (assembly : Assembly) :
    (deliveries options assembly).map Delivery.path = options.targets := by
  simp [deliveries, Options.targets, Function.comp_def]

theorem printed_eq (h : console.EchoesLines) (options : Options) (assembly : Assembly) :
    printed console.echo options assembly =
      (if options.intermediate then
        assembly.statements.flatMap fun statement => statement.text ++ ['\n'] else []) ++
      if options.output.isNone then assembly.words.flatMap fun word => word.bits ++ ['\n']
        else [] := by
  have hecho : console.echo = fun message => message ++ ['\n'] := funext h
  simp only [printed, hecho, Assembly.wordsText, Word.splitLines_lines, List.flatMap_map]

theorem assemble_of_assembled (echo : Text → Text) {assembly : Assembly} {files : FileTree}
    {notes : List LogEntry} (hsource : tree.source options.input = .ok source)
    (h : source.assemble = .ok assembly)
    (hdeliver : deliver tree (deliveries options assembly) = (files, notes, none)) :
    (assemble echo tree options).exitCode = .success ∧
      (assemble echo tree options).standardOutput = printed echo options assembly ∧
      (assemble echo tree options).files = files := by
  have hassemble : tree.assemble options.input = .ok assembly := by
    rw [FileTree.assemble_eq hsource, h]
    rfl
  simp only [assemble, hassemble, hdeliver, and_self]

theorem assemble_of_refused (echo : Text → Text) {diagnostic : Diagnostic}
    (hsource : tree.source options.input = .ok source)
    (h : source.assemble = .error (.diagnostic diagnostic)) :
    (assemble echo tree options).exitCode = .buildError ∧
      (assemble echo tree options).standardOutput = [] ∧
      (assemble echo tree options).files = tree ∧
      (options.verbose = false → (assemble echo tree options).standardError =
        echo ("Assembly failed: ".toList ++ diagnostic.text)) := by
  have hassemble : tree.assemble options.input = .error (.program (.diagnostic diagnostic)) := by
    rw [FileTree.assemble_eq hsource, h]
    rfl
  simp only [assemble, hassemble, failed]
  refine ⟨rfl, trivial, trivial, fun hquiet => ?_⟩
  rw [hquiet]
  rfl

theorem fileText_eq (rendering : Text) :
    fileText rendering = if rendering = [] then [] else rendering ++ ['\n'] := by
  cases rendering <;> rfl

/-- Behind a run, a file that it was asked for holds a rendering and a newline, or nothing when the
rendering is empty. -/
def Held (before after : FileTree) (target : Option Path) (rendering : Text) : Prop :=
  ∀ path ∈ target, ∀ place, before.Takes path place →
    after.node? place =
      some (.file (Utf8.encode (if rendering = [] then [] else rendering ++ ['\n'])))

/-- All renderings that a run is asked for are delivered when their places are distinct. -/
theorem deliver_deliveries {places : List (List Text)} (assembly : Assembly)
    (hplaces : List.Forall₂ tree.Takes options.targets places) (hdistinct : places.Nodup) :
    ∃ files notes, deliver tree (deliveries options assembly) = (files, notes, none) ∧
      Held tree files options.output assembly.wordsText ∧
      Held tree files options.symbols assembly.symbolsText ∧
      Held tree files options.listing assembly.listing ∧
      ∀ place ∉ places, files.node? place = tree.node? place := by
  rw [← deliveries_path options assembly, List.forall₂_map_left_iff] at hplaces
  obtain ⟨files, notes, hdeliver, hheld, hother⟩ := deliver_eq hplaces hdistinct
  simp only [fileText_eq] at hheld
  refine ⟨files, notes, hdeliver, ?_, ?_, ?_, hother⟩
  · intro path hpath
    exact hheld _ (List.mem_append_left _ (List.mem_append_left _
      (List.mem_map_of_mem (Option.mem_toList.2 hpath))))
  · intro path hpath
    exact hheld _ (List.mem_append_left _ (List.mem_append_right _
      (List.mem_map_of_mem (Option.mem_toList.2 hpath))))
  · intro path hpath
    exact hheld _ (List.mem_append_right _ (List.mem_map_of_mem (Option.mem_toList.2 hpath)))

end Command

/-- **All or nothing.** On a console that shows messages as lines, let arguments ask to assemble a
file that holds text, and to write to distinct places that can be written. If assembly succeeds, the
run ends with code 0; it prints the statements when asked to and then the words unless they go to a
file; it writes the files asked for and touches no other, and the file of the words holds what they
would be on standard output. If assembly ends with a diagnostic, the run ends with code 1, prints
nothing, leaves all files as they were and reports the diagnostic. -/
theorem run_all_or_nothing {console : Console} {tree : FileTree} {arguments : List Text}
    {options : Options} {bytes : List UInt8} {text : Text} {places : List (List Text)}
    (hecho : console.EchoesLines) (hrequest : console.request tree arguments = .assemble options)
    (hread : tree.read options.input = .ok bytes) (hdecode : Utf8.decode bytes = .ok text)
    (hplaces : List.Forall₂ tree.Takes options.targets places) (hdistinct : places.Nodup) :
    (∀ assembly : Assembly,
      (⟨options.input.text, Utf8.unifyNewlines text⟩ : Source).assemble = .ok assembly →
      (Command.run console tree arguments).exitCode.number = 0 ∧
      (Command.run console tree arguments).standardOutput =
        (if options.intermediate then
          assembly.statements.flatMap fun statement => statement.text ++ ['\n'] else []) ++
        (if options.output.isNone then
          assembly.words.flatMap fun word => word.bits ++ ['\n'] else []) ∧
      Command.Held tree (Command.run console tree arguments).files options.output
        assembly.wordsText ∧
      Command.Held tree (Command.run console tree arguments).files options.symbols
        assembly.symbolsText ∧
      Command.Held tree (Command.run console tree arguments).files options.listing
        assembly.listing ∧
      (∀ place ∉ places,
        (Command.run console tree arguments).files.node? place = tree.node? place) ∧
      (if assembly.wordsText = [] then [] else assembly.wordsText ++ ['\n']) =
        assembly.words.flatMap fun word => word.bits ++ ['\n']) ∧
    ∀ diagnostic : Diagnostic,
      (⟨options.input.text, Utf8.unifyNewlines text⟩ : Source).assemble =
        .error (.diagnostic diagnostic) →
      (Command.run console tree arguments).exitCode.number = 1 ∧
      (Command.run console tree arguments).standardOutput = [] ∧
      (Command.run console tree arguments).files = tree ∧
      (options.verbose = false → (Command.run console tree arguments).standardError =
        "Assembly failed: ".toList ++ diagnostic.text ++ ['\n']) := by
  have hsource : tree.source options.input =
      .ok ⟨options.input.text, Utf8.unifyNewlines text⟩ := by
    simp only [FileTree.source, hread, hdecode]
  have hrun : Command.run console tree arguments =
      Command.assemble console.echo tree options := by
    simp only [Command.run, hrequest]
  rw [hrun]
  constructor
  · intro assembly h
    obtain ⟨files, notes, hdeliver, houtput, hsymbols, hlisting, hother⟩ :=
      Command.deliver_deliveries assembly hplaces hdistinct
    obtain ⟨hcode, hprinted, hfiles⟩ :=
      Command.assemble_of_assembled console.echo hsource h hdeliver
    rw [hcode, hprinted, hfiles, Command.printed_eq hecho]
    refine ⟨rfl, rfl, houtput, hsymbols, hlisting, hother, ?_⟩
    rw [← Word.fileText_lines, ← Command.fileText_eq]
    rfl
  · intro diagnostic h
    obtain ⟨hcode, hprinted, hfiles, herror⟩ := Command.assemble_of_refused console.echo hsource h
    rw [hcode, hprinted, hfiles]
    exact ⟨rfl, rfl, rfl, fun hquiet => (herror hquiet).trans (hecho _)⟩

/-- Two sources with their line ends, a file that is in the way and a directory. -/
def FileTree.desk : FileTree :=
  ⟨[(["p.asm".toList], .file (Utf8.encode ".ORIG x3000\r\nA LEA R0 A\r\nHALT .END".toList)),
    (["q.asm".toList], .file (Utf8.encode ".ORIG x3000\r\nLD R0 B".toList)),
    (["w".toList], .file [120]), (["out".toList], .directory)]⟩

/-- The standard console without its care for control sequences, of which the desk has none. -/
def Console.desk : Console :=
  ⟨Request.ofArguments, fun message => message ++ ['\n']⟩

theorem run_all_or_nothing_desk :
    (∃ arguments, arguments = ["-i", "p.asm", "-ow", "--listing=out/../out/p"].map String.toList ∧
      (Command.run .desk .desk arguments).exitCode.number = 0 ∧
      (Command.run .desk .desk arguments).files.node? ["w".toList] =
        some (.file (Utf8.encode "1110000111111111\n1111000000100101\n".toList)) ∧
      (Command.run .desk .desk arguments).files.node? ["p.asm".toList] =
        FileTree.desk.node? ["p.asm".toList]) ∧
    ∃ arguments, arguments = ["q.asm", "-s", "w"].map String.toList ∧
      (Command.run .desk .desk arguments).exitCode.number = 1 ∧
      (Command.run .desk .desk arguments).standardOutput = [] ∧
      (Command.run .desk .desk arguments).files = .desk ∧
      (Command.run .desk .desk arguments).standardError =
        "Assembly failed: q.asm:2:7: error: undefined label 'B'\n".toList := by
  have hecho : Console.desk.EchoesLines := fun _ => rfl
  constructor
  · have hrequest : Console.desk.request .desk
        (["-i", "p.asm", "-ow", "--listing=out/../out/p"].map String.toList) =
        .assemble ⟨.ofText "p.asm".toList, some (.ofText "w".toList), true, none,
          some (.ofText "out/../out/p".toList), false⟩ := by
      decide +kernel
    have hread : FileTree.desk.read (.ofText "p.asm".toList) =
        .ok (Utf8.encode ".ORIG x3000\r\nA LEA R0 A\r\nHALT .END".toList) := by
      decide +kernel
    have hdecode : Utf8.decode (Utf8.encode ".ORIG x3000\r\nA LEA R0 A\r\nHALT .END".toList) =
        .ok ".ORIG x3000\r\nA LEA R0 A\r\nHALT .END".toList := by
      decide +kernel
    have htakes : FileTree.desk.Takes (.ofText "w".toList) ["w".toList] :=
      ⟨by decide +kernel, by decide +kernel⟩
    have hplaces : List.Forall₂ FileTree.desk.Takes
        [.ofText "w".toList, .ofText "out/../out/p".toList]
        [["w".toList], ["out".toList, "p".toList]] :=
      .cons htakes (.cons ⟨by decide +kernel, by decide +kernel⟩ .nil)
    have hassembled : ∃ assembly, (⟨"p.asm".toList,
        ".ORIG x3000\nA LEA R0 A\nHALT .END".toList⟩ : Source).assemble = .ok assembly ∧
        assembly.wordsText = "1110000111111111\n1111000000100101".toList := by
      decide +kernel
    obtain ⟨assembly, hassembly, hwords⟩ := hassembled
    obtain ⟨hcode, -, houtput, -, -, hother, -⟩ :=
      (run_all_or_nothing hecho hrequest hread hdecode hplaces (by decide)).1 assembly hassembly
    have hfile := houtput _ rfl _ htakes
    rw [hwords] at hfile
    exact ⟨_, rfl, hcode, hfile, hother _ (by decide)⟩
  · have hrequest : Console.desk.request .desk (["q.asm", "-s", "w"].map String.toList) =
        .assemble ⟨.ofText "q.asm".toList, none, false, some (.ofText "w".toList), none, false⟩ := by
      decide +kernel
    have hread : FileTree.desk.read (.ofText "q.asm".toList) =
        .ok (Utf8.encode ".ORIG x3000\r\nLD R0 B".toList) := by
      decide +kernel
    have hdecode : Utf8.decode (Utf8.encode ".ORIG x3000\r\nLD R0 B".toList) =
        .ok ".ORIG x3000\r\nLD R0 B".toList := by
      decide +kernel
    have hplaces : List.Forall₂ FileTree.desk.Takes [.ofText "w".toList] [["w".toList]] :=
      .cons ⟨by decide +kernel, by decide +kernel⟩ .nil
    have hrefused : (⟨"q.asm".toList, ".ORIG x3000\nLD R0 B".toList⟩ : Source).assemble =
        .error (.diagnostic (.plain (.undefinedLabel "B".toList [])
          (some ⟨"q.asm".toList, 2, 7⟩))) := by
      decide +kernel
    obtain ⟨hcode, hprinted, hfiles, herror⟩ :=
      (run_all_or_nothing hecho hrequest hread hdecode hplaces (by decide)).2 _ hrefused
    exact ⟨_, rfl, hcode, hprinted, hfiles, (herror rfl).trans (by decide +kernel)⟩

end LittleComputer
