import LittleComputer.Log
import LittleComputer.Trouble

/-! # The command

`Command.run` is one run of the command over a file tree: what it prints, how it ends and which
files it leaves. Standard output gets the statements on demand and the words unless they go to a
file. Files are written in the order words, symbols, listing, and only when assembly succeeds.

How arguments are read and how a message is shown is left to a `Console`. -/

namespace LittleComputer
set_option autoImplicit false

/-! ## Source files

The bytes of a file are read as UTF-8, every line end becomes a newline, and messages name the file
by its path. -/

namespace FileTree

def source (tree : FileTree) (path : Path) : Except Trouble Source :=
  match tree.read path with
  | .error error => .error (.file error)
  | .ok bytes =>
    match Utf8.decode bytes with
    | .error defect => .error (.undecodable defect)
    | .ok text => .ok ⟨path.text, Utf8.unifyNewlines text⟩

def assemble (tree : FileTree) (path : Path) : Except Trouble Assembly := do
  let source ← tree.source path
  source.assemble.mapError Trouble.program

end FileTree

def LogEntry.ofFile (verbose : Bool) (tree : FileTree) (path : Path) : List LogEntry :=
  report verbose ("Assembling ".toList ++ path.text ++ "...".toList)
    :: match tree.source path with
      | .error _ => []
      | .ok source => ofAssembling verbose source

/-! ## Requests -/

structure Options where
  input : Path
  output : Option Path
  intermediate : Bool
  symbols : Option Path
  listing : Option Path
  verbose : Bool
  deriving DecidableEq, Repr

/-- What is asked of the command. Whatever the console deals with itself is answered, and nothing is
run. -/
inductive Request where
  | answered (exitCode : ExitCode) (output error : Text)
  | assemble (options : Options)
  deriving DecidableEq, Repr

/-- The surroundings of the command: what arguments ask for in sight of the files, and what is
written for a message. -/
structure Console where
  request : FileTree → List Text → Request
  echo : Text → Text

/-! ## Runs -/

/-- What a run leaves behind. -/
structure Outcome where
  exitCode : ExitCode
  standardOutput : Text
  standardError : Text
  files : FileTree
  deriving DecidableEq, Repr

namespace Command

/-- What a file holds for a rendering: nothing for an empty one, otherwise the rendering and a
newline. -/
def fileText (rendering : Text) : Text :=
  if rendering.isEmpty then [] else rendering ++ ['\n']

/-- A rendering for a file, and the note about it once it is written. -/
structure Delivery where
  path : Path
  rendering : Text
  note : Text
  deriving DecidableEq, Repr

/-- The renderings that go to files, in the order of writing. -/
def deliveries (options : Options) (assembly : Assembly) : List Delivery :=
  let words := options.output.toList.map fun path =>
    ⟨path, assembly.wordsText,
      LogEntry.counted "Wrote " assembly.words.length " words to " ++ path.text⟩
  let symbols := options.symbols.toList.map fun path =>
    ⟨path, assembly.symbolsText, "Wrote symbols to ".toList ++ path.text⟩
  let listing := options.listing.toList.map fun path =>
    ⟨path, assembly.listing, "Wrote listing to ".toList ++ path.text⟩
  words ++ symbols ++ listing

/-- What standard output gets for an assembled program. -/
def printed (echo : Text → Text) (options : Options) (assembly : Assembly) : Text :=
  let statements :=
    if options.intermediate then assembly.statements.flatMap fun s => echo s.text else []
  let words :=
    if options.output.isNone then (Text.splitLines assembly.wordsText).flatMap echo else []
  statements ++ words

/-- Writes renderings in turn. The result is the tree and the notes so far, and the error at which
writing stopped, if any. -/
def deliver (tree : FileTree) : List Delivery → FileTree × List LogEntry × Option FileError
  | [] => (tree, [], none)
  | delivery :: rest =>
    match tree.write delivery.path (Utf8.encode (fileText delivery.rendering)) with
    | .error error => (tree, [], some error)
    | .ok written =>
      let (final, notes, error) := deliver written rest
      (final, ⟨.info, .command, delivery.note⟩ :: notes, error)

/-- The notes on standard error: all of a talkative run, none otherwise. -/
def noted (verbose : Bool) (entries : List LogEntry) : Text :=
  if verbose then entries.flatMap LogEntry.line else []

/-- The outcome of a run that meets trouble. -/
def failed (echo : Text → Text) (options : Options) (output : Text) (entries : List LogEntry)
    (trouble : Trouble) (files : FileTree) : Outcome :=
  { exitCode := trouble.exitCode
    standardOutput := output
    standardError :=
      noted options.verbose entries ++ trouble.report echo options.verbose (some "Assembly".toList)
    files }

def assemble (echo : Text → Text) (tree : FileTree) (options : Options) : Outcome :=
  let entries := LogEntry.ofFile options.verbose tree options.input
  match tree.assemble options.input with
  | .error trouble => failed echo options [] entries trouble tree
  | .ok assembly =>
    let output := printed echo options assembly
    match deliver tree (deliveries options assembly) with
    | (files, notes, some error) =>
      failed echo options output (entries ++ notes) (.file error) files
    | (files, notes, none) =>
      { exitCode := .success
        standardOutput := output
        standardError := noted options.verbose (entries ++ notes)
        files }

def run (console : Console) (tree : FileTree) (arguments : List Text) : Outcome :=
  match console.request tree arguments with
  | .answered exitCode output error => ⟨exitCode, output, error, tree⟩
  | .assemble options => assemble console.echo tree options

end Command

end LittleComputer
