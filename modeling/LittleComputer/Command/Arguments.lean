import LittleComputer.Command
import LittleComputer.Text.Likeness
import LittleComputer.Text.Plain

/-! # The standard console

The command takes one input file and options, which may stand in front of it and behind it. Messages
are shown without control sequences.

* `Parameter`: the options, by letter and by name. A name that is none of theirs brings up those
  that are close to it.
* `Given.ofArguments`: the options and operands in a list of arguments. A value may be joined to
  its option, letters of switches may share a dash, and a double dash ends the options.
* `Request.ofGiven`: what is asked for. The first of version and help is answered at once;
  otherwise values are checked in the order of their options, then the input, and operands that
  are left over are refused.
* `Console.standard`: the console of the program.
-/

namespace LittleComputer
set_option autoImplicit false

/-! ## Options -/

/-- The options of the command. -/
inductive Parameter where
  | output
  | intermediate
  | symbols
  | listing
  | verbose
  | version
  | help
  deriving DecidableEq, Repr

namespace Parameter

def all : List Parameter :=
  [output, intermediate, symbols, listing, verbose, version, help]

def takesFile : Parameter → Bool
  | output | symbols | listing => true
  | _ => false

def letter? : Parameter → Option Char
  | output => some 'o'
  | intermediate => some 'i'
  | symbols => some 's'
  | listing => some 'l'
  | verbose => some 'v'
  | version => none
  | help => none

def name : Parameter → Text
  | output => "--output".toList
  | intermediate => "--intermediate".toList
  | symbols => "--symbols".toList
  | listing => "--listing".toList
  | verbose => "--verbose".toList
  | version => "--version".toList
  | help => "--help".toList

def ofLetter? (c : Char) : Option Parameter :=
  all.find? fun parameter => parameter.letter? == some c

def ofName? (name : Text) : Option Parameter :=
  all.find? fun parameter => parameter.name == name

/-- The names of options that are close to a name. -/
def closest (name : Text) : List Text :=
  Text.closest name (all.map Parameter.name)

/-- The option in messages about its value: letter and name. -/
def label (parameter : Parameter) : Text :=
  match parameter.letter? with
  | some c => Text.named ['-', c] ++ " / ".toList ++ Text.named parameter.name
  | none => Text.named parameter.name

end Parameter

/-- A message as it is shown: without control sequences and with a newline behind it. -/
def Console.plainLine (message : Text) : Text :=
  Text.plain message ++ ['\n']

/-! ## Misuse -/

/-- The name of the operand. -/
def inputName : Text := "INPUT_FILE".toList

/-- Arguments that the command cannot work with. -/
inductive Misuse where
  | valueMissing (option : Text)
  | valueUnexpected (option : Text)
  | unknownLetter (letter : Char)
  | unknownName (name : Text)
  | inputMissing
  | absentFile (label file : Text)
  | directory (label file : Text)
  | extraOperands (operands : List Text)
  deriving DecidableEq, Repr

namespace Misuse

def question : List Text → Text
  | [] => []
  | [name] => " Did you mean ".toList ++ Text.quoted name ++ "?".toList
  | names =>
    " (Did you mean one of: ".toList ++ Text.join ", ".toList (names.map Text.quoted)
      ++ "?)".toList

/-- The misuse in one sentence, and for an unknown name the question that may follow. -/
def message : Misuse → Text
  | valueMissing option => "Option ".toList ++ Text.quoted option ++ " requires an argument.".toList
  | valueUnexpected option =>
    "Option ".toList ++ Text.quoted option ++ " does not take a value.".toList
  | unknownLetter letter => "No such option ".toList ++ Text.quoted ['-', letter] ++ ".".toList
  | unknownName name =>
    "No such option ".toList ++ Text.quoted name ++ ".".toList ++ question (Parameter.closest name)
  | inputMissing => "Missing argument ".toList ++ Text.named inputName ++ ".".toList
  | absentFile label file =>
    "Invalid value for ".toList ++ label ++ ": File ".toList ++ Text.quoted file
      ++ " does not exist.".toList
  | directory label file =>
    "Invalid value for ".toList ++ label ++ ": File ".toList ++ Text.quoted file
      ++ " is a directory.".toList
  | extraOperands operands =>
    (if operands.length = 1 then "Got unexpected extra argument (".toList
      else "Got unexpected extra arguments (".toList)
      ++ Text.join " ".toList operands ++ ")".toList

def usage : Text :=
  "Usage: lc3asm [OPTIONS] INPUT_FILE\nTry 'lc3asm --help' for help.\n\n".toList

/-- What the user is told. Values that are missing or in excess are told without the usage. -/
def report (misuse : Misuse) : Text :=
  let told := Console.plainLine ("Error: ".toList ++ misuse.message)
  match misuse with
  | valueMissing _ => told
  | valueUnexpected _ => told
  | _ => usage ++ told

end Misuse

/-! ## Reading arguments -/

/-- The options of a list of arguments in order, each with its value, and the operands. The value of
a switch is empty. -/
structure Given where
  options : List (Parameter × Text)
  operands : List Text
  deriving DecidableEq, Repr

namespace Given

/-- Options in front of others. -/
def prepend (options : List (Parameter × Text)) (given : Given) : Given :=
  { given with options := options ++ given.options }

/-- The options of one argument, and the one among them that still lacks a value, with the spelling
that messages use for it. -/
structure Letters where
  options : List (Parameter × Text)
  open? : Option (Parameter × Text)
  deriving DecidableEq, Repr

/-- Letters behind a dash. The rest behind an option with a value is that value. -/
def ofLetters : Text → Except Misuse Letters
  | [] => .ok ⟨[], none⟩
  | c :: rest =>
    match Parameter.ofLetter? c with
    | none => .error (.unknownLetter c)
    | some parameter =>
      if parameter.takesFile then
        match rest with
        | [] => .ok ⟨[], some (parameter, ['-', c])⟩
        | value => .ok ⟨[(parameter, value)], none⟩
      else do
        let letters ← ofLetters rest
        .ok { letters with options := (parameter, []) :: letters.options }

/-- A name with its dashes, and behind an equals sign a value. -/
def ofName (argument : Text) : Except Misuse Letters :=
  let name := argument.takeWhile (· != '=')
  let value? := (argument.dropWhile (· != '=')).tail?
  match Parameter.ofName? name, value? with
  | none, _ => .error (.unknownName name)
  | some parameter, some value =>
    if parameter.takesFile then .ok ⟨[(parameter, value)], none⟩
    else .error (.valueUnexpected name)
  | some parameter, none =>
    if parameter.takesFile then .ok ⟨[], some (parameter, name)⟩
    else .ok ⟨[(parameter, [])], none⟩

/-- The options and operands of a list of arguments. -/
def ofArguments : List Text → Except Misuse Given
  | [] => .ok ⟨[], []⟩
  | argument :: rest =>
    let option? : Option (Except Misuse Letters) :=
      match argument with
      | '-' :: '-' :: _ => some (ofName argument)
      | '-' :: c :: letters => some (ofLetters (c :: letters))
      | _ => none
    if argument = ['-', '-'] then .ok ⟨[], rest⟩
    else
      match option? with
      | none => do
        let given ← ofArguments rest
        .ok { given with operands := argument :: given.operands }
      | some (.error misuse) => .error misuse
      | some (.ok ⟨options, none⟩) => do
        let given ← ofArguments rest
        .ok (given.prepend options)
      | some (.ok ⟨options, some (parameter, spelled)⟩) =>
        match rest with
        | [] => .error (.valueMissing spelled)
        | value :: rest => do
          let given ← ofArguments rest
          .ok (given.prepend (options ++ [(parameter, value)]))

def has (given : Given) (parameter : Parameter) : Bool :=
  given.options.any fun option => option.1 == parameter

/-- The last value of an option. -/
def value? (given : Given) (parameter : Parameter) : Option Text :=
  (given.options.reverse.find? fun option => option.1 == parameter).map Prod.snd

/-- The options with a value, each once, in the order in which they are given first. -/
def files (given : Given) : List (Parameter × Text) :=
  let parameters := (given.options.map Prod.fst).filter Parameter.takesFile
  parameters.eraseDups.filterMap fun parameter =>
    (given.value? parameter).map fun value => (parameter, value)

end Given

/-! ## Requests -/

namespace Command

def version : Text := "1.0.0".toList

def versionText : Text :=
  "lc3asm, version ".toList ++ version ++ "\n".toList

def helpText : Text :=
  Text.unlines
    ["Usage: lc3asm [OPTIONS] INPUT_FILE".toList,
      [],
      "  Assemble LC-3 source code into 16-bit machine words.".toList,
      [],
      "  INPUT_FILE is the assembly source file (.asm) to assemble.".toList,
      [],
      "  Examples:".toList,
      "      lc3asm hello.asm               # Print words to stdout".toList,
      "      lc3asm -i hello.asm            # Also print instructions".toList,
      "      lc3asm hello.asm -o out.txt    # Write words to a file".toList,
      "      lc3asm hello.asm -s hello.sym  # Write the symbol table".toList,
      [],
      "Options:".toList,
      "  -o, --output FILE   Write the binary words to FILE instead of standard output".toList,
      "  -i, --intermediate  Print the parsed instructions before the words".toList,
      "  -s, --symbols FILE  Generate symbol file".toList,
      "  -l, --listing FILE  Generate listing file".toList,
      "  -v, --verbose       Verbose output".toList,
      "  --version           Show the version and exit.".toList,
      "  --help              Show this message and exit.".toList,
      []]

end Command

namespace Request

/-- Refuses directories as values of options. -/
def checkFiles (tree : FileTree) : List (Parameter × Text) → Except Misuse Unit
  | [] => .ok ()
  | (parameter, value) :: rest =>
    match tree.status value with
    | some .directory => .error (.directory parameter.label value)
    | _ => checkFiles tree rest

/-- Demands an input file that exists and is no directory. -/
def checkInput (tree : FileTree) (input : Text) : Except Misuse Unit :=
  match tree.status input with
  | none => .error (.absentFile (Text.named inputName) input)
  | some .directory => .error (.directory (Text.named inputName) input)
  | some (.file _) => .ok ()

/-- The request that options and operands make. -/
def ofGiven (tree : FileTree) (given : Given) : Except Misuse Request :=
  let eager := given.options.find? fun option => option.1 == .version || option.1 == .help
  match eager with
  | some (.version, _) => .ok (.answered .success Command.versionText [])
  | some _ => .ok (.answered .success Command.helpText [])
  | none => do
    checkFiles tree given.files
    match given.operands with
    | [] => .error .inputMissing
    | input :: extra =>
      checkInput tree input
      if extra.isEmpty then
        .ok (.assemble
          { input := .ofText input
            output := (given.value? .output).map Path.ofText
            intermediate := given.has .intermediate
            symbols := (given.value? .symbols).map Path.ofText
            listing := (given.value? .listing).map Path.ofText
            verbose := given.has .verbose })
      else .error (.extraOperands extra)

/-- The request of a list of arguments. Misuse is answered as well. -/
def ofArguments (tree : FileTree) (arguments : List Text) : Request :=
  match Given.ofArguments arguments >>= ofGiven tree with
  | .ok request => request
  | .error misuse => .answered .invalidArguments [] misuse.report

end Request

def Console.standard : Console :=
  ⟨Request.ofArguments, Console.plainLine⟩

end LittleComputer
