import LittleComputer.Text.Quoted
import LittleComputer.Utf8

/-! # Files

Paths and the files a command works on. A path is kept as its parts; empty parts and single dots
vanish, double dots stay. A file tree holds files and directories by their place below the current
directory.

* `Path.ofText`, `Path.text`: a path from its text and back in its shortest form.
* `FileTree.status`: what a path given by a user leads to.
* `FileTree.read`, `FileTree.write`: the bytes of a file, or why they cannot be had.
-/

namespace LittleComputer
set_option autoImplicit false

/-! ## Paths -/

/-- A path: the slashes it starts with, if any, and its parts. -/
structure Path where
  root : Text
  parts : List Text
  deriving DecidableEq, Repr

namespace Path

/-- The slashes that a path keeps at its start: two when there are exactly two, otherwise one. -/
def rootOf : Text → Text
  | '/' :: '/' :: '/' :: _ => ['/']
  | '/' :: '/' :: _ => ['/', '/']
  | '/' :: _ => ['/']
  | _ => []

def ofText (text : Text) : Path :=
  ⟨rootOf text, (Text.split '/' text).filter fun part => !part.isEmpty && part != ['.']⟩

/-- The text of a path; the current directory is a dot. -/
def text (path : Path) : Text :=
  if path.root.isEmpty && path.parts.isEmpty then ['.']
  else path.root ++ Text.join ['/'] path.parts

end Path

/-! ## Errors -/

namespace FileError

/-- Why a file cannot be read or written. -/
inductive Kind where
  | absent
  | forbidden
  | notDirectory
  | isDirectory
  | nameTooLong
  | nullCharacter
  deriving DecidableEq, Repr

/-- The number that systems give to the error. A null character in a path is found before the system
is asked. -/
def Kind.number? : Kind → Option Nat
  | absent => some 2
  | forbidden => some 13
  | notDirectory => some 20
  | isDirectory => some 21
  | nameTooLong => some 36
  | nullCharacter => none

def Kind.reason : Kind → Text
  | absent => "No such file or directory".toList
  | forbidden => "Permission denied".toList
  | notDirectory => "Not a directory".toList
  | isDirectory => "Is a directory".toList
  | nameTooLong => "File name too long".toList
  | nullCharacter => "embedded null byte".toList

/-- The sentence about a system error and the file that it concerns. -/
def sentence (number : Nat) (reason file : Text) : Text :=
  "[Errno ".toList ++ Numeral.decimal number ++ "] ".toList ++ reason ++ ": ".toList
    ++ Text.quoted file

end FileError

/-- A failure to read or write a file. -/
structure FileError where
  kind : FileError.Kind
  message : Text
  deriving DecidableEq, Repr

/-- The failure of a kind at a path. -/
def FileError.ofPath (kind : FileError.Kind) (path : Path) : FileError :=
  match kind.number? with
  | some number => ⟨kind, FileError.sentence number kind.reason path.text⟩
  | none => ⟨kind, kind.reason⟩

/-! ## Trees -/

/-- A file with its bytes, or a directory. -/
inductive FileNode where
  | file (bytes : List UInt8)
  | directory
  deriving DecidableEq, Repr

/-- Files and directories by the names that lead to them from the current directory. Places above
that are directories, named by double dots or by a slash. -/
structure FileTree where
  nodes : List (List Text × FileNode)
  deriving DecidableEq, Repr

namespace FileTree

def empty : FileTree := ⟨[]⟩

/-- The name of the directory above. -/
def above : Text := ['.', '.']

def node? (tree : FileTree) (place : List Text) : Option FileNode :=
  if place.all (· == above) || place == [['/']] then some .directory
  else (tree.nodes.find? fun node => node.1 == place).map Prod.snd

def parent (place : List Text) : List Text :=
  if place == [['/']] then place
  else if place.all (· == above) then place ++ [above]
  else place.dropLast

/-- Puts a node at a place, in front of all others. -/
def set (tree : FileTree) (place : List Text) (node : FileNode) : FileTree :=
  ⟨(place, node) :: tree.nodes.filter fun other => other.1 != place⟩

/-- Puts a directory at every place above the given one that is empty. -/
def makeParents (tree : FileTree) (done : List Text) : List Text → FileTree
  | [] => tree
  | [_] => tree
  | name :: rest =>
    let place := done ++ [name]
    let tree := if (tree.node? place).isSome then tree else tree.set place .directory
    tree.makeParents place rest

/-- Puts a node at a relative path and makes the directories above it. -/
def insert (tree : FileTree) (path : Path) (node : FileNode) : FileTree :=
  (tree.makeParents [] path.parts).set path.parts node

/-- The bytes that a text takes in the names of a system. -/
def byteLength (text : Text) : Nat :=
  (Utf8.encode text).length

def nameLimit : Nat := 255

def pathLimit : Nat := 4095

/-- Follows the parts of a path from a place. Everything on the way has to be a directory, also in
front of an empty part, so that a slash at the end asks for one. A name that is too long is refused
where it is looked up. -/
def follow (tree : FileTree) (place : List Text) : List Text → Except FileError.Kind (List Text)
  | [] => .ok place
  | part :: rest =>
    match tree.node? place with
    | none => .error .absent
    | some (.file _) => .error .notDirectory
    | some .directory =>
      if part.isEmpty || part == ['.'] then tree.follow place rest
      else if part == above then tree.follow (parent place) rest
      else if nameLimit < byteLength part then .error .nameTooLong
      else tree.follow (place ++ [part]) rest

/-- The place that the text of a path leads to. -/
def resolve (tree : FileTree) (text : Text) : Except FileError.Kind (List Text) :=
  if text.contains (Char.ofNat 0) then .error .nullCharacter
  else if pathLimit < byteLength text then .error .nameTooLong
  else
    match text with
    | [] => .error .absent
    | '/' :: _ => tree.follow [['/']] (Text.split '/' text)
    | _ => tree.follow [] (Text.split '/' text)

/-- What the text of a path leads to, if anything. -/
def status (tree : FileTree) (text : Text) : Option FileNode :=
  match tree.resolve text with
  | .ok place => tree.node? place
  | .error _ => none

def read (tree : FileTree) (path : Path) : Except FileError (List UInt8) :=
  match tree.resolve path.text with
  | .error kind => .error (.ofPath kind path)
  | .ok place =>
    match tree.node? place with
    | some (.file bytes) => .ok bytes
    | some .directory => .error (.ofPath .isDirectory path)
    | none => .error (.ofPath .absent path)

/-- The tree with the bytes of a file replaced, or with a new file. -/
def write (tree : FileTree) (path : Path) (bytes : List UInt8) : Except FileError FileTree :=
  match tree.resolve path.text with
  | .error kind => .error (.ofPath kind path)
  | .ok place =>
    match tree.node? place with
    | some .directory => .error (.ofPath .isDirectory path)
    | _ => .ok (tree.set place (.file bytes))

/-- The files that a tree holds and an earlier one does not, or with other bytes, by their places. -/
def changes (before after : FileTree) : List (List Text × List UInt8) :=
  after.nodes.filterMap fun node =>
    match node.2 with
    | .directory => none
    | .file bytes =>
      if before.node? node.1 = some (.file bytes) then none else some (node.1, bytes)

/-- The name of a place below the current directory; places elsewhere have none. -/
def relativeName? (place : List Text) : Option Text :=
  match place with
  | [] => none
  | name :: _ => if name = above ∨ name = ['/'] then none else some (Text.join ['/'] place)

end FileTree

end LittleComputer
