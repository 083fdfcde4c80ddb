import LittleComputer.Command.Arguments

/-! # The program

The outer layer of the command: it looks up the files that the arguments name, runs the command on
them, prints what it says and writes the files that it leaves. -/

namespace LittleComputer
set_option autoImplicit false

/-- The system's name of a place. -/
def placeName (place : List Text) : String :=
  String.ofList (Text.join ['/'] place)

/-- Enters what the system holds at a place. -/
def observePlace (tree : FileTree) (place : List Text) : IO FileTree := do
  if (tree.node? place).isSome then
    return tree
  let path := System.mkFilePath [placeName place]
  if ← path.isDir then
    return tree.set place .directory
  else if ← path.pathExists then
    let bytes ← IO.FS.readBinFile path
    return tree.set place (.file bytes.toList)
  else
    return tree

/-- Enters what the system holds on the way of a path. -/
def observe (tree : FileTree) (text : Text) : IO FileTree := do
  let mut tree := tree
  let mut walked : Text := []
  for part in Text.split '/' text do
    walked := walked ++ part
    match tree.resolve walked with
    | .ok place => tree ← observePlace tree place
    | .error _ => pure ()
    walked := walked ++ ['/']
  return tree

/-- Enters the files that a list of arguments names. -/
def observeArguments (arguments : List Text) : IO FileTree := do
  match Given.ofArguments arguments with
  | .error _ => return .empty
  | .ok given =>
    let mut tree := FileTree.empty
    for text in given.operands ++ given.files.map Prod.snd do
      tree ← observe tree text
    return tree

end LittleComputer

def main (arguments : List String) : IO UInt32 := do
  let texts := arguments.map String.toList
  let tree ← LittleComputer.observeArguments texts
  let outcome := LittleComputer.Command.run .standard tree texts
  IO.print (String.ofList outcome.standardOutput)
  IO.eprint (String.ofList outcome.standardError)
  for (place, bytes) in LittleComputer.FileTree.changes tree outcome.files do
    IO.FS.writeBinFile (LittleComputer.placeName place) (ByteArray.mk bytes.toArray)
  return outcome.exitCode.number.toUInt32
