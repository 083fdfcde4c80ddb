import LittleComputer.Text.Quoted
import LittleComputer.Token.Kind

/-! # Tokens and their places

The words and strings of a source. The content is the lexeme as written, except that a string has
its escapes resolved; it keeps its quotes, and an immediate keeps its mark. Two tokens agree when
kind and content do: the location only serves messages. -/

namespace LittleComputer
set_option autoImplicit false

/-- A place in a source. Places found by reading a source count lines and columns from one; places
given from outside may hold any integers. -/
structure Location where
  file : Text
  line : Int
  column : Int
  deriving DecidableEq, Repr

namespace Location

/-- The location as messages show it: `file:line:column`. -/
def text (location : Location) : Text :=
  location.file ++ ':' :: (Numeral.integer location.line ++ ':' :: Numeral.integer location.column)

/-- True when a message can show the location: neither of its numbers has too many digits. -/
def isWritable (location : Location) : Bool :=
  !Numeral.exceedsLimit location.line && !Numeral.exceedsLimit location.column

end Location

/-- A lexeme with its kind and place. -/
structure Token where
  kind : TokenKind
  content : Text
  location : Location
  deriving DecidableEq, Repr

namespace Token

/-- True when two tokens have the same kind and content. -/
def agrees (a b : Token) : Bool :=
  a.kind == b.kind && a.content == b.content

/-- The token in renderings: its tag, a colon and its content. -/
def text (token : Token) : Text :=
  token.kind.tag :: ':' :: token.content

/-- The token with kind, quoted content and place, for messages about the token itself. -/
def description (token : Token) : Text :=
  "Token(".toList ++ token.kind.title ++ ", ".toList ++ Text.quoted token.content ++ ", ".toList
    ++ Numeral.integer token.location.line ++ ":".toList ++ Numeral.integer token.location.column
    ++ ")".toList

end Token

end LittleComputer
