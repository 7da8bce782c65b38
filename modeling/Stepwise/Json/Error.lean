import Stepwise.Json.Cursor

/-!
# Why a text is not JSON
-/

namespace Stepwise.Json

inductive ParseCause where
  | eofValue
  | eofList
  | eofObject
  | eofString
  | expectedValue
  | expectedIdent
  | expectedColon
  | expectedCommaOrBracket
  | expectedCommaOrBrace
  | trailingComma
  | trailingCharacters
  | keyNotString
  | invalidNumber
  | numberOutOfRange
  | invalidEscape
  | loneSurrogate
  | unfinishedSurrogate
  | controlInString
  | tooDeep
  deriving Repr, DecidableEq

namespace ParseCause

def message : ParseCause → String
  | .eofValue => "EOF while parsing a value"
  | .eofList => "EOF while parsing a list"
  | .eofObject => "EOF while parsing an object"
  | .eofString => "EOF while parsing a string"
  | .expectedValue => "expected value"
  | .expectedIdent => "expected ident"
  | .expectedColon => "expected `:`"
  | .expectedCommaOrBracket => "expected `,` or `]`"
  | .expectedCommaOrBrace => "expected `,` or `\x7d`"
  | .trailingComma => "trailing comma"
  | .trailingCharacters => "trailing characters"
  | .keyNotString => "key must be a string"
  | .invalidNumber => "invalid number"
  | .numberOutOfRange => "number out of range"
  | .invalidEscape => "invalid escape"
  | .loneSurrogate => "lone leading surrogate in hex escape"
  | .unfinishedSurrogate => "unexpected end of hex escape"
  | .controlInString => "control character (\\u0000-\\u001F) found while parsing a string"
  | .tooDeep => "recursion limit exceeded"

end ParseCause

structure ParseError where
  cause : ParseCause
  place : Position
  deriving Repr, DecidableEq

namespace ParseError

def message (e : ParseError) : String :=
  e.cause.message ++ " at line " ++ toString e.place.line ++ " column " ++ toString e.place.column

end ParseError

namespace Cursor

def fail {α : Type} (cur : Cursor) (cause : ParseCause) : Except ParseError α :=
  .error ⟨cause, cur.place⟩

def failNext {α : Type} (cur : Cursor) (cause : ParseCause) : Except ParseError α :=
  .error ⟨cause, cur.peekPlace⟩

end Cursor

end Stepwise.Json
