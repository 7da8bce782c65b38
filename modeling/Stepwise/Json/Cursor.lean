/-!
# Positions in a text

A cursor is what is left of a text, with the place reached in it. Lines count from one; the column
is the number of bytes, in UTF-8, that were consumed on the line.
-/

namespace Stepwise.Json

structure Position where
  line : Nat
  column : Nat
  deriving Repr, DecidableEq

namespace Position

def start : Position := ⟨1, 0⟩

def after (p : Position) (c : Char) : Position :=
  if c = '\n' then ⟨p.line + 1, 0⟩ else ⟨p.line, p.column + c.utf8Size⟩

/-- The place `bytes` bytes further on, which may be inside of a character. -/
def afterBytes (p : Position) : Nat → List Char → Position
  | _, [] => p
  | bytes, c :: rest =>
    if bytes = 0 then p
    else if bytes < c.utf8Size then ⟨p.line, p.column + bytes⟩
    else afterBytes (p.after c) (bytes - c.utf8Size) rest

end Position

structure Cursor where
  rest : List Char
  place : Position

namespace Cursor

def ofString (s : String) : Cursor := ⟨s.toList, .start⟩

def peek? (cur : Cursor) : Option Char := cur.rest.head?

def next? (cur : Cursor) : Option (Char × Cursor) :=
  match cur.rest with
  | [] => none
  | c :: rest => some (c, ⟨rest, cur.place.after c⟩)

def skip (cur : Cursor) : Cursor :=
  match cur.rest with
  | [] => cur
  | c :: rest => ⟨rest, cur.place.after c⟩

def skipWhile (p : Char → Bool) (cur : Cursor) : Cursor :=
  ⟨cur.rest.dropWhile p, (cur.rest.takeWhile p).foldl Position.after cur.place⟩

/-- The place of the first byte of the next character, counted as consumed. At the end of the text
it is the place reached. -/
def peekPlace (cur : Cursor) : Position := cur.place.afterBytes 1 cur.rest

/-- The place at the end of the text. -/
def endPlace (cur : Cursor) : Position := cur.rest.foldl Position.after cur.place

end Cursor

end Stepwise.Json
