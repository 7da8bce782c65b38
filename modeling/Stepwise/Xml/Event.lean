import Stepwise.Xml.Entity

/-!
# XML as a sequence of events

A reader that checks little: it splits a text into tags and what stands between them, and wants of
the tags only that closing ones match. Reading stops at the end of the text and at the first thing
it cannot make sense of; in both cases the events up to there are the result.

Blanks around text are not part of it. They are the space, tab, carriage return and line feed.
-/

namespace Stepwise.Xml

inductive Event where
  /-- An opening tag, by its local name: what follows the first colon. -/
  | start (name : List Char)
  | empty (name : List Char)
  | close
  /-- Text as written, its entities not yet replaced. -/
  | text (raw : List Char)
  | cdata (content : List Char)
  /-- Comments, declarations and processing instructions. -/
  | other
  deriving Repr, DecidableEq

def isBlank (c : Char) : Bool := c = ' ' || c = '\t' || c = '\r' || c = '\n'

/-- Drop the characters with a property from the end. -/
def trimEnd (p : Char → Bool) (cs : List Char) : List Char :=
  (cs.reverse.dropWhile p).reverse

def localName (name : List Char) : List Char :=
  match name.dropWhile (· ≠ ':') with
  | [] => name
  | _ :: rest => rest

/-- What stands in front of the first such character, and what follows it; all of the text and
nothing if there is none. -/
def upTo (stop : Char) (cs : List Char) : List Char × List Char :=
  (cs.takeWhile (· ≠ stop), (cs.dropWhile (· ≠ stop)).drop 1)

/-- The inside of a tag up to the first `>` that is not between quotes, and what follows it. `quote`
is the quote that is open. -/
def tagEnd? (quote : Option Char) (acc : List Char) : List Char → Option (List Char × List Char)
  | [] => none
  | c :: rest =>
    match quote with
    | none =>
      if c = '>' then some (acc.reverse, rest)
      else tagEnd? (if c = '\'' ∨ c = '"' then some c else none) (c :: acc) rest
    | some q => tagEnd? (if c = q then none else some q) (c :: acc) rest

/-- The text in front of the first `>` that `done` accepts, told what precedes it, nearest first. -/
def closeWhere? (done : List Char → Bool) (acc : List Char) :
    List Char → Option (List Char × List Char)
  | [] => none
  | c :: rest =>
    if c = '>' && done acc then some (acc.reverse, rest) else closeWhere? done (c :: acc) rest

def startsWithNoCase (pattern cs : List Char) : Bool :=
  (cs.take pattern.length).map Char.toUpper = pattern

def balanced (cs : List Char) : Bool := cs.count '<' = cs.count '>'

/-- A tag that starts with `!`, given from there: a comment, character data, or a document type. -/
def bang? (cs : List Char) : Option (Event × List Char) :=
  match cs.drop 1 with
  | '-' :: _ =>
    -- the shortest comment has four dashes
    match closeWhere? (fun before => before.length > 4 && "--".toList.isPrefixOf before) [] cs with
    | some (inside, rest) => if "!--".toList.isPrefixOf inside then some (.other, rest) else none
    | none => none
  | '[' :: _ =>
    match closeWhere? (fun before => "]]".toList.isPrefixOf before) [] cs with
    | some (inside, rest) =>
      let content := inside.take (inside.length - 2)
      if startsWithNoCase "![CDATA[".toList content then some (.cdata (content.drop 8), rest)
      else none
    | none => none
  | c :: _ =>
    if c = 'D' ∨ c = 'd' then
      match closeWhere? balanced [] cs with
      | some (inside, rest) =>
        if startsWithNoCase "!DOCTYPE".toList inside && (inside.drop 8).any (!isBlank ·)
        then some (.other, rest) else none
      | none => none
    else none
  | [] => none

/-- A processing instruction, given from its `?`. Something must stand between the two marks. -/
def instruction? (cs : List Char) : Option (Event × List Char) :=
  let (inside, rest) := upTo '>' cs
  if inside.length > 2 ∧ inside.getLast? = some '?' then some (.other, rest) else none

/-- Blanks at the end of a closing tag; a form feed counts here. -/
def isTagBlank (c : Char) : Bool := isBlank c || c = Char.ofNat 12

/-- A closing tag, given from its slash. Its name must be that of the element opened last. A name of
blanks only is left as it is. -/
def closing? (opened : List (List Char)) (cs : List Char) :
    Option (Event × List Char × List (List Char)) :=
  let (inside, rest) := upTo '>' cs
  let written := inside.drop 1
  let name := if written.all isTagBlank then written else trimEnd isTagBlank written
  match opened with
  | last :: outer => if name = last then some (.close, rest, outer) else none
  | [] => none

/-- An opening tag. Its name ends at the first blank, and a slash at the end closes the element. -/
def opening? (opened : List (List Char)) (cs : List Char) :
    Option (Event × List Char × List (List Char)) :=
  match tagEnd? none [] cs with
  | none => none
  | some (inside, rest) =>
    let name := inside.takeWhile (!isBlank ·)
    if inside.getLast? = some '/' then
      -- the slash was taken for a part of the name if no blank divides them
      let name := if name.length < inside.length then name else name.dropLast
      some (.empty (localName name), rest, opened)
    else some (.start (localName name), rest, name :: opened)

/-- A tag, given from behind its `<`, with the names of the open elements, last first. -/
def tag? (opened : List (List Char)) (cs : List Char) :
    Option (Event × List Char × List (List Char)) :=
  match cs with
  | [] => none
  | '!' :: _ => (bang? cs).map fun (e, rest) => (e, rest, opened)
  | '/' :: _ => closing? opened cs
  | '?' :: _ => (instruction? cs).map fun (e, rest) => (e, rest, opened)
  | _ => opening? opened cs

/-- The events of a text. Every round consumes a character, so its length is fuel enough. -/
def eventsWithin (fuel : Nat) (opened : List (List Char)) (cs : List Char) : List Event :=
  match fuel with
  | 0 => []
  | fuel + 1 =>
    match cs.dropWhile isBlank with
    | [] => []
    | '<' :: rest =>
      match tag? opened rest with
      | some (e, rest, opened) => e :: eventsWithin fuel opened rest
      | none => []
    | cs =>
      .text (trimEnd isBlank (cs.takeWhile (· ≠ '<'))) ::
        match cs.dropWhile (· ≠ '<') with
        | [] => []
        | _ :: rest =>
          match tag? opened rest with
          | some (e, rest, opened) => e :: eventsWithin fuel opened rest
          | none => []

/-- The events of a text, up to its end or to the first thing that cannot be read. A byte order mark
in front is dropped. -/
def events (s : String) : List Event :=
  let cs := match s.toList with
    | c :: rest => if c.toNat = 0xFEFF then rest else c :: rest
    | [] => []
  eventsWithin (cs.length + 1) [] cs

end Stepwise.Xml
