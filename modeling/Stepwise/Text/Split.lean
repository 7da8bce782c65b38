/-!
# Cutting text at a separator

Occurrences of a separator are found from left to right, and each starts behind the end of the one
before. All three operations walk the text once: `skip` counts the characters that still belong to
the occurrence just found. An empty separator has a meaning of its own in each of them.
-/

namespace Stepwise.Text

/-- Put a character in front of the first part. -/
def consFirst (c : Char) : List (List Char) → List (List Char)
  | [] => [[c]]
  | part :: parts => (c :: part) :: parts

/-- The parts between the occurrences of `sep`. -/
def parts (sep : List Char) (skip : Nat) : List Char → List (List Char)
  | [] => [[]]
  | c :: rest =>
    match skip with
    | skip + 1 => parts sep skip rest
    | 0 =>
      if sep.isPrefixOf (c :: rest) then [] :: parts sep (sep.length - 1) rest
      else consFirst c (parts sep 0 rest)

/-- The text with every occurrence of `old` replaced by `new`. -/
def replaceFrom (old new : List Char) (skip : Nat) : List Char → List Char
  | [] => []
  | c :: rest =>
    match skip with
    | skip + 1 => replaceFrom old new skip rest
    | 0 =>
      if old.isPrefixOf (c :: rest) then new ++ replaceFrom old new (old.length - 1) rest
      else c :: replaceFrom old new 0 rest

/-- The parts of a text between the occurrences of a separator; an empty separator cuts it into its
characters. -/
def split (text sep : String) : List String :=
  if sep.isEmpty then text.toList.map fun c => String.ofList [c]
  else (parts sep.toList 0 text.toList).map String.ofList

def join (texts : List String) (sep : String) : String :=
  String.ofList (List.intercalate sep.toList (texts.map String.toList))

/-- Replace every occurrence of `old`; an empty one occurs in front of every character and at the
end. -/
def replace (text old new : String) : String :=
  if old.isEmpty then
    String.ofList (new.toList ++ text.toList.flatMap fun c => c :: new.toList)
  else
    String.ofList (replaceFrom old.toList new.toList 0 text.toList)

def hasInfix (needle : List Char) : List Char → Bool
  | [] => needle.isEmpty
  | c :: rest => needle.isPrefixOf (c :: rest) || hasInfix needle rest

def contains (text needle : String) : Bool :=
  hasInfix needle.toList text.toList

end Stepwise.Text
