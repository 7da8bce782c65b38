/-!
# Reading files

What a program reads from files is written as a tree of questions: the path of a file, and what to
do with either its text or the reason why there is none. **The tree is plain data.** Given a
function from paths to texts its outcome is a value; the outer layer answers the questions from the
disk.
-/

namespace Stepwise

inductive FileError where
  | notFound
  | isDirectory
  | notDirectory
  | notText
  | other (reason : String)

namespace FileError

def message : FileError → String
  | .notFound => "No such file or directory (os error 2)"
  | .isDirectory => "Is a directory (os error 21)"
  | .notDirectory => "Not a directory (os error 20)"
  | .notText => "stream did not contain valid UTF-8"
  | .other reason => reason

def isFile : FileError → Bool
  | .notText => true
  | .other _ => true
  | _ => false

end FileError

/-- An outcome that depends on files. -/
inductive Reading (α : Type) where
  | done (a : α)
  | read (path : String) (next : Except FileError String → Reading α)

namespace Reading

variable {α β : Type}

def bind (f : α → Reading β) : Reading α → Reading β
  | .done a => f a
  | .read path next => .read path fun text => bind f (next text)

instance : Monad Reading where
  pure := .done
  bind r f := r.bind f

def file (path : String) : Reading (Except FileError String) := .read path .done

def run (files : String → Except FileError String) : Reading α → α
  | .done a => a
  | .read path next => run files (next (files path))

@[simp]
theorem run_done (files : String → Except FileError String) (a : α) :
    (done a).run files = a := rfl

@[simp]
theorem run_bind (files : String → Except FileError String) (r : Reading α)
    (f : α → Reading β) :
    (r.bind f).run files = (f (r.run files)).run files := by
  induction r with
  | done a => rfl
  | read path next ih => exact ih (files path)

end Reading

/-! ## Paths -/

namespace Path

def components (path : String) : List String :=
  let step (parts : List String × List Char) (c : Char) : List String × List Char :=
    if c = '/' then (String.ofList parts.2.reverse :: parts.1, []) else (parts.1, c :: parts.2)
  let (front, last) := path.toList.foldl step ([], [])
  (String.ofList last.reverse :: front).reverse.filter fun part => part ≠ "" && part ≠ "."

/-- What follows the last point in the name of a file. A point in front of the name does not
count. -/
def extension? (path : String) : Option String := do
  let name ← (components path).getLast?
  let cs := name.toList.reverse
  match cs.dropWhile (· ≠ '.') with
  | '.' :: _ :: _ =>
    if name = ".." then none else some (String.ofList (cs.takeWhile (· ≠ '.')).reverse)
  | _ => none

end Path

end Stepwise
