/-!
Readers consume a list of characters from its front, or give up. `Reader.many` repeats a reader
while it succeeds and consumes something, so every reader built here ends.
-/
namespace WorkTracking.Toml

abbrev Reader := StateT (List Char) Option

def isBlank (c : Char) : Bool := c = ' ' || c = '\t'

def isNewline (c : Char) : Bool := c = '\n'

namespace Reader

variable {α β : Type}

/-- One character of a class. -/
def one (p : Char → Bool) : Reader Char
  | c :: rest => if p c then some (c, rest) else none
  | [] => none

/-- Exactly the given text. -/
def exactly (t : List Char) : Reader Unit := fun cs =>
  if t.isPrefixOf cs then some ((), cs.drop t.length) else none

/-- The longest run of characters of a class, possibly empty. -/
def run (p : Char → Bool) : Reader (List Char) := fun cs =>
  some (cs.takeWhile p, cs.dropWhile p)

/-- The longest run of characters of a class, at least one. -/
def run1 (p : Char → Bool) : Reader (List Char) := do
  let first ← one p
  let rest ← run p
  return first :: rest

/-- A fixed number of characters of a class. -/
def times (p : Char → Bool) : Nat → Reader (List Char)
  | 0 => pure []
  | n + 1 => do
    let first ← one p
    let rest ← times p n
    return first :: rest

/-- What `p` reads again and again, and what it leaves. -/
def repeated (p : Reader α) (cs : List Char) : List α × List Char :=
  match p cs with
  | some (a, rest) =>
    if rest.length < cs.length then
      let (more, left) := repeated p rest
      (a :: more, left)
    else ([], cs)
  | none => ([], cs)
termination_by cs.length

def many (p : Reader α) : Reader (List α) := fun cs => some (repeated p cs)

/-- At least one reading of `p`, with `separator` between two. -/
def separated (p : Reader α) (separator : Reader β) : Reader (List α) := do
  let first ← p
  let rest ← many (separator *> p)
  return first :: rest

/-- The reading of a whole text, if nothing is left of it. -/
def wholly (p : Reader α) (cs : List Char) : Option α :=
  match p cs with
  | some (a, []) => some a
  | _ => none

end Reader

end WorkTracking.Toml
