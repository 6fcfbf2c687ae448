/-!
Documents in TOML 1.1 as nested tables, and the statements that build them. A table may be written
in pieces, but each piece of it in one way only: `Origin` records the way, and the three building
operations give `none` where a statement would define something a second time.
-/
namespace WorkTracking.Toml

/-- Numbers with a fraction or an exponent, and dates and times, are kept as they are spelled. -/
inductive Scalar where
  | integer (n : Int)
  | float (spelling : String)
  /-- The spelling of a number, but of none that can be told: it is too large, or not all digits. A
  document may hold it as long as nobody asks for its value. -/
  | unreadable (spelling : String)
  | boolean (b : Bool)
  | moment (spelling : String)
  | text (s : String)
  deriving DecidableEq, Repr

/-- How a table came to be. -/
inductive Origin where
  /-- passed through by the header of a table inside it -/
  | implied
  /-- written out under its own header -/
  | header
  /-- passed through by a dotted key -/
  | dotted
  /-- written as a value, and complete -/
  | inline
  deriving DecidableEq, Repr

inductive Item where
  | scalar (s : Scalar)
  | list (items : List Item)
  | table (origin : Origin) (entries : List (String × Item))
  /-- Elements written under repeated headers of their own; headers and keys reach the last one. -/
  | tables (elements : List (List (String × Item)))

/-- What an item is, whatever it holds. -/
inductive Kind where
  | integer | float | unreadable | boolean | moment | text | list | table
  deriving DecidableEq, Repr

def Item.kind : Item → Kind
  | .scalar (.integer _) => .integer
  | .scalar (.float _) => .float
  | .scalar (.unreadable _) => .unreadable
  | .scalar (.boolean _) => .boolean
  | .scalar (.moment _) => .moment
  | .scalar (.text _) => .text
  | .list _ | .tables _ => .list
  | .table .. => .table

abbrev Table := List (String × Item)

/-- Any way to make the root table of a document out of its text. There is none if the text is not
well formed. -/
abbrev DocumentReader := String → Option Table

namespace Table

def get? (t : Table) (key : String) : Option Item := t.lookup key

/-- The table with `item` under `key`, in place if the key is there already. -/
def set (t : Table) (key : String) (item : Item) : Table :=
  if (get? t key).isSome then t.map fun e => if e.1 = key then (key, item) else e
  else t ++ [(key, item)]

/-- Adds `item` under a dotted key. Tables that headers have implied are open to it, but belong to
dotted keys from then on; an array of tables stands for its last element, which cannot receive the
item itself. -/
def assign : List String → Item → Table → Option Table
  | [], _, _ => none
  | [key], item, t => if (get? t key).isSome then none else some (set t key item)
  | key :: path, item, t =>
    match get? t key with
    | none => do
      let inner ← assign path item []
      return set t key (.table .dotted inner)
    | some (.table .dotted entries) | some (.table .implied entries) => do
      let inner ← assign path item entries
      return set t key (.table .dotted inner)
    | some (.tables elements) =>
      if path.length = 1 then none
      else do
        let last ← elements.getLast?
        let inner ← assign path item last
        return set t key (.tables (elements.dropLast ++ [inner]))
    | _ => none

/-- Changes the table at the end of a header's path. Missing tables on the way are implied ones,
and an array of tables stands for its last element. -/
def within : List String → (Table → Option Table) → Table → Option Table
  | [], change, t => change t
  | key :: path, change, t =>
    match get? t key with
    | none => do
      let inner ← within path change []
      return set t key (.table .implied inner)
    | some (.table .inline _) => none
    | some (.table origin entries) => do
      let inner ← within path change entries
      return set t key (.table origin inner)
    | some (.tables elements) => do
      let last ← elements.getLast?
      let inner ← within path change last
      return set t key (.tables (elements.dropLast ++ [inner]))
    | _ => none

/-- Opens `key` as the table of a header. -/
def openHeader (key : String) (t : Table) : Option Table :=
  match get? t key with
  | none => some (set t key (.table .header []))
  | some (.table .implied entries) => some (set t key (.table .header entries))
  | _ => none

/-- Opens a new element of the array of tables under `key`. -/
def openElement (key : String) (t : Table) : Option Table :=
  match get? t key with
  | none => some (set t key (.tables [[]]))
  | some (.tables elements) => some (set t key (.tables (elements ++ [[]])))
  | _ => none

end Table

/-- One line of a document, comments and blank lines apart. -/
inductive Statement where
  | entry (path : List String) (item : Item)
  | header (path : List String)
  | element (path : List String)

/-- A document under construction: what stands so far, and the path of the latest header. -/
structure Draft where
  root : Table := []
  here : List String := []

namespace Draft

def extend (d : Draft) : Statement → Option Draft
  | .entry path item => do
    let root ← d.root.within d.here (Table.assign path item)
    return { d with root }
  | .header path => do
    let root ← d.root.within path.dropLast (Table.openHeader (← path.getLast?))
    return { root, here := path }
  | .element path => do
    let root ← d.root.within path.dropLast (Table.openElement (← path.getLast?))
    return { root, here := path }

end Draft

/-- The document that the statements build, in order. -/
def Table.ofStatements? (statements : List Statement) : Option Table :=
  (statements.foldlM Draft.extend {}).map Draft.root

end WorkTracking.Toml
