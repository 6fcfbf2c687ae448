import WorkTracking.Text.Printed

/-!
The values that sets, maps and ledgers hold: integers and texts, never equal to each other.
`Rendered` gives a type its two printed forms, and `Shown` the value it is listed under.
-/
namespace WorkTracking

inductive Value where
  | integer (n : Int)
  | text (s : String)
  deriving DecidableEq, Hashable, Inhabited

/-- `plain` is the form for readers, `quoted` the one that tells values apart. -/
class Rendered (α : Type) where
  plain : α → String
  quoted : α → String

/-- The value that stands for something in a list. -/
class Shown (α : Type) where
  shown : α → Value

namespace Value

instance : Shown Value := ⟨id⟩

instance : Rendered Value where
  plain
    | integer n => toString n
    | text s => s
  quoted
    | integer n => toString n
    | text s => Text.quote s

/-- Integers by size, before texts by code point. -/
def precedes : Value → Value → Bool
  | integer m, integer n => m ≤ n
  | integer _, text _ => true
  | text _, integer _ => false
  | text s, text t => s ≤ t

/-- In the order of the values that are shown. -/
def sorted {α : Type} (key : α → Value) (l : List α) : List α :=
  l.mergeSort fun a b => (key a).precedes (key b)

end Value

end WorkTracking
