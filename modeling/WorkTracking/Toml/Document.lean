import WorkTracking.Toml.Quotation

/-!
Documents from their text. A document is well formed if every line of it can be read, and if its
statements, taken in order, define nothing twice; `Document.read?` gives its root table.
-/
namespace WorkTracking.Toml.Document

open Reader Quotation

/-- The text with plain line ends. A carriage return has no other place in a document. -/
def withPlainEnds? : List Char → Option (List Char)
  | [] => some []
  | '\r' :: '\n' :: rest => ('\n' :: ·) <$> withPlainEnds? rest
  | c :: rest => if c = '\r' then none else (c :: ·) <$> withPlainEnds? rest

/-- A byte order mark at the very start does not count. -/
def withoutMark : List Char → List Char
  | '\ufeff' :: rest => rest
  | cs => cs

def blanks : Reader Unit := do let _ ← run isBlank

def comment : Reader Unit := do
  exactly ['#']
  let _ ← run isPlain

/-- Blanks, line ends and comments, as they may stand between the parts of a value in brackets. -/
def filler : Reader Unit := do
  let _ ← many (comment <|> do let _ ← run1 (fun c => isBlank c || isNewline c))

def isKeyChar (c : Char) : Bool := c.isAlphanum || c = '_' || c = '-'

def key : Reader String := String.ofList <$> run1 isKeyChar <|> shortBasic <|> shortPlain

/-- How many parts a key can have, and how deep values can stand inside each other. -/
def deepest : Nat := 80

/-- A key of one or more parts with dots between them. -/
def path : Reader (List String) := do
  let keys ← separated key (blanks *> exactly ['.'] *> blanks)
  if keys.length ≤ deepest then return keys else failure

/-- A key and a value, with what `gap` reads around the sign between them. -/
def assignment (gap : Reader Unit) (value : Reader Item) : Reader (List String × Item) := do
  let keys ← path
  gap *> exactly ['='] *> gap
  let item ← value
  return (keys, item)

/-- Any number of parts with commas between them; one more comma may stand after the last. -/
def parts {α : Type} (part : Reader α) : Reader (List α) :=
  (do let found ← separated (part <* filler) (exactly [','] *> filler)
      let _ ← optional (exactly [','] *> filler)
      return found)
    <|> pure []

def list (value : Reader Item) : Reader Item := do
  exactly ['['] *> filler
  let items ← parts value
  exactly [']']
  return .list items

def inlineTable (value : Reader Item) : Reader Item := do
  exactly ['{'] *> filler
  let assignments ← parts (assignment filler value)
  exactly ['}']
  match assignments.foldlM (fun t (keys, item) => Table.assign keys item t) [] with
  | some entries => return .table .inline entries
  | none => failure

/-- A value in which lists and inline tables stand inside each other at most `depth` deep. -/
def value (depth : Nat) : Reader Item :=
  match depth with
  | 0 => Item.scalar <$> (Scalar.text <$> Quotation.text <|> Literal.literal)
  | depth + 1 =>
    list (value depth) <|> inlineTable (value depth)
      <|> Item.scalar <$> (Scalar.text <$> Quotation.text <|> Literal.literal)

def statement : Reader Statement :=
  (do exactly ['[', '['] *> blanks
      let keys ← path
      blanks *> exactly [']', ']']
      return .element keys)
    <|> (do
      exactly ['['] *> blanks
      let keys ← path
      blanks *> exactly [']']
      return .header keys)
    <|> do
      let (keys, item) ← assignment blanks (value deepest)
      return .entry keys item

/-- One line with its end. It may hold a statement, and a comment. -/
def line : Reader (Option Statement) := do
  blanks
  let s ← optional statement
  blanks
  let _ ← optional comment
  let _ ← one isNewline
  return s

/-- The statements of a text. The end of the text ends its last line. -/
def statements? (cs : List Char) : Option (List Statement) := do
  let lines ← wholly (many line) ((← withPlainEnds? (withoutMark cs)) ++ ['\n'])
  return lines.filterMap id

/-- The root table of a well-formed document. -/
def read? (s : String) : Option Table := do
  Table.ofStatements? (← statements? s.toList)

end WorkTracking.Toml.Document
