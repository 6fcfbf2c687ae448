import WorkTracking.Toml.Literal

/-!
Quoted texts, in four forms: between double quotes with escapes or between single quotes without,
each on one line or over several lines between triple quotes.
-/
namespace WorkTracking.Toml.Quotation

open Reader

/-- No control character but the tab stands as itself in a quoted text or in a comment. -/
def isPlain (c : Char) : Bool := c = '\t' || 0x20 ≤ c.toNat && c.toNat ≠ 0x7f

/-- A character by its code point, in a fixed number of hexadecimal digits. -/
def codePoint (width : Nat) : Reader Char := do
  let n := Literal.numeral 16 (← times Literal.isHexDigit width)
  if n.isValidChar then return Char.ofNat n else failure

def escapedChar : Reader Char := do
  exactly ['\\']
  match ← one (fun _ => true) with
  | 'b' => return '\x08'
  | 't' => return '\t'
  | 'n' => return '\n'
  | 'f' => return '\x0c'
  | 'r' => return '\r'
  | 'e' => return '\x1b'
  | '"' => return '"'
  | '\\' => return '\\'
  | 'x' => codePoint 2
  | 'u' => codePoint 4
  | 'U' => codePoint 8
  | _ => failure

/-- A backslash at the end of a line takes away the line's end and all blanks and line ends after
it. -/
def foldedLine : Reader (List Char) := do
  exactly ['\\']
  let _ ← run isBlank
  let _ ← one isNewline
  let _ ← run (fun c => isBlank c || isNewline c)
  return []

def short (q : Char) (piece : Reader (List Char)) : Reader String := do
  exactly [q]
  let pieces ← many piece
  exactly [q]
  return String.ofList pieces.flatten

/-- One or two quotation marks do not end a long text. -/
def innerQuotes (q : Char) : Reader (List Char) := do
  let marks ← run (· = q)
  if marks.length = 1 ∨ marks.length = 2 then return marks else failure

/-- Three quotation marks end a long text; up to two before them still belong to it. -/
def finalQuotes (q : Char) : Reader (List Char) := do
  let marks ← run (· = q)
  if 3 ≤ marks.length ∧ marks.length ≤ 5 then return marks.drop 3 else failure

/-- A line end right after the opening marks is no part of the text. -/
def long (q : Char) (piece : Reader (List Char)) : Reader String := do
  exactly [q, q, q]
  let _ ← optional (one isNewline)
  let pieces ← many (piece <|> innerQuotes q)
  let last ← finalQuotes q
  return String.ofList (pieces.flatten ++ last)

def shortBasic : Reader String :=
  short '"' (([·]) <$> (escapedChar <|> one fun c => isPlain c && c ≠ '"' && c ≠ '\\'))

def shortPlain : Reader String :=
  short '\'' (([·]) <$> one fun c => isPlain c && c ≠ '\'')

def longBasic : Reader String :=
  long '"' (foldedLine <|> ([·]) <$>
    (escapedChar <|> one fun c => (isPlain c || isNewline c) && c ≠ '"' && c ≠ '\\'))

def longPlain : Reader String :=
  long '\'' (([·]) <$> one fun c => (isPlain c || isNewline c) && c ≠ '\'')

def text : Reader String := longBasic <|> shortBasic <|> longPlain <|> shortPlain

end WorkTracking.Toml.Quotation
