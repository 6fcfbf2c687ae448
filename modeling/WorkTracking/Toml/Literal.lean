import WorkTracking.Toml.Item
import WorkTracking.Toml.Moment

/-!
Values written as one bare word: numbers, truth values, dates and times. A word is first cut out of
the text, then read as a whole. Underscores may group the digits of a number.
-/
namespace WorkTracking.Toml.Literal

open Reader

def digitValue (c : Char) : Nat :=
  if c.isDigit then c.toNat - '0'.toNat
  else if c.isLower then c.toNat - 'a'.toNat + 10
  else c.toNat - 'A'.toNat + 10

def numeral (base : Nat) (digits : List Char) : Nat :=
  digits.foldl (fun n c => base * n + digitValue c) 0

def isHexDigit (c : Char) : Bool :=
  c.isDigit || ('a' ≤ c && c ≤ 'f') || ('A' ≤ c && c ≤ 'F')

def isOctalDigit (c : Char) : Bool := '0' ≤ c && c ≤ '7'

def isBinaryDigit (c : Char) : Bool := c = '0' || c = '1'

def isSign (c : Char) : Bool := c = '+' || c = '-'

def unsigned : List Char → List Char
  | c :: cs => if isSign c then cs else c :: cs
  | [] => []

/-- Whether each underscore has a digit on both sides; `before` tells if a digit came first. -/
def isGrouped (isDigit : Char → Bool) (before : Bool) : List Char → Bool
  | [] => true
  | ['_'] => false
  | '_' :: c :: cs => before && isDigit c && isGrouped isDigit true cs
  | c :: cs => isGrouped isDigit (isDigit c) cs

/-- Digits of a number and underscores, with one digit at least. A zero in front is alone, unless
`padded` allows others after it. -/
def digits (padded : Bool) : Reader (List Char) := do
  let found ← run fun c => c.isDigit || c = '_'
  let ds := found.filter Char.isDigit
  if ds = [] ∨ (!padded ∧ found.head? = some '0' ∧ ds ≠ ['0']) then failure else return ds

/-- A decimal number: `digits` as an integer, times ten to the power of `exponent`. -/
structure Decimal where
  digits : List Char
  exponent : Int

/-- From this number on, the nearest of the 64-bit floating-point numbers is infinity. -/
def floatLimit : Nat := 1 <<< 1024 - 1 <<< 970

/-- Whether a number is not below `floatLimit`, which has 309 digits. -/
def Decimal.overflows (d : Decimal) : Bool :=
  let significant := d.digits.dropWhile (· = '0')
  let size := significant.length + d.exponent
  significant ≠ [] && (309 < size || size = 309 &&
    floatLimit ≤ numeral 10 ((significant ++ List.replicate d.exponent.toNat '0').take 309))

/-- The power of ten at the end of a number. -/
def exponent : Reader Int := do
  let _ ← one fun c => c = 'e' || c = 'E'
  let sign ← optional (one isSign)
  let n := Int.ofNat (numeral 10 (← digits true))
  return if sign = some '-' then -n else n

/-- A number without its sign, with a fraction and an exponent or without. -/
def decimal : Reader Decimal := do
  let whole ← digits false
  let fraction ← optional (exactly ['.'] *> digits true)
  let power ← optional exponent
  let places := fraction.getD []
  return { digits := whole ++ places, exponent := power.getD 0 - places.length }

/-- A float that is too large has no value. -/
def float? (word : List Char) : Option Scalar := do
  let d ← wholly decimal (unsigned word)
  if !isGrouped Char.isDigit false (unsigned word) then failure
  else if d.overflows then return .unreadable (String.ofList word)
  else return .float (String.ofList word)

/-- An integer has a value within the signed and the unsigned numbers of two machine words. -/
def integerOf (word : List Char) (n : Int) : Scalar :=
  if -(1 <<< 127 : Nat) ≤ n ∧ n < (1 <<< 128 : Nat) then .integer n
  else .unreadable (String.ofList word)

/-- An integer in base ten, where a zero in front stands alone. Past the first underscore a space is
refused, and the neighbours of other underscores are looked at, but no more; so not all that is
accepted has a value. -/
def integer? (word : List Char) : Option Scalar :=
  let spelled := unsigned word
  if spelled = [] ∨ (spelled.head? = some '0' ∧ spelled ≠ ['0']) ∨ ' ' ∈ spelled ∨
      !isGrouped isHexDigit false spelled then none
  else
    let ds := spelled.filter (· ≠ '_')
    let n := Int.ofNat (numeral 10 ds)
    some (if !ds.all Char.isDigit then .unreadable (String.ofList word)
      else integerOf word (if word.head? = some '-' then -n else n))

/-- An integer in another base, after its mark. No digits at all are accepted, but have no value. -/
def basedInteger? (base : Nat) (isDigit : Char → Bool) (word : List Char) : Option Scalar :=
  let ds := word.drop 2
  if ds.all (fun c => isDigit c || c = '_') && isGrouped isDigit false ds then
    some (if ds = [] then .unreadable (String.ofList word)
      else integerOf word (Int.ofNat (numeral base (ds.filter (· ≠ '_')))))
  else none

/-- What a word can only be is decided by its first characters, and by the first one after its first
digits. -/
def ofWord? (word : List Char) : Option Scalar :=
  match word with
  | ['t', 'r', 'u', 'e'] => some (.boolean true)
  | ['f', 'a', 'l', 's', 'e'] => some (.boolean false)
  | '0' :: 'x' :: _ => basedInteger? 16 isHexDigit word
  | '0' :: 'o' :: _ => basedInteger? 8 isOctalDigit word
  | '0' :: 'b' :: _ => basedInteger? 2 isBinaryDigit word
  | _ =>
    if unsigned word ∈ [['i', 'n', 'f'], ['n', 'a', 'n']] then some (.float (String.ofList word))
    else
      let rest := (unsigned word).dropWhile Char.isDigit
      if rest.head? = some '-' ∨ rest.head? = some ':' then
        if Moment.isMoment word then some (.moment (String.ofList word)) else none
      else if rest.any (fun c => c = '.' || c = 'e' || c = 'E') then float? word
      else if rest = [] ∨ rest.head? = some '_' then integer? word
      else none

/-- A bare word ends at blanks, line ends, comments, brackets and the marks between values. -/
def isWordChar (c : Char) : Bool :=
  !isBlank c && c ∉ ['\n', '#', '[', ']', '\x7b', '\x7d', ',', '=']

/-- Quotation marks and dots do not begin a word that continues another. -/
def isWordStart (c : Char) : Bool := isWordChar c && c ∉ ['.', '"', '\'']

/-- All words at the front of a text with nothing but blanks between them, taken as one; a day and a
time of day are written so. -/
def word : Reader (List Char) := do
  let first ← run isWordChar
  let more ← many do
    let gap ← run1 isBlank
    let start ← one isWordStart
    return gap ++ start :: (← run isWordChar)
  return first ++ more.flatten

def literal : Reader Scalar := do
  match ofWord? (← word) with
  | some s => return s
  | none => failure

end WorkTracking.Toml.Literal
