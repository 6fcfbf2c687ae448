import WorkTracking.Toml.Reader

/-!
Dates and times: a calendar day, a time of day to the minute or finer, a day with a time, and a day
with a time and its distance from universal time.
-/
namespace WorkTracking.Toml.Moment

open Reader

def number (digits : List Char) : Nat :=
  digits.foldl (fun n c => 10 * n + (c.toNat - '0'.toNat)) 0

/-- A number of fixed width, from `low` to `high`. -/
def bounded (width low high : Nat) : Reader Nat := do
  let n := number (← times Char.isDigit width)
  if low ≤ n ∧ n ≤ high then return n else failure

def isLeapYear (year : Nat) : Bool :=
  year % 4 = 0 && (year % 100 ≠ 0 || year % 400 = 0)

def daysInMonth (year month : Nat) : Nat :=
  if month = 2 then (if isLeapYear year then 29 else 28)
  else if month ∈ [4, 6, 9, 11] then 30
  else 31

def day : Reader Unit := do
  let year ← bounded 4 0 9999
  exactly ['-']
  let month ← bounded 2 1 12
  exactly ['-']
  let _ ← bounded 2 1 (daysInMonth year month)

/-- The last minute of a day may have a leap second, and only a second may have a fraction. -/
def time : Reader Unit := do
  let _ ← bounded 2 0 23
  exactly [':']
  let _ ← bounded 2 0 59
  let _ ← optional do
    exactly [':']
    let _ ← bounded 2 0 60
    let _ ← optional (exactly ['.'] *> run1 Char.isDigit)

/-- The distance from universal time. -/
def shift : Reader Unit :=
  (do let _ ← one (fun c => c = 'Z' || c = 'z')) <|> do
    let _ ← one (fun c => c = '+' || c = '-')
    let _ ← bounded 2 0 23
    exactly [':']
    let _ ← bounded 2 0 59

def timeOnDay : Reader Unit := do
  let _ ← one (fun c => c = 'T' || c = 't' || c = ' ')
  time
  let _ ← optional shift

def moment : Reader Unit := (do day; let _ ← optional timeOnDay) <|> time

def isMoment (cs : List Char) : Bool := (wholly moment cs).isSome

end WorkTracking.Toml.Moment
