import WorkTracking.Text.CharTable

/-!
Printed forms: which characters can stand as themselves in a quoted text, texts in double quotes,
and compound values, whose parts are separated by a comma and a space.
-/
namespace WorkTracking.Text

/-! ### Printable characters -/

/-- Controls, formats, private use, and every separator. -/
def unseen : CharTable := [
  (0x0, 0x20), (0x7f, 0xa0), (0xad, 0xad), (0x600, 0x605), (0x61c, 0x61c), (0x6dd, 0x6dd),
  (0x70f, 0x70f), (0x890, 0x891), (0x8e2, 0x8e2), (0x1680, 0x1680), (0x180e, 0x180e),
  (0x2000, 0x200f), (0x2028, 0x202f), (0x205f, 0x2064), (0x2066, 0x206f), (0x3000, 0x3000),
  (0xe000, 0xf8ff), (0xfeff, 0xfeff), (0xfff9, 0xfffb), (0x110bd, 0x110bd), (0x110cd, 0x110cd),
  (0x13430, 0x1343f), (0x1bca0, 0x1bca3), (0x1d173, 0x1d17a), (0xe0001, 0xe0001),
  (0xe0020, 0xe007f), (0xf0000, 0xffffd), (0x100000, 0x10fffd)]

/-- The fillers of the Korean alphabet: letters, but blank ones. -/
def blankLetters : CharTable := [
  (0x115f, 0x1160), (0x3164, 0x3164), (0xffa0, 0xffa0)]

/-- A printable character has a shape of its own. The printable part of ASCII, with the plain space,
is decided first. -/
def isPrintable (c : Char) : Bool :=
  if 0x20 ≤ c.toNat ∧ c.toNat < 0x7f then true
  else !unseen.contains c && !blankLetters.contains c && !extendingMarks.contains c &&
    !unassigned.contains c

/-! ### Quotations

A quotation mark, a backslash and four controls have short escapes; every other character that is
not printable is spelled by its code point. -/

/-- The code point in lower-case hexadecimal, without leading zeros, in `\u` and braces. -/
def codePointEscape (c : Char) : List Char :=
  ['\\', 'u', '{'] ++ Nat.toDigits 16 c.toNat ++ ['}']

/-- How one character is written between double quotes. -/
def quotedChar (c : Char) : List Char :=
  if c = '"' then ['\\', '"']
  else if c = '\\' then ['\\', '\\']
  else if c = '\n' then ['\\', 'n']
  else if c = '\r' then ['\\', 'r']
  else if c = '\t' then ['\\', 't']
  else if c = '\x00' then ['\\', '0']
  else if isPrintable c then [c]
  else codePointEscape c

/-- The text in double quotes, with every character that needs it escaped. -/
def quote (s : String) : String :=
  String.ofList ('"' :: s.toList.flatMap quotedChar ++ ['"'])

/-! ### Compound values -/

def commaSeparated (parts : List String) : String := String.intercalate ", " parts

/-- Square brackets around the parts. -/
def bracketed (parts : List String) : String := "[" ++ commaSeparated parts ++ "]"

/-- Braces around the parts, with nothing between them when there are none. -/
def braced (parts : List String) : String := "\x7b" ++ commaSeparated parts ++ "\x7d"

def pairText (entry : String × String) : String := entry.1 ++ ": " ++ entry.2

/-- Braces around `key: value` pairs. -/
def mapping (entries : List (String × String)) : String := braced (entries.map pairText)

/-- A name, then its fields in braces, set off by spaces. -/
def record (name : String) (fields : List (String × String)) : String :=
  name ++ " \x7b " ++ commaSeparated (fields.map pairText) ++ " \x7d"

/-- A record some of whose fields are left out: two dots stand for them. -/
def openRecord (name : String) (fields : List (String × String)) : String :=
  name ++ " \x7b " ++ commaSeparated (fields.map pairText ++ [".."]) ++ " \x7d"

end WorkTracking.Text
