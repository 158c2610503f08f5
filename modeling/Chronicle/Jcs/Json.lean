import Chronicle.Library.Binary64
import Chronicle.Library.LastWins
import Chronicle.Library.Utf16

/-!
# Canonical JSON

A JSON value tree and its canonical form: the members of every object are sorted by the UTF-16 code
units of their keys, the last of duplicate keys stands for all, and texts and numbers are written in
one way each. How a finite number is written is a parameter.
-/

namespace Chronicle.Jcs

open Chronicle.Library Chronicle.Library.Bytes Chronicle.Library.LastWins Chronicle.Library.Utf16

/-- A byte string. -/
abbrev Bytes := List UInt8

/-- A JSON value tree. The members of an object are in the order they are serialized in, and a key
may come more than once. -/
inductive Json where
  | null
  | bool (value : Bool)
  | unsigned (value : UInt64)
  | signed (value : Int64)
  | float (value : Binary64)
  | string (value : String)
  | array (elements : List Json)
  | object (members : List (String × Json))

/-- A character inside a canonical text: the two-character escapes, the escapes of the other control
characters, and everything else as it is. -/
def canonicalChar (c : Char) : List Char :=
  if c = '"' then ['\\', '"']
  else if c = '\\' then ['\\', '\\']
  else if c.toNat = 8 then ['\\', 'b']
  else if c.toNat = 9 then ['\\', 't']
  else if c.toNat = 10 then ['\\', 'n']
  else if c.toNat = 12 then ['\\', 'f']
  else if c.toNat = 13 then ['\\', 'r']
  else if c.toNat < 32 then
    ['\\', 'u', '0', '0', hexDigit (c.toNat / 16), hexDigit (c.toNat % 16)]
  else [c]

/-- The characters of a canonical text, quotes included. -/
def quoted (text : String) : List Char := '"' :: (text.toList.flatMap canonicalChar ++ ['"'])

/-- A canonical text. -/
def canonicalString (text : String) : Bytes := (quoted text).flatMap String.utf8EncodeChar

/-- The brace that begins an object. -/
def openBrace : Bytes := utf8 "\x7b"

/-- The brace that ends an object. -/
def closeBrace : Bytes := utf8 "\x7d"

/-- Parts with commas between them. -/
def commaSeparated : List Bytes → Bytes
  | [] => []
  | [part] => part
  | part :: next :: rest => part ++ utf8 "," ++ commaSeparated (next :: rest)

/-- A member of a canonical object, given the canonical form of its value. -/
def canonicalMember (member : String × Bytes) : Bytes :=
  canonicalString member.1 ++ utf8 ":" ++ member.2

/-- The last of each key's members, by the code units of their keys. -/
def sortedMembers (members : List (String × Bytes)) :
    List (String × Bytes) :=
  StableSort.sortByKey (fun member => utf16 member.1) (lastWins Prod.fst members)

/-- A canonical object, given the canonical forms of its members' values. -/
def canonicalObject (members : List (String × Bytes)) : Bytes :=
  openBrace ++ commaSeparated ((sortedMembers members).map canonicalMember) ++ closeBrace

section Canonical

variable (formatFinite : Binary64 → Bytes)

mutual

/-- The canonical form of a value. -/
def canonical : Json → Bytes
  | .null => utf8 "null"
  | .bool value => utf8 (if value then "true" else "false")
  | .unsigned value => formatFinite (.ofInt value.toNat)
  | .signed value => formatFinite (.ofInt value.toInt)
  | .float value => if value.isFinite then formatFinite value else utf8 "null"
  | .string value => canonicalString value
  | .array elements => utf8 "[" ++ commaSeparated (canonicalElements elements) ++ utf8 "]"
  | .object members => canonicalObject (canonicalMembers members)

/-- The canonical forms of the elements of an array. -/
def canonicalElements : List Json → List Bytes
  | [] => []
  | element :: rest => canonical element :: canonicalElements rest

/-- The members of an object with the canonical forms of their values. -/
def canonicalMembers : List (String × Json) → List (String × Bytes)
  | [] => []
  | (key, value) :: rest => (key, canonical value) :: canonicalMembers rest

end

theorem canonicalMembers_eq_map (members : List (String × Json)) :
    canonicalMembers formatFinite members =
      members.map fun member => (member.1, canonical formatFinite member.2) := by
  induction members with
  | nil => rfl
  | cons member rest ih => rw [canonicalMembers, ih, List.map_cons]

end Canonical

end Chronicle.Jcs
