import LineageSearch.Json.Basic

/-!
# Writing JSON

A document is written on one line, or spread out with two blanks of indentation for each
level.  Empty arrays and objects stay on their line in both forms.

Strings escape the quote, the backslash and the control characters below the blank; the
common ones of those have a letter, and the others four hexadecimal digits.  A string
that denotes no text is written empty.
-/

namespace LineageSearch.Json

/-- A hexadecimal digit. -/
def hexDigit (n : Nat) : Char := Char.ofNat (if n < 10 then 48 + n else 87 + n)

def escape (c : Char) : Text :=
  if c = '"' then ['\\', '"']
  else if c = '\\' then ['\\', '\\']
  else if c = '\x08' then ['\\', 'b']
  else if c = '\t' then ['\\', 't']
  else if c = '\n' then ['\\', 'n']
  else if c = '\x0c' then ['\\', 'f']
  else if c = '\r' then ['\\', 'r']
  else if c.toNat < 0x20 then
    ['\\', 'u', '0', '0', hexDigit (c.toNat / 16), hexDigit (c.toNat % 16)]
  else [c]

def quote (text : Text) : Text := '"' :: text.flatMap escape ++ ['"']

/-- How a document is spread out: what begins a line at a depth, and what follows a
name. -/
structure Layout where
  newline : Nat → Text
  afterName : Text

def Layout.oneLine : Layout := ⟨fun _ => [], [':']⟩

/-- Each part on a line of its own, with two blanks for each level. -/
def Layout.spread : Layout := ⟨fun depth => '\n' :: List.replicate (2 * depth) ' ', [':', ' ']⟩

mutual

def write (layout : Layout) (depth : Nat) : Json → Text
  | null => "null".toList
  | bool true => "true".toList
  | bool false => "false".toList
  | number value => value.toText
  | string value => quote (value.getD [])
  | array [] => "[]".toList
  | array (item :: items) =>
    '[' :: layout.newline (depth + 1) ++ write layout (depth + 1) item
      ++ writeItems layout (depth + 1) items ++ layout.newline depth ++ [']']
  | object [] => ['\x7b', '\x7d']
  | object ((name, value) :: fields) =>
    '\x7b' :: layout.newline (depth + 1) ++ quote (name.getD []) ++ layout.afterName
      ++ write layout (depth + 1) value ++ writeFields layout (depth + 1) fields
      ++ layout.newline depth ++ ['\x7d']

def writeItems (layout : Layout) (depth : Nat) : List Json → Text
  | [] => []
  | item :: items =>
    ',' :: layout.newline depth ++ write layout depth item ++ writeItems layout depth items

def writeFields (layout : Layout) (depth : Nat) : List (Option Text × Json) → Text
  | [] => []
  | (name, value) :: fields =>
    ',' :: layout.newline depth ++ quote (name.getD []) ++ layout.afterName
      ++ write layout depth value ++ writeFields layout depth fields

end

def compact (document : Json) : Text := write .oneLine 0 document

def pretty (document : Json) : Text := write .spread 0 document

end LineageSearch.Json
