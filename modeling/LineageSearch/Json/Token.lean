import LineageSearch.Json.Basic

/-!
# JSON tokens

A document is first cut into tokens, one character after the other.  Numbers and the
words `null`, `true` and `false` are longest rows of letters, digits and signs: no two of
them stand side by side in a document, so nothing is lost by taking the longest row.
-/

namespace LineageSearch

/-- A token of a JSON document; a scalar is a whole value. -/
inductive JsonToken where
  | openArray
  | closeArray
  | openObject
  | closeObject
  | comma
  | colon
  | scalar (value : Json)
deriving Repr

namespace JsonToken

/-- Whether a number is the first half of a surrogate pair. -/
def isHighSurrogate (unit : Nat) : Bool := 0xD800 ≤ unit && unit ≤ 0xDBFF

/-- Whether a number is the second half of a surrogate pair. -/
def isLowSurrogate (unit : Nat) : Bool := 0xDC00 ≤ unit && unit ≤ 0xDFFF

/-- The text that code points and halves of surrogate pairs spell; every first half must be
followed by a second one, and no second one may stand alone. -/
def textOfUnits? : List Nat → Option Text
  | [] => some []
  | [unit] =>
    if isHighSurrogate unit || isLowSurrogate unit then none else some [Char.ofNat unit]
  | unit :: next :: rest =>
    if isHighSurrogate unit then
      if isLowSurrogate next then
        (textOfUnits? rest).map
          (Char.ofNat (0x10000 + (unit - 0xD800) * 0x400 + (next - 0xDC00)) :: ·)
      else none
    else if isLowSurrogate unit then none
    else (textOfUnits? (next :: rest)).map (Char.ofNat unit :: ·)

/-- The character that a letter stands for behind a backslash. -/
def escaped? : Char → Option Char
  | '"' => some '"'
  | '\\' => some '\\'
  | '/' => some '/'
  | 'b' => some '\x08'
  | 'f' => some '\x0c'
  | 'n' => some '\n'
  | 'r' => some '\r'
  | 't' => some '\t'
  | _ => none

/-- Whether a character belongs to a number or a word. -/
def isWordChar (c : Char) : Bool := c.isAlphanum || c == '-' || c == '+' || c == '.'

def ofWord? (word : Text) : Option JsonToken :=
  if word = "null".toList then some (scalar .null)
  else if word = "true".toList then some (scalar (.bool true))
  else if word = "false".toList then some (scalar (.bool false))
  else (JsonNumber.ofText? word).map fun number => scalar (.number number)

def ofMark? : Char → Option JsonToken
  | '[' => some openArray
  | ']' => some closeArray
  | '\x7b' => some openObject
  | '\x7d' => some closeObject
  | ',' => some comma
  | ':' => some colon
  | _ => none

/-- Where in a document the reading stands.  What has been read of a word or a string is
held in reverse; `hex` waits for further digits of a code that has a value so far. -/
inductive Scan where
  | between
  | word (letters : Text)
  | string (units : List Nat)
  | escape (units : List Nat)
  | hex (units : List Nat) (digits : Nat) (value : Nat)
deriving Repr

/-- Reads a character between tokens. -/
def scanBetween (tokens : List JsonToken) (c : Char) : Option (Scan × List JsonToken) :=
  if c = ' ' || c = '\t' || c = '\n' || c = '\r' then some (.between, tokens)
  else if c = '"' then some (.string [], tokens)
  else if isWordChar c then some (.word [c], tokens)
  else (ofMark? c).map fun token => (.between, token :: tokens)

/-- Reads a character; the tokens read so far are held in reverse. -/
def scanChar (state : Scan × List JsonToken) (c : Char) : Option (Scan × List JsonToken) :=
  match state with
  | (.between, tokens) => scanBetween tokens c
  | (.word letters, tokens) =>
    if isWordChar c then some (.word (c :: letters), tokens)
    -- the character that ends a word is read again, as the first one behind it
    else (ofWord? letters.reverse).bind fun token => scanBetween (token :: tokens) c
  | (.string units, tokens) =>
    if c = '"' then
      some (.between, scalar (.string (textOfUnits? units.reverse)) :: tokens)
    else if c = '\\' then some (.escape units, tokens)
    else if c.toNat < 0x20 then none
    else some (.string (c.toNat :: units), tokens)
  | (.escape units, tokens) =>
    if c = 'u' then some (.hex units 4 0, tokens)
    else (escaped? c).map fun meant => (.string (meant.toNat :: units), tokens)
  | (.hex units digits value, tokens) =>
    (Text.hexValue? c).map fun digit =>
      let read := 16 * value + digit
      if digits ≤ 1 then (.string (read :: units), tokens)
      else (.hex units (digits - 1) read, tokens)

def scan? (document : Text) : Option (List JsonToken) :=
  match document.foldlM scanChar (.between, []) with
  | some (.between, tokens) => some tokens.reverse
  | some (.word letters, tokens) =>
    (ofWord? letters.reverse).map fun token => (token :: tokens).reverse
  | _ => none

end JsonToken

end LineageSearch
