import LineageSearch.Text.Digits

/-!
# Texts and keys in TOML

A text stands in double quotes, where a backslash begins an escape, or in single quotes,
where nothing does.  Three quotes open a text over several lines: a line break right
behind them is dropped, a backslash at the end of a line takes the blanks and line breaks
behind it away, and up to two quotes may stand before the closing ones.

Every reader returns what it read and the rest of the document, or nothing if the document
is wrong there.
-/

namespace LineageSearch.Toml

/-- Whether a character stands between the parts of a line. -/
def isSpace (c : Char) : Bool := c == ' ' || c == '\t'

/-- The text from its first character that is not a space. -/
def skipSpaces (t : Text) : Text := t.dropWhile isSpace

/-- Whether a character may stand in a line: tabs are the only control characters. -/
def isLineChar (c : Char) : Bool := c == '\t' || (0x20 ≤ c.toNat && c.toNat != 0x7F)

/-- What follows a line break at the beginning of a text. -/
def lineBreak? : Text → Option Text
  | '\n' :: rest => some rest
  | '\r' :: '\n' :: rest => some rest
  | _ => none

/-- The character whose code is the next `digits` hexadecimal digits. -/
def codeEscape? (digits : Nat) (t : Text) : Option (Char × Text) := do
  let row := t.take digits
  if row.length < digits then none
  else
    let code ← row.foldlM (fun value c => (Text.hexValue? c).map (16 * value + ·)) 0
    if h : code.isValidChar then some (Char.ofNatAux code h, t.drop digits) else none

/-- The character that an escape stands for, read behind its backslash. -/
def escape? : Text → Option (Char × Text)
  | 'b' :: rest => some ('\x08', rest)
  | 't' :: rest => some ('\t', rest)
  | 'n' :: rest => some ('\n', rest)
  | 'f' :: rest => some ('\x0c', rest)
  | 'r' :: rest => some ('\r', rest)
  | 'e' :: rest => some ('\x1b', rest)
  | '"' :: rest => some ('"', rest)
  | '\\' :: rest => some ('\\', rest)
  | 'x' :: rest => codeEscape? 2 rest
  | 'u' :: rest => codeEscape? 4 rest
  | 'U' :: rest => codeEscape? 8 rest
  | _ => none

/-- A text on one line up to its closing quote.  What has been read is held in reverse. -/
def lineText? (quote : Char) : Nat → Text → Text → Option (Text × Text)
  | 0, _, _ => none
  | _ + 1, _, [] => none
  | fuel + 1, read, c :: rest =>
    if c = quote then some (read.reverse, rest)
    else if c = '\\' && quote == '"' then
      (escape? rest).bind fun (meant, behind) => lineText? quote fuel (meant :: read) behind
    else if isLineChar c then lineText? quote fuel (c :: read) rest
    else none

/-- The text from its first character that neither is a space nor breaks a line. -/
def skipBreaks : Text → Text
  | [] => []
  | '\r' :: '\n' :: rest => skipBreaks rest
  | c :: rest => if isSpace c || c == '\n' then skipBreaks rest else c :: rest

/-- What follows a backslash at the end of a line: spaces, a line break, and then any
number of both. -/
def continued? (t : Text) : Option Text := (lineBreak? (skipSpaces t)).map skipBreaks

/-- A text over several lines up to its three closing quotes.  Line breaks stay as they are
written, and a carriage return stands only before a line feed. -/
def blockText? (quote : Char) : Nat → Text → Text → Option (Text × Text)
  | 0, _, _ => none
  | _ + 1, _, [] => none
  | fuel + 1, read, c :: rest =>
    if c = quote then
      let quotes := 1 + (rest.takeWhile (· == quote)).length
      if quotes < 3 then blockText? quote fuel (c :: read) rest
      else if quotes ≤ 5 then
        some (read.reverse ++ List.replicate (quotes - 3) quote, rest.drop (quotes - 1))
      else none
    else if c = '\\' && quote == '"' then
      match continued? rest with
      | some behind => blockText? quote fuel read behind
      | none =>
        (escape? rest).bind fun (meant, behind) => blockText? quote fuel (meant :: read) behind
    else if isLineChar c || (lineBreak? (c :: rest)).isSome then
      blockText? quote fuel (c :: read) rest
    else none

def quoted? (t : Text) : Option (Text × Text) :=
  match t with
  | '"' :: '"' :: '"' :: rest => block '"' rest
  | '\'' :: '\'' :: '\'' :: rest => block '\'' rest
  | '"' :: rest => lineText? '"' t.length [] rest
  | '\'' :: rest => lineText? '\'' t.length [] rest
  | _ => none
where
  /-- A text over several lines without the line break right behind its quotes. -/
  block (quote : Char) (rest : Text) : Option (Text × Text) :=
    blockText? quote (rest.length + 1) [] ((lineBreak? rest).getD rest)

/-- Whether a character may stand in a key without quotes. -/
def isKeyChar (c : Char) : Bool := c.isAlphanum || c == '_' || c == '-'

/-- One part of a key: a row of letters and digits, or a text in quotes on one line. -/
def simpleKey? (t : Text) : Option (Text × Text) :=
  match t with
  | '"' :: rest => lineText? '"' t.length [] rest
  | '\'' :: rest => lineText? '\'' t.length [] rest
  | _ =>
    let key := t.takeWhile isKeyChar
    if key.isEmpty then none else some (key, t.drop key.length)

/-- The parts of a key with points between them, which spaces may surround. -/
def keyParts? : Nat → Text → Option (List Text × Text)
  | 0, _ => none
  | fuel + 1, t => do
    let (part, behind) ← simpleKey? (skipSpaces t)
    match skipSpaces behind with
    | '.' :: rest =>
      let (parts, left) ← keyParts? fuel rest
      return (part :: parts, left)
    | left => return ([part], left)

/-- How many parts a key may have, and how many arrays and tables a value may stand in. -/
def depthLimit : Nat := 80

/-- A key at the beginning of a text.  There is always a first part. -/
def key? (t : Text) : Option (List Text × Text) :=
  (keyParts? (t.length + 1) t).filter (·.1.length ≤ depthLimit)

end LineageSearch.Toml
