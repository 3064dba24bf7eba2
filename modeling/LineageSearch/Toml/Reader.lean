import LineageSearch.Toml.Scalar

/-!
# The lines of a TOML document

A document is a list of statements: the header of a table, the header of one more table
in an array of tables, or a key with its value.  Inside the brackets of an array and the
braces of a table, keys and values go over as many lines as they like, with comments between
them; only the parts of one key stay on one line.

Every reader returns what it read and the rest of the document; `fuel` bounds the number
of steps, of which no document takes more than it has characters.
-/

namespace LineageSearch.Toml

/-- A value as it is written: keys inside braces are not yet put together. -/
inductive Value where
  | scalar (value : Setting)
  | array (items : List Value)
  | inlineTable (fields : List (List Text × Value))
deriving Repr

/-- A statement of a document. -/
inductive Statement where
  | header (path : List Text)
  | arrayHeader (path : List Text)
  | assign (path : List Text) (value : Value)
deriving Repr

/-- What follows a comment, if one begins the text; the line break stays. -/
def skipComment? : Text → Option Text
  | '#' :: rest =>
    let behind := rest.dropWhile isLineChar
    if behind.isEmpty || (lineBreak? behind).isSome then some behind else none
  | t => some t

/-- What follows spaces, comments and line breaks. -/
def skipLines? : Nat → Text → Option Text
  | 0, _ => none
  | fuel + 1, t => do
    let behind ← skipComment? (skipSpaces t)
    match lineBreak? behind with
    | some rest => skipLines? fuel rest
    | none => some behind

mutual

/-- A value at the beginning of a text, inside `depth` arrays and tables. -/
def value? (depth : Nat) : Nat → Text → Option (Value × Text)
  | 0, _ => none
  | fuel + 1, t =>
    match t with
    | '[' :: rest =>
      if depth < depthLimit then
        (items? (depth + 1) fuel rest).map fun (items, behind) => (.array items, behind)
      else none
    | '\x7b' :: rest =>
      if depth < depthLimit then
        (fields? (depth + 1) fuel rest).map fun (fields, behind) => (.inlineTable fields, behind)
      else none
    | '"' :: _ => (quoted? t).map fun (text, behind) => (.scalar (.text text), behind)
    | '\'' :: _ => (quoted? t).map fun (text, behind) => (.scalar (.text text), behind)
    | _ => (bare? t).map fun (value, behind) => (.scalar value, behind)

/-- The items of an array up to its closing bracket. -/
def items? (depth : Nat) : Nat → Text → Option (List Value × Text)
  | 0, _ => none
  | fuel + 1, t => do
    match ← skipLines? (t.length + 1) t with
    | ']' :: rest => some ([], rest)
    | start =>
      let (item, behind) ← value? depth fuel start
      match ← skipLines? (behind.length + 1) behind with
      | ',' :: rest =>
        let (items, left) ← items? depth fuel rest
        return (item :: items, left)
      | ']' :: rest => some ([item], rest)
      | _ => none

/-- The fields of a table in braces up to the closing one. -/
def fields? (depth : Nat) : Nat → Text → Option (List (List Text × Value) × Text)
  | 0, _ => none
  | fuel + 1, t => do
    match ← skipLines? (t.length + 1) t with
    | '\x7d' :: rest => some ([], rest)
    | start =>
      let (path, behindKey) ← key? start
      let '=' :: valueOn := (← skipLines? (behindKey.length + 1) behindKey) | none
      let (value, behind) ← value? depth fuel (← skipLines? (valueOn.length + 1) valueOn)
      match ← skipLines? (behind.length + 1) behind with
      | ',' :: rest =>
        let (fields, left) ← fields? depth fuel rest
        return ((path, value) :: fields, left)
      | '\x7d' :: rest => some ([(path, value)], rest)
      | _ => none

end

def statement? (t : Text) : Option (Statement × Text) :=
  match t with
  | '[' :: '[' :: rest =>
    match key? rest with
    | some (path, ']' :: ']' :: behind) => some (.arrayHeader path, behind)
    | _ => none
  | '[' :: rest =>
    match key? rest with
    | some (path, ']' :: behind) => some (.header path, behind)
    | _ => none
  | _ => do
    let (path, behindKey) ← key? t
    let '=' :: valueOn := behindKey | none
    let (value, behind) ← value? 0 (valueOn.length + 1) (skipSpaces valueOn)
    return (.assign path value, behind)

/-- The statements of a text, each on its own line. -/
def statements? : Nat → Text → Option (List Statement)
  | 0, _ => none
  | fuel + 1, t => do
    match ← skipLines? (t.length + 1) t with
    | [] => some []
    | start =>
      let (statement, behind) ← statement? start
      let left ← skipComment? (skipSpaces behind)
      if left.isEmpty then some [statement]
      else
        let rest ← lineBreak? left
        return statement :: (← statements? fuel rest)

end LineageSearch.Toml
