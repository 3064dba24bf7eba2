import LineageSearch.Text.Blank
import LineageSearch.Text.Fold
import LineageSearch.Text.Utf8

/-!
# Keyword patterns

A pattern looks for any of a list of equivalent keywords in a text, whatever their case.
It comes in three kinds:

* a *portion* asks that a keyword leads the text and that something follows it.  Longer
  keywords are tried first, so `born` never hides `born before`; a keyword that leaves
  nothing but blanks behind it gives way to a shorter one.
* a *single* asks that the whole text is a keyword.
* a *none* asks that no keyword occurs anywhere in the text.

Empty keywords are disregarded: without any other, the first two kinds match nothing and
the last matches everything.
-/

namespace LineageSearch

/-- What a pattern asks of a text. -/
inductive PatternKind where
  | portion
  | single
  | none
deriving Repr, DecidableEq

/-- The keywords of a pattern, none of them empty, longest first. -/
structure Pattern where
  kind : PatternKind
  keywords : List Text
deriving Repr, DecidableEq

/-- How a text falls apart where a pattern matches: the keyword as written, the blanks
behind it, and the rest. -/
structure Found where
  keyword : Text
  gap : Text
  rest : Text
deriving Repr, DecidableEq

/-- How many bytes of the text the keyword and the blanks behind it take. -/
def Found.consumed (found : Found) : Nat := Text.byteLength (found.keyword ++ found.gap)

/-- Puts a keyword in front of the first one that is not longer. -/
def insertLongest (keyword : Text) : List Text → List Text
  | [] => [keyword]
  | first :: rest =>
    if first.length ≤ keyword.length then keyword :: first :: rest
    else first :: insertLongest keyword rest

/-- The keywords by falling length; equally long ones keep their order. -/
def longestFirst : List Text → List Text
  | [] => []
  | keyword :: rest => insertLongest keyword (longestFirst rest)

theorem mem_insertLongest {keyword other : Text} {keywords : List Text} :
    other ∈ insertLongest keyword keywords ↔ other = keyword ∨ other ∈ keywords := by
  induction keywords with
  | nil => simp [insertLongest]
  | cons first rest ih =>
    rw [insertLongest]
    split
    · simp
    · simp only [List.mem_cons, ih]
      exact or_left_comm

@[simp] theorem mem_longestFirst {other : Text} {keywords : List Text} :
    other ∈ longestFirst keywords ↔ other ∈ keywords := by
  induction keywords with
  | nil => simp [longestFirst]
  | cons first rest ih => simp [longestFirst, mem_insertLongest, ih]

/-- The leading piece of a text that is a keyword up to case, with what follows it.  There
is none if only blanks follow. -/
def leadingKeyword? (text keyword : Text) : Option Found :=
  let piece := text.take keyword.length
  let behind := text.drop keyword.length
  if Text.sameFolded keyword piece && !Text.isBlankText behind then
    some ⟨piece, behind.takeWhile isBlank, behind.dropWhile isBlank⟩
  else none

namespace Pattern

def ofKeywords (kind : PatternKind) (keywords : List Text) : Pattern :=
  ⟨kind, longestFirst (keywords.filter (!·.isEmpty))⟩

/-- Where the pattern matches a text.  A text that has to be free of keywords is left
whole. -/
def find? (pattern : Pattern) (text : Text) : Option Found :=
  match pattern.kind with
  | .portion => pattern.keywords.findSome? (leadingKeyword? text)
  | .single =>
    if pattern.keywords.any (Text.sameFolded · text) then some ⟨text, [], []⟩ else none
  | .none =>
    -- unlike the other two kinds, a keyword may begin anywhere in the text
    let folded := text.map fold
    if pattern.keywords.any fun keyword => Text.occursIn (keyword.map fold) folded then none
    else some ⟨[], [], text⟩

def accepts (pattern : Pattern) (text : Text) : Bool := (pattern.find? text).isSome

end Pattern

end LineageSearch
