/-!
# Texts

Searching is about the pieces of a text: a keyword that leads it, the rest behind
the keyword, the words between blanks.  So a text is the list of its characters,
and a piece, its rest and their lengths are facts about lists.

* `cut` cuts a list at separators and keeps every piece, empty ones included;
* `Text.occursIn` asks whether a text is a contiguous piece of another.
-/

namespace LineageSearch

/-- A text is the list of its characters. -/
abbrev Text := List Char

/-- The pieces between the separators, in order.  There is one piece more than
there are separators, so neighbouring separators leave an empty piece. -/
def cut {α : Type} (isSeparator : α → Bool) : List α → List (List α)
  | [] => [[]]
  | a :: rest =>
    if isSeparator a then [] :: cut isSeparator rest
    else match cut isSeparator rest with
      | [] => [[a]]
      | piece :: pieces => (a :: piece) :: pieces

/-- There is always a first piece, so a cut never comes out empty. -/
theorem cut_ne_nil {α : Type} (isSeparator : α → Bool) (l : List α) :
    cut isSeparator l ≠ [] := by
  cases l with
  | nil => simp [cut]
  | cons a rest =>
    rw [cut]
    split
    · simp
    · split <;> simp

namespace Text

/-- The texts with `separator` between neighbours. -/
def joinWith (separator : Text) : List Text → Text
  | [] => []
  | [piece] => piece
  | piece :: pieces => piece ++ separator ++ joinWith separator pieces

def unwords (words : List Text) : Text := joinWith [' '] words

/-- Whether `piece` stands somewhere in the text, uninterrupted. -/
def occursIn (piece : Text) : Text → Bool
  | [] => piece.isEmpty
  | c :: rest => piece.isPrefixOf (c :: rest) || occursIn piece rest

/-- Whether two texts agree when the case of ASCII letters is disregarded.  Characters
beyond ASCII agree only with themselves. -/
def sameAscii (a b : Text) : Bool := a.map Char.toLower == b.map Char.toLower

end Text

end LineageSearch
