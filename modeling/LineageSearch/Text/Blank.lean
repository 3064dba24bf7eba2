import LineageSearch.Text.Basic

/-!
# Blanks and words

Blank characters are those with the Unicode property `White_Space`.  One property
serves every place where blanks matter: the ends of a query, the gap behind a
keyword, and the boundaries of words, so these can never disagree.
-/

namespace LineageSearch

/-- Whether a character has the Unicode property `White_Space`. -/
def isBlank (c : Char) : Bool :=
  let n := c.toNat
  (0x9 ≤ n && n ≤ 0xD) || n == 0x20 || n == 0x85 || n == 0xA0 || n == 0x1680
    || (0x2000 ≤ n && n ≤ 0x200A) || n == 0x2028 || n == 0x2029 || n == 0x202F
    || n == 0x205F || n == 0x3000

namespace Text

/-- Whether nothing but blanks stands in the text; the empty text is blank. -/
def isBlankText (t : Text) : Bool := t.all isBlank

/-- The text from its first character that is not blank. -/
def trimStart (t : Text) : Text := t.dropWhile isBlank

/-- The text up to its last character that is not blank. -/
def trimEnd (t : Text) : Text := (t.reverse.dropWhile isBlank).reverse

/-- The text without the blanks at its ends. -/
def trim (t : Text) : Text := trimEnd (trimStart t)

/-- The words of a text: the pieces between blanks that are not empty. -/
def words (t : Text) : List Text := (cut isBlank t).filter (!·.isEmpty)

end Text

end LineageSearch
