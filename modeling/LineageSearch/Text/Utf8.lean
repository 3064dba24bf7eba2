import LineageSearch.Text.Basic

/-!
# Bytes

Texts are written in UTF-8.  The length of a text in bytes is the sum of the lengths of
its characters, and a stream of bytes is cut into lines before it is read as text: a line
feed is one byte in UTF-8 and part of no other character.  A mark of the byte order may
stand before a text; it belongs to the writing and not to the text.
-/

namespace LineageSearch

namespace Text

def byteLength : Text → Nat
  | [] => 0
  | c :: rest => c.utf8Size + byteLength rest

/-- The text that the bytes spell in UTF-8, if they spell one. -/
def ofUtf8? (bytes : List UInt8) : Option Text :=
  (String.fromUTF8? ⟨bytes.toArray⟩).map String.toList

/-- The text without a mark of the byte order at its beginning. -/
def dropByteOrderMark : Text → Text
  | '\ufeff' :: rest => rest
  | t => t

@[simp] theorem byteLength_append (a b : Text) :
    byteLength (a ++ b) = byteLength a + byteLength b := by
  induction a with
  | nil => simp [byteLength]
  | cons c rest ih => rw [List.cons_append, byteLength, byteLength, ih, Nat.add_assoc]

end Text

/-- A line without the carriage return at its end. -/
def dropCarriageReturn (line : List UInt8) : List UInt8 :=
  if line.getLast? = some 13 then line.dropLast else line

/-- The lines of a stream, each ended by a line feed or by a carriage return and a line
feed.  Bytes behind the last line feed are a line of their own, of which nothing is
dropped. -/
def byteLines (bytes : List UInt8) : List (List UInt8) :=
  let pieces := cut (· == 10) bytes
  pieces.dropLast.map dropCarriageReturn ++ pieces.getLast?.toList.filter (!·.isEmpty)

end LineageSearch
