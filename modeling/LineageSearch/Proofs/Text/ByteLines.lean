import LineageSearch.Proofs.Text.Words
import LineageSearch.Text.Utf8

/-!
# Lines of bytes

A stream is cut into lines before it is known to be a text.  That does no harm: the byte of a line
feed is part of no other character in UTF-8 (`Text.lineFeed_mem_toUtf8_iff`), so the lines of a text
are the texts of its lines.

What the lines of a stream are follows from two equations: bytes without a line feed are one line
(`byteLines_eq_singleton`), and a line feed ends a line (`byteLines_append_lineFeed`).
-/

namespace LineageSearch

/-! ## Texts as bytes -/

namespace Text

/-- The bytes that spell a text in UTF-8. -/
def toUtf8 (t : Text) : List UInt8 := t.flatMap String.utf8EncodeChar

theorem toUtf8_append (first second : Text) :
    toUtf8 (first ++ second) = toUtf8 first ++ toUtf8 second :=
  List.flatMap_append

/-- What was written in UTF-8 is read back. -/
theorem ofUtf8?_toUtf8 (t : Text) : ofUtf8? (toUtf8 t) = some t := by
  have hbytes : (⟨(toUtf8 t).toArray⟩ : ByteArray) = (String.ofList t).toByteArray := by
    rw [String.toByteArray_ofList, List.utf8Encode]
    exact ByteArray.ext List.data_toByteArray.symm
  have hread : String.fromUTF8? ⟨(toUtf8 t).toArray⟩ = some (String.ofList t) := by
    rw [hbytes, String.fromUTF8?, dif_pos (String.ofList t).isValidUTF8]
    rfl
  rw [ofUtf8?, hread, Option.map_some, String.toList_ofList]

theorem toUtf8_eq_nil_iff {t : Text} : toUtf8 t = [] ↔ t = [] := by
  constructor
  · intro hnil
    have hread := ofUtf8?_toUtf8 t
    rw [hnil] at hread
    exact (Option.some_inj.mp hread).symm
  · rintro rfl
    rfl

/-- All bytes of a character beyond ASCII are at least 128. -/
theorem le_of_mem_encodeChar {c : Char} (hc : 128 ≤ c.toNat) :
    ∀ byte ∈ String.utf8EncodeChar c, 128 ≤ byte.toNat := by
  have hhigh : ∀ n, 128 ≤ n → n < 256 → 128 ≤ (UInt8.ofNat n).toNat := by
    intro n hle hlt
    rw [UInt8.toNat_ofNat_of_lt' hlt]
    exact hle
  have hval : c.val.toNat = c.toNat := rfl
  rw [String.utf8EncodeChar, if_neg (by omega)]
  split
  · simp only [List.forall_mem_cons]
    exact ⟨hhigh _ (by omega) (by omega), hhigh _ (by omega) (by omega), by simp⟩
  · split
    · simp only [List.forall_mem_cons]
      exact ⟨hhigh _ (by omega) (by omega), hhigh _ (by omega) (by omega),
        hhigh _ (by omega) (by omega), by simp⟩
    · simp only [List.forall_mem_cons]
      exact ⟨hhigh _ (by omega) (by omega), hhigh _ (by omega) (by omega),
        hhigh _ (by omega) (by omega), hhigh _ (by omega) (by omega), by simp⟩

/-- The byte of an ASCII character is part of no other character. -/
theorem ascii_mem_encodeChar_iff {c d : Char} (hd : d.toNat < 128) :
    UInt8.ofNat d.toNat ∈ String.utf8EncodeChar c ↔ c = d := by
  have hval : c.val.toNat = c.toNat := rfl
  have hbyte : (UInt8.ofNat d.toNat).toNat = d.toNat :=
    UInt8.toNat_ofNat_of_lt' (hd.trans (by decide))
  by_cases hc : c.toNat < 128
  · have hown : (UInt8.ofNat c.toNat).toNat = c.toNat :=
      UInt8.toNat_ofNat_of_lt' (hc.trans (by decide))
    rw [String.utf8EncodeChar, if_pos (by omega), List.mem_singleton, hval, ← UInt8.toNat_inj,
      hbyte, hown, Char.toNat_inj, eq_comm]
  · refine iff_of_false (fun hmem => ?_) ?_
    · have hhigh := le_of_mem_encodeChar (Nat.not_lt.mp hc) _ hmem
      omega
    · rintro rfl
      exact hc hd

theorem lineFeed_mem_toUtf8_iff {t : Text} : 10 ∈ toUtf8 t ↔ '\n' ∈ t := by
  have hchar : ∀ c, 10 ∈ String.utf8EncodeChar c ↔ c = '\n' := fun c =>
    ascii_mem_encodeChar_iff (show '\n'.toNat < 128 by decide)
  simp only [toUtf8, List.mem_flatMap, hchar, exists_eq_right]

/-- Nor is that of a carriage return, so it ends no text but one that ends in a carriage return. -/
theorem getLast?_toUtf8_ne_carriageReturn {t : Text} (h : t.getLast? ≠ some '\r') :
    (toUtf8 t).getLast? ≠ some 13 := by
  intro hlast
  obtain rfl | ⟨front, c, rfl⟩ := List.eq_nil_or_concat' t
  · cases hlast
  · have hne : toUtf8 [c] ≠ [] := mt toUtf8_eq_nil_iff.mp (List.cons_ne_nil c [])
    rw [toUtf8_append, List.getLast?_append_of_ne_nil _ hne, toUtf8,
      List.flatMap_singleton] at hlast
    have hmem : UInt8.ofNat '\r'.toNat ∈ String.utf8EncodeChar c := List.mem_of_getLast? hlast
    rw [ascii_mem_encodeChar_iff (by decide)] at hmem
    rw [hmem, List.getLast?_concat] at h
    exact h rfl

end Text

/-! ## Lines -/

theorem cut_lineFeed_eq_singleton {line : List UInt8} (h : 10 ∉ line) :
    cut (· == 10) line = [line] := by
  refine cut_eq_singleton fun byte hbyte => ?_
  rw [beq_eq_false_iff_ne]
  rintro rfl
  exact h hbyte

theorem byteLines_eq_singleton {line : List UInt8} (hne : line ≠ []) (h : 10 ∉ line) :
    byteLines line = [line] := by
  simp [byteLines, cut_lineFeed_eq_singleton h, hne]

theorem byteLines_append_lineFeed {line : List UInt8} (h : 10 ∉ line) (rest : List UInt8) :
    byteLines (line ++ 10 :: rest) = dropCarriageReturn line :: byteLines rest := by
  obtain ⟨piece, pieces, hpieces⟩ := List.exists_cons_of_ne_nil (cut_ne_nil (· == 10) rest)
  have hsplit : cut (· == 10) (line ++ 10 :: rest) = line :: piece :: pieces := by
    rw [cut_append_separator (by rfl), cut_lineFeed_eq_singleton h, hpieces, List.singleton_append]
  simp [byteLines, hsplit, hpieces]

/-- Whether a text with an ending is a line of a stream.  A carriage return before the line feed
belongs to the ending. -/
def IsLine (text ending : Text) : Prop :=
  '\n' ∉ text ∧ (ending = ['\n'] ∧ text.getLast? ≠ some '\r' ∨ ending = ['\r', '\n'])

instance (text ending : Text) : Decidable (IsLine text ending) :=
  inferInstanceAs (Decidable (_ ∧ (_ ∧ _ ∨ _)))

/-- The first line of a stream is cut off with its ending. -/
theorem byteLines_line_append {t ending : Text} (h : IsLine t ending) (rest : List UInt8) :
    byteLines ((t ++ ending).toUtf8 ++ rest) = t.toUtf8 :: byteLines rest := by
  obtain ⟨hline, ⟨rfl, hlast⟩ | rfl⟩ := h
  · have hbytes : (t ++ ['\n']).toUtf8 ++ rest = t.toUtf8 ++ 10 :: rest := by
      rw [Text.toUtf8_append, List.append_assoc]
      rfl
    rw [hbytes, byteLines_append_lineFeed (mt Text.lineFeed_mem_toUtf8_iff.mp hline),
      dropCarriageReturn, if_neg (Text.getLast?_toUtf8_ne_carriageReturn hlast)]
  · have hbytes : (t ++ ['\r', '\n']).toUtf8 ++ rest = (t.toUtf8 ++ [13]) ++ 10 :: rest := by
      rw [Text.toUtf8_append, List.append_assoc, List.append_assoc]
      rfl
    have hreturn : 10 ∉ t.toUtf8 ++ [13] := by
      rw [List.mem_append, Text.lineFeed_mem_toUtf8_iff]
      rintro (hmem | hmem)
      · exact hline hmem
      · exact absurd hmem (by decide)
    rw [hbytes, byteLines_append_lineFeed hreturn, dropCarriageReturn,
      if_pos (List.getLast?_concat ..), List.dropLast_concat]

/-- A text without line feeds is one line, unless it is empty. -/
theorem byteLines_toUtf8 {t : Text} (hne : t ≠ []) (h : '\n' ∉ t) :
    byteLines t.toUtf8 = [t.toUtf8] :=
  byteLines_eq_singleton (mt Text.toUtf8_eq_nil_iff.mp hne) (mt Text.lineFeed_mem_toUtf8_iff.mp h)

end LineageSearch
