import LineageSearch.Proofs.Lineage.CapitalNames
import LineageSearch.Proofs.Text.LostCase

/-!
# Names that lowercase does not bring back

A name is capitalized before it is looked up, and authors are looked up in lowercase.  The
lowercase form of a capitalized name is that of the name as it was typed exactly if each letter
that was capitalized keeps its case (`lower_nameOf_eq_iff`).

These letters are the first ones of the parts between hyphens of the words between blanks.  As
lowercase goes piece by piece between hyphens and between blanks, the comparison of two names
comes down to one of words (`lower_capitalizeWord_eq_iff`), of parts
(`lower_capitalizePart_eq_iff`), and of their first letters.
-/

namespace LineageSearch

open Text

/-- Whether every letter of a word that is capitalized keeps its case. -/
def KeepsCase (word : Text) : Prop :=
  ∀ part ∈ cut (· == '-') word, ∀ c ∈ part.head?, ¬ LosesCase c

theorem lower_capitalizePart_eq_iff (part : Text) :
    lower (capitalizePart part) = lower part ↔ ∀ c ∈ part.head?, ¬ LosesCase c := by
  cases part with
  | nil => simp [capitalizePart]
  | cons c rest =>
    rw [capitalizePart, lower_upperChar_append_eq_iff]
    simp

theorem lower_capitalizeWord_eq_iff (word : Text) :
    lower (capitalizeWord word) = lower word ↔ KeepsCase word := by
  have hhyphen : ∀ c, (c == '-') = true → IsBreak c :=
    fun c hc => isBreak_iff.mpr (Or.inr (Or.inl (beq_iff_eq.mp hc)))
  have hparts : ∀ part ∈ cut (· == '-') word, ∀ c ∈ part, (c == '-') = false :=
    fun part hpart c hc => (of_mem_cut hpart c hc).2
  have hcapitals : ∀ part ∈ cut (· == '-') word, ∀ c ∈ capitalizePart part, (c == '-') = false :=
    fun part hpart => forall_mem_capitalizePart (fun d hd => by simpa using hd.2.1)
      (hparts part hpart)
  have hiff := lower_joinWith_map_eq_iff isCaseless_hyphen (by decide) hhyphen hparts hcapitals
  rw [joinWith_cut] at hiff
  rw [capitalizeWord, hiff]
  simp only [lower_capitalizePart_eq_iff, KeepsCase]

namespace Language

variable (language : Language)

/-- Whether a text keeps its case where it is capitalized, which is never in Japanese. -/
def KeepsCase (t : Text) : Prop := language = .en → ∀ word ∈ words t, LineageSearch.KeepsCase word

/-- **A name and its words as typed have one lowercase form exactly if the name keeps its
case.** -/
theorem lower_nameOf_eq_iff (t : Text) :
    lower (language.nameOf t) = lower (unwords (words t)) ↔ language.KeepsCase t := by
  cases language with
  | jp => exact iff_of_true rfl (fun h => by cases h)
  | en =>
    have hblank : ∀ c, isBlank c = true → IsBreak c :=
      fun c hc => isBreak_iff.mpr (Or.inl hc)
    have hwords : ∀ word ∈ words t, ∀ c ∈ word, isBlank c = false :=
      fun word hword => (of_mem_words hword).2
    have hcapitals : ∀ word ∈ words t, ∀ c ∈ capitalizeWord word, isBlank c = false :=
      fun word hword => (isWord_capitalizeWord (of_mem_words hword)).2
    show lower (unwords ((words t).map capitalizeWord)) = lower (unwords (words t)) ↔ _
    rw [unwords, unwords,
      lower_joinWith_map_eq_iff isCaseless_space (by decide) hblank hwords hcapitals]
    simp only [lower_capitalizeWord_eq_iff, KeepsCase, forall_const]

theorem keepsCase_trim (t : Text) : language.KeepsCase (trim t) ↔ language.KeepsCase t := by
  rw [KeepsCase, KeepsCase, words_trim]

/-- A text of digits has no case to lose. -/
theorem keepsCase_of_isDigit {t : Text} (h : ∀ c ∈ t, c.isDigit = true) :
    language.KeepsCase t := by
  intro _ word hword part hpart c hc
  have hinWord := (of_mem_cut hpart c (List.mem_of_head? hc)).1
  have hinText := (of_mem_cut (List.mem_filter.mp hword).1 c hinWord).1
  exact not_losesCase_of_isDigit (h c hinText)

end Language

end LineageSearch
