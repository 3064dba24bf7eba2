import LineageSearch.Proofs.Lineage.CapitalNames
import Mathlib.Data.List.Forall2

/-!
# What a name keeps of its text

A name is made of the words of a text and of nothing else: how the words are spaced is lost, and so
is what the first character of each part between hyphens was.  All the rest is kept.

```text
text    one word after the other, one space between them    nameOf_eq_unwords
word    one part after the other, empty ones included        cut_capitalizeWord
part    every character behind the first                     KeepsPart
```

A name is therefore its own name (`nameOf_keeps_words`).
-/

namespace LineageSearch

open Text

namespace Language

variable {language : Language}

/-- What the first character of a part becomes. -/
def initial : Language → Char → Text
  | en, c => upperChar c
  | jp, c => [c]

/-- A part between hyphens, and what is left of it in a name: an empty part stays empty, any other
one keeps every character behind its first. -/
inductive KeepsPart (language : Language) : Text → Text → Prop
  | empty : KeepsPart language [] []
  | behind (c : Char) (rest : Text) : KeepsPart language (c :: rest) (language.initial c ++ rest)

/-- A word, and what is left of it in a name: part by part, as many as there were. -/
def KeepsWord (language : Language) (word kept : Text) : Prop :=
  List.Forall₂ language.KeepsPart (cut (· == '-') word) (cut (· == '-') kept)

theorem keepsPart_capitalizePart (part : Text) : en.KeepsPart part (capitalizePart part) := by
  cases part with
  | nil => exact KeepsPart.empty
  | cons c rest => exact KeepsPart.behind c rest

theorem keepsPart_self (part : Text) : jp.KeepsPart part part := by
  cases part with
  | nil => exact KeepsPart.empty
  | cons c rest => exact KeepsPart.behind c rest

theorem keepsWord_capitalizeWord (word : Text) : en.KeepsWord word (capitalizeWord word) := by
  unfold KeepsWord
  rw [cut_capitalizeWord, List.forall₂_map_right_iff, List.forall₂_same]
  intro part _
  exact keepsPart_capitalizePart part

theorem keepsWord_self (word : Text) : jp.KeepsWord word word := by
  unfold KeepsWord
  rw [List.forall₂_same]
  intro part _
  exact keepsPart_self part

/-- The words of a name are those of the text, one for one. -/
theorem forall₂_words_nameOf (language : Language) (t : Text) :
    List.Forall₂ language.KeepsWord (words t) (words (language.nameOf t)) := by
  rw [words_nameOf]
  cases language with
  | en =>
    rw [List.forall₂_map_right_iff, List.forall₂_same]
    intro word _
    exact keepsWord_capitalizeWord word
  | jp =>
    rw [List.forall₂_same]
    intro word _
    exact keepsWord_self word

/-- A name is its words with one space between neighbours. -/
theorem nameOf_eq_unwords (language : Language) (t : Text) :
    language.nameOf t = unwords (words (language.nameOf t)) := by
  rw [words_nameOf]
  cases language <;> rfl

theorem nameOf_congr {other t : Text} (h : words other = words t) :
    language.nameOf other = language.nameOf t := by
  rw [nameOf, h, ← nameOf]

/-- **A name keeps the words of its text, and is its own name.**  It depends on the words only, has
as many of them, one space apart, and each word has as many parts between hyphens, of which every
character behind the first one is kept. -/
theorem nameOf_keeps_words (language : Language) (t : Text) :
    language.nameOf (language.nameOf t) = language.nameOf t ∧
    (∀ other, words other = words t → language.nameOf other = language.nameOf t) ∧
    language.nameOf t = unwords (words (language.nameOf t)) ∧
    (words (language.nameOf t)).length = (words t).length ∧
    List.Forall₂ language.KeepsWord (words t) (words (language.nameOf t)) := by
  have hwords := language.forall₂_words_nameOf t
  refine ⟨language.nameOf_nameOf t, ?_, language.nameOf_eq_unwords t, hwords.length_eq.symm, hwords⟩
  intro other hother
  exact nameOf_congr hother

/-- A letter that is written out with two capitals and one written out with three, next to empty
parts; the spacing is lost. -/
theorem nameOf_keeps_words_written_out :
    words " ßa--ﬃn-  élan\t".toList = words "ßa--ﬃn- élan".toList ∧
      en.nameOf " ßa--ﬃn-  élan\t".toList = en.nameOf "ßa--ﬃn- élan".toList ∧
      en.nameOf "ßa--ﬃn- élan".toList = "SSa--FFIn- Élan".toList ∧
      en.nameOf "SSa--FFIn- Élan".toList = "SSa--FFIn- Élan".toList := by
  obtain ⟨hagain, hcongr, -⟩ := nameOf_keeps_words en "ßa--ﬃn- élan".toList
  have hwords : words " ßa--ﬃn-  élan\t".toList = words "ßa--ﬃn- élan".toList := by decide +kernel
  have hname : en.nameOf "ßa--ﬃn- élan".toList = "SSa--FFIn- Élan".toList := by decide +kernel
  rw [hname] at hagain
  exact ⟨hwords, hcongr _ hwords, hname, hagain⟩

end Language

end LineageSearch
