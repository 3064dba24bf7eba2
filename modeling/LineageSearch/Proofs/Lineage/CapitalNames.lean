import LineageSearch.Lineage.Language
import LineageSearch.Proofs.Text.CapitalLetters
import LineageSearch.Query.Expression

/-!
# Names are capitalized once and for all

A name is brought into the casing of recorded names when its subject is read, and once more
when it is looked up.  The second time changes nothing (`nameOf_nameOf`).

Capitals leave the words of a name and the parts of a word as they are, so a capitalized name
falls apart where the name did, and each part begins with a letter that is its own capital.

For the same reason capitals make no number of a name: what is read as a year after it was
capitalized was the same year before (`yearAtom?_nameOf`).
-/

namespace LineageSearch

open Text

/-! ## Parts of a word -/

theorem capitalizePart_capitalizePart (part : Text) :
    capitalizePart (capitalizePart part) = capitalizePart part := by
  cases part with
  | nil => rfl
  | cons c rest =>
    obtain ⟨first, hhead, hfixed⟩ := upperChar_head_fixed c
    obtain ⟨others, hform⟩ : ∃ others, upperChar c = first :: others :=
      List.head?_eq_some_iff.mp hhead
    simp [capitalizePart, hform, hfixed]

/-- What holds of all characters of a part, and of all that are no breaks, holds of all
characters of the capitalized part. -/
theorem forall_mem_capitalizePart {test : Char → Prop}
    (htest : ∀ d, (isBlank d = false ∧ d ≠ '-' ∧ d.isDigit = false) → test d) {part : Text}
    (h : ∀ c ∈ part, test c) : ∀ c ∈ capitalizePart part, test c := by
  cases part with
  | nil => exact h
  | cons first rest =>
    intro d hd
    rcases List.mem_append.mp hd with hform | hrest
    · rcases upperChar_cases first with hself | hclear
      · rw [hself] at hform
        exact h d (List.mem_singleton.mp hform ▸ List.mem_cons_self ..)
      · exact htest d (hclear d hform)
    · exact h d (List.mem_cons_of_mem _ hrest)

theorem capitalizePart_eq_nil_iff {part : Text} : capitalizePart part = [] ↔ part = [] := by
  cases part with
  | nil => exact Iff.rfl
  | cons c rest =>
    obtain ⟨first, hhead, -⟩ := upperChar_head_fixed c
    have hform : upperChar c ≠ [] := List.ne_nil_of_mem (List.mem_of_head? hhead)
    simp [capitalizePart, hform]

/-- A part that is a number once it is capitalized was that number before. -/
theorem eq_of_isDigits_capitalizePart {part : Text}
    (h : ∀ c ∈ capitalizePart part, c.isDigit = true) : capitalizePart part = part := by
  cases part with
  | nil => rfl
  | cons c rest =>
    rcases upperChar_cases c with hself | hclear
    · simp [capitalizePart, hself]
    · obtain ⟨first, hhead, -⟩ := upperChar_head_fixed c
      have hmem := List.mem_of_head? hhead
      have hdigit := h first (List.mem_append_left _ hmem)
      rw [(hclear first hmem).2.2] at hdigit
      simp at hdigit

/-! ## Words -/

theorem cut_capitalizeWord (word : Text) :
    cut (· == '-') (capitalizeWord word) = (cut (· == '-') word).map capitalizePart := by
  refine cut_joinWith (by decide) (by simpa using cut_ne_nil _ word) ?_
  intro piece hpiece
  obtain ⟨part, hpart, rfl⟩ := List.mem_map.mp hpiece
  exact forall_mem_capitalizePart (fun d hd => by simpa using hd.2.1)
    fun c hc => (of_mem_cut hpart c hc).2

theorem capitalizeWord_capitalizeWord (word : Text) :
    capitalizeWord (capitalizeWord word) = capitalizeWord word := by
  have hparts : capitalizePart ∘ capitalizePart = capitalizePart :=
    funext capitalizePart_capitalizePart
  rw [capitalizeWord, cut_capitalizeWord, List.map_map, hparts, ← capitalizeWord]

theorem mem_joinWith {separator : Char} {pieces : List Text} {c : Char}
    (h : c ∈ joinWith [separator] pieces) : c = separator ∨ ∃ piece ∈ pieces, c ∈ piece := by
  induction pieces with
  | nil => simp [joinWith] at h
  | cons piece rest ih =>
    cases rest with
    | nil => exact Or.inr ⟨piece, List.mem_singleton_self piece, h⟩
    | cons next rest =>
      rw [joinWith, List.append_assoc, List.mem_append, List.mem_append] at h
      swap
      · simp
      rcases h with hpiece | hseparator | hrest
      · exact Or.inr ⟨piece, List.mem_cons_self .., hpiece⟩
      · exact Or.inl (List.mem_singleton.mp hseparator)
      · rcases ih hrest with hseparator | ⟨other, hother, hc⟩
        · exact Or.inl hseparator
        · exact Or.inr ⟨other, List.mem_cons_of_mem _ hother, hc⟩

theorem isWord_capitalizeWord {word : Text}
    (h : word ≠ [] ∧ ∀ c ∈ word, isBlank c = false) :
    capitalizeWord word ≠ [] ∧ ∀ c ∈ capitalizeWord word, isBlank c = false := by
  constructor
  · intro hnil
    -- its only part would be empty, and so would be the word
    have hcut := cut_capitalizeWord word
    rw [hnil] at hcut
    obtain ⟨part, hpart, hempty⟩ : ∃ part, cut (· == '-') word = [part] ∧
        capitalizePart part = [] := by
      obtain ⟨part, hsingle, hempty⟩ := List.map_eq_singleton_iff.mp hcut.symm
      exact ⟨part, hsingle, hempty⟩
    rw [capitalizePart_eq_nil_iff] at hempty
    rw [hempty] at hpart
    exact h.1 (eq_of_cut_eq_singleton hpart)
  · intro c hc
    rcases mem_joinWith hc with rfl | ⟨piece, hpiece, hmem⟩
    · decide
    · obtain ⟨part, hpart, rfl⟩ := List.mem_map.mp hpiece
      refine forall_mem_capitalizePart (fun d hd => hd.1) ?_ c hmem
      exact fun d hd => h.2 d (of_mem_cut hpart d hd).1

/-! ## Names -/

namespace Language

variable (language : Language)

/-- The words of a name are the words it was made of, capitalized in English. -/
theorem words_nameOf (t : Text) :
    words (language.nameOf t) = match language with
      | .en => (words t).map capitalizeWord
      | .jp => words t := by
  cases language with
  | en =>
    refine words_unwords fun w hw => ?_
    obtain ⟨word, hword, rfl⟩ := List.mem_map.mp hw
    exact isWord_capitalizeWord (of_mem_words hword)
  | jp => exact words_unwords fun w hw => of_mem_words hw

/-- **Capitalizing a name a second time changes nothing.** -/
theorem nameOf_nameOf (t : Text) : language.nameOf (language.nameOf t) = language.nameOf t := by
  rw [nameOf, words_nameOf]
  cases language with
  | en =>
    have hwords : capitalizeWord ∘ capitalizeWord = capitalizeWord :=
      funext capitalizeWord_capitalizeWord
    show unwords (((words t).map capitalizeWord).map capitalizeWord) = _
    rw [List.map_map, hwords]
    rfl
  | jp => rfl

/-- A name is made of the words of a text only. -/
theorem nameOf_unwords_words (t : Text) :
    language.nameOf (unwords (words t)) = language.nameOf t := by
  rw [nameOf, words_unwords fun w hw => of_mem_words hw, ← nameOf]

/-- A name of digits is the text it was made of. -/
theorem eq_of_isDigits_nameOf {t : Text} (htight : IsTight t)
    (h : isDigits (language.nameOf t) = true) : language.nameOf t = t := by
  obtain ⟨hne, hdigits⟩ : language.nameOf t ≠ [] ∧ ∀ c ∈ language.nameOf t, c.isDigit = true := by
    simpa [isDigits] using h
  have hwords : words (language.nameOf t) = [language.nameOf t] :=
    words_eq_singleton hne fun c hc => isBlank_of_isDigit (hdigits c hc)
  rw [words_nameOf] at hwords
  cases language with
  | en =>
    obtain ⟨w, hw, hname⟩ := List.map_eq_singleton_iff.mp hwords
    obtain rfl : t = w := htight.eq_of_words hw
    -- without a hyphen the word has one part, and its first letter is a digit
    rw [← hname] at hdigits ⊢
    have hcut : cut (· == '-') (capitalizeWord t) = [capitalizeWord t] := by
      refine cut_eq_singleton fun c hc => beq_eq_false_iff_ne.mpr ?_
      rintro rfl
      exact absurd (hdigits _ hc) (by decide)
    rw [cut_capitalizeWord] at hcut
    obtain ⟨part, hpart, hcapital⟩ := List.map_eq_singleton_iff.mp hcut
    obtain rfl : t = part := eq_of_cut_eq_singleton hpart
    rw [← hcapital] at hdigits ⊢
    exact eq_of_isDigits_capitalizePart hdigits
  | jp => exact (htight.eq_of_words hwords).symm

/-- Digits are a name as they are. -/
theorem nameOf_of_isDigits {t : Text} (h : isDigits t = true) : language.nameOf t = t := by
  obtain ⟨hne, hdigits⟩ : t ≠ [] ∧ ∀ c ∈ t, c.isDigit = true := by
    simpa [isDigits] using h
  have hwords : words t = [t] :=
    words_eq_singleton hne fun c hc => isBlank_of_isDigit (hdigits c hc)
  cases language with
  | en =>
    have hcut : cut (· == '-') t = [t] := by
      refine cut_eq_singleton fun c hc => beq_eq_false_iff_ne.mpr ?_
      rintro rfl
      exact absurd (hdigits _ hc) (by decide)
    have hpart : capitalizePart t = t := by
      cases t with
      | nil => rfl
      | cons c rest => simp [capitalizePart, upperChar_of_isDigit (hdigits c List.mem_cons_self)]
    show unwords ((words t).map capitalizeWord) = t
    rw [hwords, List.map_singleton, capitalizeWord, hcut, List.map_singleton, hpart]
    rfl
  | jp =>
    show unwords (words t) = t
    rw [hwords]
    rfl

/-- A name that is read as a year is a year before it is capitalized. -/
theorem yearAtom?_nameOf {t : Text} (htight : IsTight t) (h : yearAtom? t = none) :
    yearAtom? (language.nameOf t) = none := by
  by_cases hdigits : isDigits (language.nameOf t) = true
  · rw [language.eq_of_isDigits_nameOf htight hdigits]
    exact h
  · rw [yearAtom?, if_neg (by simp [hdigits])]

end Language

end LineageSearch
