import LineageSearch.Text.Blank
import Mathlib.Data.List.Basic
import Mathlib.Data.List.TakeWhile

/-!
# Trimming and words

What the ends and the words of a text are.

* `cut_joinWith`, `joinWith_cut`: pieces without a separator, joined by a separator, are cut
  apart again, and cut pieces join to the text they were cut from; `words_unwords` is the case
  of words and blanks.
* `exists_trim`: trimming takes blanks from the two ends and nothing else.
* `IsTight`: a text that is not empty and has no blank at either end.  Trimming makes a
  text tight unless it is blank (`isTight_trim`), and leaves tight texts alone
  (`IsTight.trim_eq`).
-/

namespace LineageSearch

/-! ## Pieces between separators -/

section Cut

variable {α : Type} {isSeparator : α → Bool}

/-- **A cut falls apart at a separator.**  Everything about `cut` follows from this one
equation and from `cut_eq_singleton`. -/
theorem cut_append_separator {a : α} (ha : isSeparator a = true) (left right : List α) :
    cut isSeparator (left ++ a :: right) = cut isSeparator left ++ cut isSeparator right := by
  induction left with
  | nil => simp [cut, ha]
  | cons b left ih =>
    rw [List.cons_append, cut, cut]
    by_cases hb : isSeparator b = true
    · simp [hb, ih]
    · obtain ⟨piece, pieces, hcut⟩ := List.exists_cons_of_ne_nil (cut_ne_nil isSeparator left)
      simp [hb, ih, hcut]

theorem cut_eq_singleton {l : List α} (h : ∀ a ∈ l, isSeparator a = false) :
    cut isSeparator l = [l] := by
  induction l with
  | nil => rfl
  | cons a l ih =>
    have hrest : cut isSeparator l = [l] := ih fun b hb => h b (List.mem_cons_of_mem _ hb)
    simp [cut, h a (List.mem_cons_self ..), hrest]

/-- The pieces of a cut consist of what is no separator. -/
theorem of_mem_cut {l piece : List α} (hpiece : piece ∈ cut isSeparator l) :
    ∀ a ∈ piece, a ∈ l ∧ isSeparator a = false := by
  induction l generalizing piece with
  | nil =>
    rw [cut, List.mem_singleton] at hpiece
    simp [hpiece]
  | cons b l ih =>
    have hlater : ∀ {other}, other ∈ cut isSeparator l →
        ∀ a ∈ other, a ∈ b :: l ∧ isSeparator a = false := by
      intro other hother a ha
      obtain ⟨hmem, hsep⟩ := ih hother a ha
      exact ⟨List.mem_cons_of_mem _ hmem, hsep⟩
    rw [cut] at hpiece
    by_cases hb : isSeparator b = true
    · rw [if_pos hb, List.mem_cons] at hpiece
      rcases hpiece with rfl | hpiece
      · simp
      · exact hlater hpiece
    · rw [if_neg hb] at hpiece
      obtain ⟨first, pieces, hcut⟩ := List.exists_cons_of_ne_nil (cut_ne_nil isSeparator l)
      rw [hcut] at hlater
      simp only [hcut, List.mem_cons] at hpiece
      rcases hpiece with rfl | hpiece
      · intro a ha
        rcases List.mem_cons.mp ha with rfl | ha
        · exact ⟨List.mem_cons_self .., by simpa using hb⟩
        · exact hlater (List.mem_cons_self ..) a ha
      · exact hlater (List.mem_cons_of_mem _ hpiece)

theorem exists_mem_cut {l : List α} {a : α} (ha : a ∈ l) (h : isSeparator a = false) :
    ∃ piece ∈ cut isSeparator l, a ∈ piece := by
  obtain ⟨left, right, rfl⟩ := List.append_of_mem ha
  induction left with
  | nil =>
    obtain ⟨first, pieces, hcut⟩ := List.exists_cons_of_ne_nil (cut_ne_nil isSeparator right)
    exact ⟨a :: first, by simp [cut, h, hcut], List.mem_cons_self ..⟩
  | cons b left ih =>
    obtain ⟨piece, hpiece, hmem⟩ := ih (by simp)
    rw [List.cons_append, cut]
    by_cases hb : isSeparator b = true
    · exact ⟨piece, by simp [hb, hpiece], hmem⟩
    · obtain ⟨first, pieces, hcut⟩ :=
        List.exists_cons_of_ne_nil (cut_ne_nil isSeparator (left ++ a :: right))
      rw [hcut] at hpiece
      simp only [hb, hcut]
      rcases List.mem_cons.mp hpiece with rfl | hpiece
      · exact ⟨b :: piece, List.mem_cons_self .., List.mem_cons_of_mem _ hmem⟩
      · exact ⟨piece, List.mem_cons_of_mem _ hpiece, hmem⟩

/-- Only a list without separators is its own and only piece. -/
theorem eq_of_cut_eq_singleton {l piece : List α} (h : cut isSeparator l = [piece]) :
    l = piece := by
  by_cases hall : ∀ a ∈ l, isSeparator a = false
  · rw [cut_eq_singleton hall] at h
    exact (List.cons.inj h).1
  · simp only [not_forall, Bool.not_eq_false] at hall
    obtain ⟨a, hmem, ha⟩ := hall
    obtain ⟨left, right, rfl⟩ := List.append_of_mem hmem
    -- at a separator there would be two pieces
    have hlength := congrArg List.length h
    rw [cut_append_separator ha, List.length_append, List.length_singleton] at hlength
    have hleft := List.length_pos_of_ne_nil (cut_ne_nil isSeparator left)
    have hright := List.length_pos_of_ne_nil (cut_ne_nil isSeparator right)
    omega

end Cut

namespace Text

theorem cut_joinWith {isSeparator : Char → Bool} {separator : Char}
    (hseparator : isSeparator separator = true) {pieces : List Text} (hne : pieces ≠ [])
    (h : ∀ piece ∈ pieces, ∀ c ∈ piece, isSeparator c = false) :
    cut isSeparator (joinWith [separator] pieces) = pieces := by
  induction pieces with
  | nil => exact absurd rfl hne
  | cons piece pieces ih =>
    have hpiece : cut isSeparator piece = [piece] :=
      cut_eq_singleton (h piece (List.mem_cons_self ..))
    cases pieces with
    | nil => simpa [joinWith] using hpiece
    | cons next rest =>
      have hrest := ih (by simp) fun p hp => h p (List.mem_cons_of_mem _ hp)
      rw [joinWith, List.append_assoc, List.singleton_append,
        cut_append_separator hseparator, hpiece, hrest, List.singleton_append]
      simp

/-- A text is made of the pieces between its separators. -/
theorem joinWith_cut (separator : Char) (t : Text) :
    joinWith [separator] (cut (· == separator) t) = t := by
  induction t with
  | nil => rfl
  | cons c rest ih =>
    obtain ⟨piece, pieces, hcut⟩ := List.exists_cons_of_ne_nil (cut_ne_nil (· == separator) rest)
    rw [hcut] at ih
    rw [cut]
    by_cases hc : c = separator
    · rw [if_pos (by simpa using hc), hcut, joinWith, ih, hc]
      · rfl
      · simp
    · rw [if_neg (by simpa using hc), hcut]
      cases pieces with
      | nil => rw [joinWith, ← ih, joinWith]
      | cons next others =>
        rw [joinWith] at ih ⊢
        · rw [← ih]
          rfl
        · simp
        · simp

/-! ## Words -/

theorem of_mem_words {t w : Text} (h : w ∈ words t) :
    w ≠ [] ∧ ∀ c ∈ w, isBlank c = false := by
  obtain ⟨hcut, hne⟩ := List.mem_filter.mp h
  exact ⟨by simpa using hne, fun c hc => (of_mem_cut hcut c hc).2⟩

theorem words_unwords {ws : List Text} (h : ∀ w ∈ ws, w ≠ [] ∧ ∀ c ∈ w, isBlank c = false) :
    words (unwords ws) = ws := by
  cases ws with
  | nil => rfl
  | cons w rest =>
    rw [words, unwords, cut_joinWith (by decide) (by simp) fun piece hp => (h piece hp).2]
    exact List.filter_eq_self.mpr fun piece hp => by simpa using (h piece hp).1

theorem unwords_pair (first second : Text) : unwords [first, second] = first ++ ' ' :: second := by
  simp [unwords, joinWith]

theorem words_eq_singleton {w : Text} (hne : w ≠ []) (h : ∀ c ∈ w, isBlank c = false) :
    words w = [w] := by
  simp [words, cut_eq_singleton h, hne]

theorem words_append_blank {c : Char} (hc : isBlank c = true) (left right : Text) :
    words (left ++ c :: right) = words left ++ words right := by
  rw [words, cut_append_separator hc, List.filter_append, words, words]

theorem words_ne_nil {t : Text} {c : Char} (hc : c ∈ t) (h : isBlank c = false) :
    words t ≠ [] := by
  obtain ⟨piece, hpiece, hmem⟩ := exists_mem_cut hc h
  have hword : piece ∈ words t :=
    List.mem_filter.mpr ⟨hpiece, by simpa using List.ne_nil_of_mem hmem⟩
  exact List.ne_nil_of_mem hword

/-! ## The ends of a text -/

@[simp] theorem isBlankText_nil : isBlankText [] = true := rfl

@[simp] theorem isBlankText_append (a b : Text) :
    isBlankText (a ++ b) = (isBlankText a && isBlankText b) := by
  simp [isBlankText]

theorem isBlankText_takeWhile (t : Text) : isBlankText (t.takeWhile isBlank) = true :=
  List.all_takeWhile

/-- The first character behind the leading blanks is not blank. -/
theorem not_isBlank_of_mem_head?_dropWhile {t : Text} {c : Char}
    (h : c ∈ (t.dropWhile isBlank).head?) : isBlank c = false := by
  have hhead := List.head?_dropWhile_not isBlank t
  rw [h] at hhead
  simpa using hhead

/-- Trimming takes blanks from the two ends of a text and nothing else. -/
theorem exists_trim (t : Text) :
    ∃ before after, isBlankText before = true ∧ isBlankText after = true ∧
      t = before ++ trim t ++ after := by
  refine ⟨t.takeWhile isBlank, ((trimStart t).reverse.takeWhile isBlank).reverse,
    isBlankText_takeWhile t, ?_, ?_⟩
  · rw [isBlankText, List.all_reverse]
    exact isBlankText_takeWhile _
  · rw [List.append_assoc, trim, trimEnd, ← List.reverse_append, List.takeWhile_append_dropWhile,
      List.reverse_reverse, trimStart, List.takeWhile_append_dropWhile]

/-- A text that is not empty and has no blank at either end. -/
def IsTight (t : Text) : Prop :=
  (∃ c ∈ t.head?, isBlank c = false) ∧ ∃ c ∈ t.getLast?, isBlank c = false

theorem IsTight.ne_nil {t : Text} (h : IsTight t) : t ≠ [] := by
  rintro rfl
  simp [IsTight] at h

/-- Tight ends make a text tight, whatever stands between them. -/
theorem IsTight.append {before after : Text} (hbefore : IsTight before) (hafter : IsTight after)
    (between : Text) : IsTight (before ++ between ++ after) := by
  obtain ⟨⟨first, hfirst, hstart⟩, -⟩ := id hbefore
  obtain ⟨-, last, hlast, hend⟩ := id hafter
  refine ⟨⟨first, ?_, hstart⟩, last, ?_, hend⟩
  · rw [List.append_assoc, List.head?_append_of_ne_nil _ hbefore.ne_nil]
    exact hfirst
  · rw [List.getLast?_append_of_ne_nil _ hafter.ne_nil]
    exact hlast

/-- A tight text of one word is that word. -/
theorem IsTight.eq_of_words {t w : Text} (h : IsTight t) (hwords : words t = [w]) : t = w := by
  by_cases hall : ∀ c ∈ t, isBlank c = false
  · rw [words_eq_singleton h.ne_nil hall] at hwords
    exact (List.cons.inj hwords).1
  · simp only [not_forall, Bool.not_eq_false] at hall
    obtain ⟨c, hmem, hc⟩ := hall
    obtain ⟨left, right, rfl⟩ := List.append_of_mem hmem
    obtain ⟨⟨first, hfirst, hstart⟩, last, hlast, hend⟩ := h
    -- a blank inside a tight text has a word on either side
    have hleft : words left ≠ [] := by
      cases left with
      | nil =>
        obtain rfl : c = first := by simpa using hfirst
        simp [hc] at hstart
      | cons b left =>
        obtain rfl : b = first := by simpa using hfirst
        exact words_ne_nil (List.mem_cons_self ..) hstart
    have hright : words right ≠ [] := by
      cases right with
      | nil =>
        obtain rfl : c = last := by simpa using hlast
        simp [hc] at hend
      | cons b right =>
        refine words_ne_nil (List.mem_of_getLast? ?_) hend
        simpa using hlast
    have hlength := congrArg List.length hwords
    rw [words_append_blank hc, List.length_append, List.length_singleton] at hlength
    have hleft := List.length_pos_of_ne_nil hleft
    have hright := List.length_pos_of_ne_nil hright
    omega

theorem trimStart_eq_self {t : Text} {c : Char} (hc : c ∈ t.head?) (h : isBlank c = false) :
    trimStart t = t := by
  cases t with
  | nil => simp at hc
  | cons first rest =>
    obtain rfl : first = c := by simpa using hc
    simp [trimStart, h]

/-- Blanks behind a tight text are trimmed away, and nothing else. -/
theorem IsTight.trim_append {t after : Text} (h : IsTight t) (hafter : isBlankText after = true) :
    trim (t ++ after) = t := by
  obtain ⟨⟨first, hfirst, hstart⟩, last, hlast, hend⟩ := id h
  have hhead : first ∈ (t ++ after).head? := by
    rw [List.head?_append_of_ne_nil _ h.ne_nil]
    exact hfirst
  have hblank : ∀ c ∈ after.reverse, isBlank c = true := by
    simpa [isBlankText] using hafter
  have hreverse : t.reverse.dropWhile isBlank = t.reverse :=
    trimStart_eq_self (by simpa using hlast) hend
  rw [trim, trimStart_eq_self hhead hstart, trimEnd, List.reverse_append,
    List.dropWhile_append_of_pos hblank, hreverse, List.reverse_reverse]

theorem IsTight.trim_eq {t : Text} (h : IsTight t) : trim t = t := by
  simpa using h.trim_append isBlankText_nil

/-- Blanks around a tight text are trimmed away, and nothing else. -/
theorem IsTight.trim_between {t before after : Text} (h : IsTight t)
    (hbefore : isBlankText before = true) (hafter : isBlankText after = true) :
    trim (before ++ t ++ after) = t := by
  have hall : ∀ c ∈ before, isBlank c = true := List.all_eq_true.mp hbefore
  rw [List.append_assoc, trim, trimStart, List.dropWhile_append_of_pos hall]
  exact h.trim_append hafter

/-- Behind a beginning of a tight text that is not all of it, there is more than blanks. -/
theorem IsTight.drop_not_blank {t : Text} (h : IsTight t) {n : Nat} (hn : n < t.length) :
    isBlankText (t.drop n) = false := by
  obtain ⟨-, last, hlast, hend⟩ := h
  have hmem : last ∈ (t.drop n).getLast? := by
    rw [List.getLast?_drop, if_neg (Nat.not_le.mpr hn)]
    exact hlast
  rw [Bool.eq_false_iff]
  intro hblank
  rw [List.all_eq_true.mp hblank last (List.mem_of_getLast? hmem)] at hend
  cases hend

theorem isTight_trim {t : Text} (h : isBlankText t = false) : IsTight (trim t) := by
  obtain ⟨first, rest, hstart⟩ : ∃ first rest, trimStart t = first :: rest := by
    refine List.exists_cons_of_ne_nil fun hnil => ?_
    rw [trimStart, List.dropWhile_eq_nil_iff] at hnil
    have hblank : isBlankText t = true := List.all_eq_true.mpr hnil
    simp [hblank] at h
  have hfirst : isBlank first = false :=
    not_isBlank_of_mem_head?_dropWhile (t := t) (by rw [← trimStart, hstart]; rfl)
  -- what trimming leaves is `kept` backwards, and it cannot be empty: `first` is in it
  obtain ⟨kept, hkept⟩ : ∃ kept, (trimStart t).reverse.dropWhile isBlank = kept := ⟨_, rfl⟩
  have hsplit : (trimStart t).reverse.takeWhile isBlank ++ kept = rest.reverse ++ [first] := by
    rw [← hkept, List.takeWhile_append_dropWhile, hstart, List.reverse_cons]
  have hne : kept ≠ [] := by
    rintro rfl
    rw [List.append_nil] at hsplit
    have hall := isBlankText_takeWhile (trimStart t).reverse
    simp [hsplit, isBlankText, hfirst] at hall
  have htrim : trim t = kept.reverse := by rw [trim, trimEnd, hkept]
  refine ⟨⟨first, ?_, hfirst⟩, kept.head hne, ?_, ?_⟩
  · have hlast := congrArg List.getLast? hsplit
    rw [List.getLast?_append_of_ne_nil _ hne, List.getLast?_concat] at hlast
    rw [htrim, List.head?_reverse, hlast]
    rfl
  · rw [htrim, List.getLast?_reverse, List.head?_eq_some_head hne]
    rfl
  · exact not_isBlank_of_mem_head?_dropWhile (t := (trimStart t).reverse)
      (by rw [hkept, List.head?_eq_some_head hne]; rfl)

/-- A text that does not begin with a blank loses blanks at its end only. -/
theorem exists_trim_of_head {t : Text} {c : Char} (hc : c ∈ t.head?) (h : isBlank c = false) :
    ∃ after, isBlankText after = true ∧ t = trim t ++ after := by
  obtain ⟨before, after, hbefore, hafter, hsplit⟩ := exists_trim t
  cases before with
  | nil => exact ⟨after, hafter, hsplit⟩
  | cons first rest =>
    rw [hsplit] at hc
    obtain rfl : first = c := by simpa using hc
    simp [isBlankText, h] at hbefore

theorem isBlankText_eq_false_of_head {t : Text} {c : Char} (hc : c ∈ t.head?)
    (h : isBlank c = false) : isBlankText t = false := by
  obtain ⟨rest, rfl⟩ := List.head?_eq_some_iff.mp hc
  simp [isBlankText, h]

theorem trim_eq_nil_iff {t : Text} : trim t = [] ↔ isBlankText t = true := by
  constructor
  · intro htrim
    by_contra hblank
    exact (isTight_trim (by simpa using hblank)).ne_nil htrim
  · intro hblank
    have hstart : trimStart t = [] :=
      List.dropWhile_eq_nil_iff.mpr (List.all_eq_true.mp hblank)
    simp [trim, trimEnd, hstart]

theorem words_append_of_blank_left {before : Text} (h : isBlankText before = true) (t : Text) :
    words (before ++ t) = words t := by
  induction before with
  | nil => rfl
  | cons c rest ih =>
    obtain ⟨hc, hrest⟩ : isBlank c = true ∧ isBlankText rest = true := by
      simpa [isBlankText] using h
    rw [← ih hrest]
    exact words_append_blank hc [] (rest ++ t)

theorem words_append_of_blank_right {after : Text} (h : isBlankText after = true) (t : Text) :
    words (t ++ after) = words t := by
  cases after with
  | nil => rw [List.append_nil]
  | cons c rest =>
    obtain ⟨hc, hrest⟩ : isBlank c = true ∧ isBlankText rest = true := by
      simpa [isBlankText] using h
    have hnone : words rest = [] := by
      rw [← List.append_nil rest, words_append_of_blank_left hrest]
      rfl
    rw [words_append_blank hc, hnone, List.append_nil]

/-- The words of a text are those of the trimmed text. -/
theorem words_trim (t : Text) : words (trim t) = words t := by
  obtain ⟨before, after, hbefore, hafter, hsplit⟩ := exists_trim t
  conv_rhs => rw [hsplit]
  rw [words_append_of_blank_right hafter, words_append_of_blank_left hbefore]

theorem mem_of_mem_trim {t : Text} {c : Char} (h : c ∈ trim t) : c ∈ t := by
  obtain ⟨before, after, -, -, hsplit⟩ := exists_trim t
  rw [hsplit]
  simp [h]

end Text

end LineageSearch
