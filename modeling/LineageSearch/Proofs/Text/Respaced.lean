import LineageSearch.Proofs.Text.CaseFolding

/-!
# Texts of the same words

Two texts have the same words if they differ in their blanks only.  Such texts need not begin with
the same pieces, since a piece may have blanks in it; but if they do, what stands behind the piece
has the same words again (`eq_and_words_eq_of_append`).  This holds up to case, because blanks have
none and the letters of the piece are read off the words.

A piece without blanks is part of the first word, so it leads both texts or neither
(`exists_append_of_words_eq`).
-/

namespace LineageSearch

open CaseRun

theorem fold_eq_self_of_isBlank {c : Char} (h : isBlank c = true) : fold c = c := by
  obtain ⟨range, hrange, hin⟩ := isBlank_iff_range.mp h
  have hclear : (blankRanges.all fun range => foldRuns.all (clearOf range.1 range.2)) = true := by
    decide +kernel
  exact apply_eq_self_of_clear _ _ foldRuns_leadsToScalars
    (List.all_eq_true.mp hclear range hrange) (Or.inl hin)

namespace Text

/-! ## The first word -/

/-- A text falls apart behind its first characters that are not blank. -/
theorem words_eq_append_dropWhile (t : Text) :
    words t = words (t.takeWhile (!isBlank ·)) ++ words (t.dropWhile (!isBlank ·)) := by
  have hsplit : t.takeWhile (!isBlank ·) ++ t.dropWhile (!isBlank ·) = t :=
    List.takeWhile_append_dropWhile
  cases hrest : t.dropWhile (!isBlank ·) with
  | nil =>
    rw [hrest, List.append_nil] at hsplit
    rw [hsplit]
    simp [words, cut]
  | cons c rest =>
    have hhead := List.head?_dropWhile_not (!isBlank ·) t
    rw [hrest] at hhead hsplit
    have hc : isBlank c = true := by simpa using hhead
    have hbehind : words (c :: rest) = words rest := words_append_blank hc [] rest
    rw [hbehind, ← words_append_blank hc, hsplit]

theorem words_cons {c : Char} (hc : isBlank c = false) (rest : Text) :
    words (c :: rest) =
      (c :: rest.takeWhile (!isBlank ·)) :: words (rest.dropWhile (!isBlank ·)) := by
  have hword : words (c :: rest.takeWhile (!isBlank ·)) = [c :: rest.takeWhile (!isBlank ·)] := by
    refine words_eq_singleton (by simp) fun d hd => ?_
    rcases List.mem_cons.mp hd with rfl | hd
    · exact hc
    · simpa using List.mem_takeWhile_imp hd
  rw [words_eq_append_dropWhile, List.takeWhile_cons_of_pos (by simp [hc]),
    List.dropWhile_cons_of_pos (by simp [hc]), hword, List.singleton_append]

/-- Texts of the same words that begin with no blank begin with the same character, and go on with
the same words. -/
theorem words_cons_inj {c d : Char} {rest other : Text} (hc : isBlank c = false)
    (hd : isBlank d = false) (h : words (c :: rest) = words (d :: other)) :
    c = d ∧ words rest = words other := by
  rw [words_cons hc, words_cons hd] at h
  obtain ⟨hword, hbehind⟩ := List.cons.inj h
  obtain ⟨hfirst, hpiece⟩ := List.cons.inj hword
  refine ⟨hfirst, ?_⟩
  rw [words_eq_append_dropWhile rest, words_eq_append_dropWhile other, hpiece, hbehind]

/-! ## Leading pieces -/

/-- **Pieces that fold alike and lead texts of the same words are one piece**, and the same words
stand behind it. -/
theorem eq_and_words_eq_of_append {piece other behind beyond : Text}
    (hfold : piece.map fold = other.map fold)
    (h : words (piece ++ behind) = words (other ++ beyond)) :
    piece = other ∧ words behind = words beyond := by
  induction piece generalizing other with
  | nil =>
    obtain rfl : other = [] := List.map_eq_nil_iff.mp hfold.symm
    exact ⟨rfl, h⟩
  | cons c piece ih =>
    obtain ⟨d, other, rfl⟩ : ∃ d rest, other = d :: rest := by
      refine List.exists_cons_of_ne_nil ?_
      rintro rfl
      simp at hfold
    obtain ⟨hhead, htail⟩ := List.cons.inj hfold
    have hblank : isBlank c = isBlank d := by rw [← isBlank_fold, hhead, isBlank_fold]
    rw [List.cons_append, List.cons_append] at h
    by_cases hc : isBlank c = true
    · -- blanks have no case, so the two pieces have the same one here
      have hd : isBlank d = true := hblank ▸ hc
      have hsame : c = d := by
        rw [← fold_eq_self_of_isBlank hc, hhead, fold_eq_self_of_isBlank hd]
      have hskip : words (piece ++ behind) = words (other ++ beyond) := by
        calc words (piece ++ behind)
            = words (c :: (piece ++ behind)) := (words_append_blank hc [] _).symm
          _ = words (d :: (other ++ beyond)) := h
          _ = words (other ++ beyond) := words_append_blank hd [] _
      obtain ⟨hpiece, hwords⟩ := ih htail hskip
      exact ⟨by rw [hsame, hpiece], hwords⟩
    · rw [Bool.not_eq_true] at hc
      obtain ⟨hsame, hnext⟩ := words_cons_inj hc (hblank ▸ hc) h
      obtain ⟨hpiece, hwords⟩ := ih htail hnext
      exact ⟨by rw [hsame, hpiece], hwords⟩

/-- **A piece without blanks leads both of two texts of the same words, or neither**, if these
begin with no blank. -/
theorem exists_append_of_words_eq {piece behind t : Text} (ht : IsTight t)
    (hpiece : ∀ c ∈ piece, isBlank c = false) (h : words (piece ++ behind) = words t) :
    ∃ beyond, t = piece ++ beyond := by
  cases piece with
  | nil => exact ⟨t, rfl⟩
  | cons c piece =>
    obtain ⟨⟨d, hd, hstart⟩, -⟩ := ht
    obtain ⟨rest, rfl⟩ := List.head?_eq_some_iff.mp hd
    rw [List.cons_append, words_cons (hpiece c (List.mem_cons_self ..)), words_cons hstart] at h
    have hinner : ∀ e ∈ piece, (!isBlank e) = true := fun e he => by
      simp [hpiece e (List.mem_cons_of_mem _ he)]
    rw [List.takeWhile_append_of_pos hinner] at h
    obtain ⟨hfirst, hword⟩ := List.cons.inj (List.cons.inj h).1
    refine ⟨behind.takeWhile (!isBlank ·) ++ rest.dropWhile (!isBlank ·), ?_⟩
    rw [List.cons_append, ← List.append_assoc, hword, List.takeWhile_append_dropWhile, hfirst]

/-! ## Blank texts -/

theorem words_eq_nil_iff {t : Text} : words t = [] ↔ isBlankText t = true := by
  constructor
  · intro hnone
    rw [isBlankText, List.all_eq_true]
    intro c hc
    by_contra hblank
    exact words_ne_nil hc (by simpa using hblank) hnone
  · intro hblank
    simpa [words, cut] using words_append_of_blank_left hblank []

theorem words_trim_eq {t other : Text} (h : words t = words other) :
    words (trim t) = words (trim other) := by
  rw [words_trim, words_trim, h]

theorem isBlankText_eq_of_words_eq {t other : Text} (h : words t = words other) :
    isBlankText t = isBlankText other := by
  rw [Bool.eq_iff_iff, ← words_eq_nil_iff, ← words_eq_nil_iff, h]

/-- Words with one blank between them have no blank at the ends. -/
theorem isTight_unwords {ws : List Text} (hne : ws ≠ [])
    (h : ∀ w ∈ ws, w ≠ [] ∧ ∀ c ∈ w, isBlank c = false) : IsTight (unwords ws) := by
  induction ws with
  | nil => exact absurd rfl hne
  | cons w rest ih =>
    obtain ⟨hw, hclear⟩ := h w (List.mem_cons_self ..)
    have hword : IsTight w :=
      ⟨⟨w.head hw, List.head?_eq_some_head hw, hclear _ (List.head_mem hw)⟩,
        w.getLast hw, List.getLast?_eq_some_getLast hw, hclear _ (List.getLast_mem hw)⟩
    cases rest with
    | nil => exact hword
    | cons next others =>
      exact hword.append (ih (by simp) fun v hv => h v (List.mem_cons_of_mem _ hv)) [' ']

end Text

end LineageSearch
