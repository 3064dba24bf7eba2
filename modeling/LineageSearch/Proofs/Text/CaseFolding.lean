import LineageSearch.Proofs.Text.CaseTables
import LineageSearch.Proofs.Text.Words
import LineageSearch.Text.Fold
import LineageSearch.Text.Lower

/-!
# Folding, blanks and lowercase

Keywords are recognised up to folding and looked up in lowercase.  This file says how the
two notions of case sit together.

* `isBlank_fold`: folding neither makes nor removes a blank, so folding a trimmed text and
  trimming a folded one are the same (`map_fold_trim`).
* `lowerChar_fold`: letters that fold alike have the same lowercase form, with the
  exception of the 25 letters of `lowercaseVariants`.  These are lowercase already and are
  their own lowercase form, but fold to another lowercase letter: `ſ` folds to `s`, `ς` to
  `σ`, the micro sign to `μ`.
* `lower_eq_flatMap`: a text without a capital sigma is put into lowercase letter by letter.
* `CaseAgrees`: letters for which looking up by lowercase is looking up by folding
  (`lower_eq_of_sameFolded`, `sameFolded_of_lower_eq`).
-/

namespace LineageSearch

open CaseRun

/-! ## Folding and blanks -/

theorem foldRuns_leadsToScalars : foldRuns.all leadsToScalars = true := by decide +kernel

/-- The ranges of the blank characters. -/
def blankRanges : List (Nat × Nat) :=
  [(0x9, 0xD), (0x20, 0x20), (0x85, 0x85), (0xA0, 0xA0), (0x1680, 0x1680), (0x2000, 0x200A),
    (0x2028, 0x2028), (0x2029, 0x2029), (0x202F, 0x202F), (0x205F, 0x205F), (0x3000, 0x3000)]

theorem isBlank_iff_range {c : Char} :
    isBlank c = true ↔ ∃ range ∈ blankRanges, range.1 ≤ c.toNat ∧ c.toNat ≤ range.2 := by
  simp only [isBlank, blankRanges, Bool.or_eq_true, Bool.and_eq_true, decide_eq_true_eq,
    beq_iff_eq, List.mem_cons, List.not_mem_nil, or_false, exists_eq_or_imp, exists_eq_left]
  omega

/-- A table that is clear of the blanks neither makes nor removes one. -/
theorem isBlank_apply {runs : List CaseRun} (hscalars : runs.all leadsToScalars = true)
    (hclear : (blankRanges.all fun range => runs.all (clearOf range.1 range.2)) = true)
    (c : Char) : isBlank (apply runs c) = isBlank c := by
  by_cases hself : apply runs c = c
  · rw [hself]
  · -- a character that the table moves is no blank, neither before nor after
    have hnone : ∀ range ∈ blankRanges, ¬ (range.1 ≤ c.toNat ∧ c.toNat ≤ range.2 ∨
        range.1 ≤ (apply runs c).toNat ∧ (apply runs c).toNat ≤ range.2) := by
      intro range hrange hin
      have hrangeClear := List.all_eq_true.mp hclear range hrange
      exact hself (apply_eq_self_of_clear _ _ hscalars hrangeClear hin)
    have hbefore : ¬ isBlank c = true := fun hblank => by
      obtain ⟨range, hrange, hin⟩ := isBlank_iff_range.mp hblank
      exact hnone range hrange (Or.inl hin)
    have hafter : ¬ isBlank (apply runs c) = true := fun hblank => by
      obtain ⟨range, hrange, hin⟩ := isBlank_iff_range.mp hblank
      exact hnone range hrange (Or.inr hin)
    simp only [Bool.not_eq_true] at hbefore hafter
    rw [hbefore, hafter]

@[simp] theorem isBlank_fold (c : Char) : isBlank (fold c) = isBlank c :=
  isBlank_apply foldRuns_leadsToScalars (by decide +kernel) c

theorem isBlank_comp_fold : isBlank ∘ fold = isBlank := funext isBlank_fold

namespace Text

theorem map_fold_trim (t : Text) : (trim t).map fold = trim (t.map fold) := by
  simp only [trim, trimEnd, trimStart, List.dropWhile_map, isBlank_comp_fold,
    ← List.map_reverse]

/-! ## Texts that fold alike -/

theorem sameFolded_iff {a b : Text} : sameFolded a b = true ↔ a.map fold = b.map fold := by
  rw [sameFolded, beq_iff_eq]

theorem length_eq_of_sameFolded {a b : Text} (h : sameFolded a b = true) :
    a.length = b.length := by
  simpa using congrArg List.length (sameFolded_iff.mp h)

theorem sameFolded_trim {a b : Text} (h : sameFolded a b = true) :
    sameFolded (trim a) (trim b) = true := by
  rw [sameFolded_iff, map_fold_trim, map_fold_trim, sameFolded_iff.mp h]

theorem isTight_map_fold {t : Text} : IsTight (t.map fold) ↔ IsTight t := by
  simp [IsTight, List.head?_map, List.getLast?_map]

theorem isTight_of_sameFolded {a b : Text} (h : sameFolded a b = true) (ha : IsTight a) :
    IsTight b := by
  rwa [← isTight_map_fold, ← sameFolded_iff.mp h, isTight_map_fold]

end Text

/-! ## The lowercase form of letters that fold alike -/

/-- The letters that are lowercase and yet fold to another lowercase letter. -/
def lowercaseVariants : List Char :=
  [0xB5, 0x17F, 0x345, 0x3C2, 0x3D0, 0x3D1, 0x3D5, 0x3D6, 0x3F0, 0x3F1, 0x3F5, 0x1C80, 0x1C81,
    0x1C82, 0x1C83, 0x1C84, 0x1C85, 0x1C86, 0x1C87, 0x1C88, 0x1E9B, 0x1FBE, 0x1FD3, 0x1FE3,
    0xFB05].map Char.ofNat

theorem lowerChar_of_mem_lowercaseVariants {c : Char} (h : c ∈ lowercaseVariants) :
    lowerChar c = [c] := by
  have hcheck : (lowercaseVariants.all fun c => lowerChar c == [c]) = true := by decide +kernel
  exact beq_iff_eq.mp (List.all_eq_true.mp hcheck c h)

theorem fold_ne_of_mem_lowercaseVariants {c : Char} (h : c ∈ lowercaseVariants) :
    lowerChar (fold c) ≠ [c] := by
  have hcheck : (lowercaseVariants.all fun c => lowerChar (fold c) != [c]) = true := by
    decide +kernel
  exact bne_iff_ne.mp (List.all_eq_true.mp hcheck c h)

/-- Folding keeps the lowercase code point of all but the variants, checked run by run. -/
theorem codeIn_lowerRuns_foldRuns (n : Nat) :
    codeIn lowerRuns (codeIn foldRuns n) = codeIn lowerRuns n ∨
      Char.ofNat n ∈ lowercaseVariants :=
  codeIn_codeIn_of_absorbs (by decide +kernel) n

/-- Letters that fold alike have one lowercase form, unless they are variants. -/
theorem lowerChar_fold {c : Char} (h : c ∉ lowercaseVariants) :
    lowerChar (fold c) = lowerChar c := by
  by_cases hdot : c = 'İ' ∨ fold c = 'İ'
  · -- nothing folds to the dotted capital but itself
    have hself : fold c = c := apply_eq_self_of_clear 0x130 0x130
      foldRuns_leadsToScalars (by decide +kernel) (by
        rcases hdot with rfl | hfold
        · exact Or.inl (by decide)
        · exact Or.inr (by rw [← fold, hfold]; decide))
    rw [hself]
  · obtain ⟨hc, hfold⟩ := not_or.mp hdot
    have hcode := (codeIn_lowerRuns_foldRuns c.toNat).resolve_right (by rwa [Char.ofNat_toNat])
    rw [lowerChar, lowerChar, if_neg hc, if_neg hfold, apply, apply, fold,
      toNat_apply foldRuns_leadsToScalars, hcode]

/-! ## Lowercase letter by letter -/

namespace Text

/-- The capital sigma is the one letter whose lowercase form depends on its neighbours. -/
theorem lowerAfter_eq_flatMap {t : Text} (h : 'Σ' ∉ t) (afterCased : Bool) :
    lowerAfter afterCased t = t.flatMap lowerChar := by
  induction t generalizing afterCased with
  | nil => rfl
  | cons c rest ih =>
    obtain ⟨hc, hrest⟩ := not_or.mp (fun hmem => h (List.mem_cons.mpr hmem))
    rw [lowerAfter, if_neg (Ne.symm hc), ih hrest, List.flatMap_cons]

theorem lower_eq_flatMap {t : Text} (h : 'Σ' ∉ t) : lower t = t.flatMap lowerChar :=
  lowerAfter_eq_flatMap h false

end Text

/-! ## Letters on which the two notions of case agree -/

/-- Whether lowercase and folding take a letter for the same as each other: it is no variant
and no sigma, and its lowercase form folds as the letter does. -/
def CaseAgrees (c : Char) : Prop :=
  c ∉ lowercaseVariants ∧ fold c ≠ 'σ' ∧ (lowerChar c).map fold = [fold c]

instance (c : Char) : Decidable (CaseAgrees c) :=
  inferInstanceAs (Decidable (c ∉ lowercaseVariants ∧ fold c ≠ 'σ' ∧
    (lowerChar c).map fold = [fold c]))

namespace Text

variable {a b t : Text}

theorem lower_eq_flatMap_of_fold_ne (h : ∀ c ∈ t, fold c ≠ 'σ') :
    lower t = t.flatMap lowerChar := by
  refine lower_eq_flatMap fun hsigma => h _ hsigma ?_
  decide +kernel

/-- Without variants, the lowercase form of a text is that of the folded text. -/
theorem lower_eq_flatMap_map_fold (hvariants : ∀ c ∈ t, c ∉ lowercaseVariants)
    (hsigma : ∀ c ∈ t, fold c ≠ 'σ') : lower t = (t.map fold).flatMap lowerChar := by
  rw [lower_eq_flatMap_of_fold_ne hsigma, List.flatMap_map]
  exact List.flatMap_congr fun c hc => (lowerChar_fold (hvariants c hc)).symm

theorem map_fold_lower (h : ∀ c ∈ t, CaseAgrees c) : (lower t).map fold = t.map fold := by
  rw [lower_eq_flatMap_of_fold_ne fun c hc => (h c hc).2.1, List.map_flatMap,
    List.map_eq_flatMap]
  exact List.flatMap_congr fun c hc => (h c hc).2.2

/-- A text that folds like one without sigmas has none either. -/
theorem fold_ne_of_sameFolded (h : sameFolded a b = true) (hsigma : ∀ c ∈ a, fold c ≠ 'σ') :
    ∀ c ∈ b, fold c ≠ 'σ' := by
  intro c hc heq
  have hmem : 'σ' ∈ a.map fold := by
    rw [sameFolded_iff.mp h, ← heq]
    exact List.mem_map_of_mem hc
  obtain ⟨other, hother, hfold⟩ := List.mem_map.mp hmem
  exact hsigma other hother hfold

/-- Texts that fold alike have one lowercase form, if their letters agree and are no
variants. -/
theorem lower_eq_of_sameFolded (ha : ∀ c ∈ a, CaseAgrees c)
    (hb : ∀ c ∈ b, c ∉ lowercaseVariants) (h : sameFolded a b = true) : lower a = lower b := by
  have hsigma : ∀ c ∈ a, fold c ≠ 'σ' := fun c hc => (ha c hc).2.1
  rw [lower_eq_flatMap_map_fold (fun c hc => (ha c hc).1) hsigma,
    lower_eq_flatMap_map_fold hb (fold_ne_of_sameFolded h hsigma), sameFolded_iff.mp h]

/-- Texts of agreeing letters with one lowercase form fold alike. -/
theorem sameFolded_of_lower_eq (ha : ∀ c ∈ a, CaseAgrees c) (hb : ∀ c ∈ b, CaseAgrees c)
    (h : lower a = lower b) : sameFolded a b = true := by
  rw [sameFolded_iff, ← map_fold_lower ha, h, map_fold_lower hb]

theorem mem_lower_of_variant {c : Char} (hsigma : ∀ d ∈ t, fold d ≠ 'σ') (hmem : c ∈ t)
    (hc : c ∈ lowercaseVariants) : c ∈ lower t := by
  rw [lower_eq_flatMap_of_fold_ne hsigma]
  refine List.mem_flatMap.mpr ⟨c, hmem, ?_⟩
  rw [lowerChar_of_mem_lowercaseVariants hc]
  exact List.mem_singleton_self c

/-- No agreeing letter has a variant for its lowercase form. -/
theorem not_variant_of_mem_lower (h : ∀ c ∈ t, CaseAgrees c) :
    ∀ c ∈ lower t, c ∉ lowercaseVariants := by
  intro c hc hvariant
  rw [lower_eq_flatMap_of_fold_ne fun d hd => (h d hd).2.1] at hc
  obtain ⟨d, hd, hform⟩ := List.mem_flatMap.mp hc
  obtain ⟨hd, -, hfolded⟩ := h d hd
  -- the lowercase form is the variant alone, and the letter folds like the variant
  obtain ⟨e, he⟩ : ∃ e, lowerChar d = [e] := by
    rw [← List.length_eq_one_iff, ← List.length_map fold, hfolded, List.length_singleton]
  obtain rfl : c = e := by simpa [he] using hform
  have hfold : fold c = fold d := by simpa [he] using hfolded
  refine fold_ne_of_mem_lowercaseVariants hvariant ?_
  rw [hfold, lowerChar_fold hd, he]

end Text

end LineageSearch
