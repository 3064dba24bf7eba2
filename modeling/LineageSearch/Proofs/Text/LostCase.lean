import LineageSearch.Proofs.Text.CapitalLetters

/-!
# Letters that lose their case

Most letters can be put into uppercase and back: the lowercase form of the capital is that of the
letter.  This file says which ones cannot (`LosesCase`).  They are the letters that are written
out in uppercase, such as `ß` and the ligatures, and those that share their capital with another
lowercase letter, such as `ſ`, the final sigma and the `ı` without a dot.

* `capital_cases`: for a letter that keeps its case the capital is one letter, of the same
  lowercase form and the same bearing on what follows; for one that loses it, already the first
  letter of the two lowercase forms is another one.
* `lower_upperChar_append_eq_iff`: therefore a text with its first letter in uppercase has the
  lowercase form of the text exactly if that letter keeps its case.
* `lower_joinWith_map_eq_iff`: between blanks and between hyphens lowercase goes piece by piece,
  so a comparison of lowercase forms is one of pieces.
-/

namespace LineageSearch

open CaseRun Text

/-! ## Single letters -/

/-- Whether the capital of a letter leads to another lowercase form than the letter. -/
def LosesCase (c : Char) : Prop :=
  (upperExpansions.lookup c.toNat).isSome = true ∨ c ∈ 'ı' :: lowercaseVariants

instance (c : Char) : Decidable (LosesCase c) :=
  inferInstanceAs (Decidable ((upperExpansions.lookup c.toNat).isSome = true ∨
    c ∈ 'ı' :: lowercaseVariants))

/-- Whether a letter makes a sigma behind it the end of a word. -/
def leavesCased (c : Char) : Bool := if isCaseIgnorable c then false else isCased c

theorem lowerRuns_leadsToScalars : lowerRuns.all leadsToScalars = true := by decide +kernel

namespace Text

/-- At the beginning of a text a letter has the lowercase form that it has alone. -/
theorem lower_cons (c : Char) (rest : Text) :
    lower (c :: rest) = lower [c] ++ lowerAfter (leavesCased c) rest := by
  simp [lower, lowerAfter, leavesCased]

theorem lower_singleton {c : Char} (h : c ≠ 'İ') : lower [c] = [apply lowerRuns c] := by
  by_cases hsigma : c = 'Σ'
  · subst hsigma
    decide +kernel
  · simp [lower, lowerAfter, lowerChar, hsigma, h]

theorem lower_singleton_ne_nil (c : Char) : lower [c] ≠ [] := by
  by_cases hdot : c = 'İ'
  · subst hdot
    decide +kernel
  · simp [lower_singleton hdot]

theorem head?_lower_cons (c : Char) (rest : Text) :
    (lower (c :: rest)).head? = (lower [c]).head? := by
  rw [lower_cons, List.head?_append_of_ne_nil _ (lower_singleton_ne_nil c)]

end Text

/-! ## The table of capitals -/

/-- The letters that the runs of capitals join.  The one mark among them is left out, since case
looks through it. -/
def pairedCodes : List Nat :=
  upperRuns.flatMap fun run =>
    (run.codes.filter (· != 0x345)).flatMap fun n => [n, run.target n]

theorem leavesCased_of_mem_pairedCodes {c : Char} (h : c.toNat ∈ pairedCodes) :
    leavesCased c = true := by
  have hcased : codeSet pairedCodes &&& rangeSet casedRanges = codeSet pairedCodes := by
    decide +kernel
  have hignorable : codeSet pairedCodes &&& rangeSet caseIgnorableRanges = 0 := by
    decide +kernel
  have hcasedAscend : (casedRanges.map Prod.fst).IsChain (· ≤ ·) := by decide +kernel
  have hignorableAscend : (caseIgnorableRanges.map Prod.fst).IsChain (· ≤ ·) := by
    decide +kernel
  have hbit : (codeSet pairedCodes).testBit c.toNat = true := testBit_codeSet.mpr h
  have hisCased : isCased c = true := by
    rw [isCased, inRanges_iff_testBit hcasedAscend]
    rw [← hcased, Nat.testBit_and, Bool.and_eq_true] at hbit
    exact hbit.2
  have hnotIgnorable : ¬ isCaseIgnorable c = true := by
    rw [isCaseIgnorable, inRanges_iff_testBit hignorableAscend]
    intro hboth
    have hand : (codeSet pairedCodes &&& rangeSet caseIgnorableRanges).testBit c.toNat = true := by
      rw [Nat.testBit_and, hbit, hboth, Bool.and_self]
    rw [hignorable, Nat.zero_testBit] at hand
    cases hand
  rw [leavesCased, if_neg hnotIgnorable, hisCased]

/-- A capital has the lowercase code point of its letter, unless the letter loses its case. -/
theorem codeIn_lowerRuns_upperRuns (n : Nat) :
    codeIn lowerRuns (codeIn upperRuns n) = codeIn lowerRuns n ∨
      Char.ofNat n ∈ 'ı' :: lowercaseVariants :=
  codeIn_codeIn_of_absorbs (by decide +kernel) n

/-- The capital of a letter that is not written out has the lowercase form of the letter exactly
if the letter keeps its case. -/
theorem apply_lowerRuns_upperRuns_iff {c : Char}
    (hlookup : upperExpansions.lookup c.toNat = none) :
    apply lowerRuns (apply upperRuns c) = apply lowerRuns c ↔ ¬ LosesCase c := by
  have hcheck : (('ı' :: lowercaseVariants).all fun c =>
      (upperExpansions.lookup c.toNat).isSome ||
        apply lowerRuns (apply upperRuns c) != apply lowerRuns c) = true := by decide +kernel
  have hlost : LosesCase c ↔ c ∈ 'ı' :: lowercaseVariants := by
    simp [LosesCase, hlookup]
  rw [hlost]
  constructor
  · intro hsame hmem
    have hat := List.all_eq_true.mp hcheck c hmem
    simp [hlookup, hsame] at hat
  · intro hmem
    have hcodes := (codeIn_lowerRuns_upperRuns c.toNat).resolve_right (by rwa [Char.ofNat_toNat])
    rwa [← Char.toNat_inj, toNat_apply lowerRuns_leadsToScalars,
      toNat_apply lowerRuns_leadsToScalars, toNat_apply upperRuns_leadsToScalars]

/-- A letter that keeps its case bears on what follows as its capital does. -/
theorem leavesCased_apply_upperRuns {c : Char} (h : ¬ LosesCase c) :
    leavesCased (apply upperRuns c) = leavesCased c := by
  have hnat := toNat_apply upperRuns_leadsToScalars c
  rcases codeIn_eq_self_or_target upperRuns c.toNat with hcode | ⟨run, hrun, hcovers, hcode⟩
  · rw [apply, hcode, Char.ofNat_toNat]
  · have hmark : c.toNat ≠ 0x345 := by
      intro hmark
      refine h ?_
      rw [← Char.ofNat_toNat c, hmark]
      decide +kernel
    have hpaired : ∀ n ∈ [c.toNat, (apply upperRuns c).toNat], n ∈ pairedCodes := by
      rw [hnat, hcode]
      exact fun n hn => List.mem_flatMap.mpr ⟨run, hrun, List.mem_flatMap.mpr ⟨c.toNat,
        List.mem_filter.mpr ⟨mem_codes_of_covers hcovers, by simpa using hmark⟩, hn⟩⟩
    rw [leavesCased_of_mem_pairedCodes (hpaired c.toNat (by simp)),
      leavesCased_of_mem_pairedCodes (hpaired _ (List.mem_cons_of_mem _ (by simp)))]

/-! ## The lowercase form of a capital -/

/-- The dotted capital is neither moved nor reached by a run. -/
theorem apply_upperRuns_ne_dotted {c : Char} (h : c ≠ 'İ') : apply upperRuns c ≠ 'İ' := by
  intro hdot
  have hself : apply upperRuns c = c := apply_eq_self_of_clear 0x130 0x130
    upperRuns_leadsToScalars (by decide +kernel) (Or.inr (by rw [hdot]; decide))
  exact h (hself.symm.trans hdot)

/-- **Either a letter keeps its case, or the loss shows in the first letter of the lowercase
forms.** -/
theorem capital_cases (c : Char) :
    (¬ LosesCase c ∧ ∃ capital, upperChar c = [capital] ∧ lower [capital] = lower [c] ∧
        leavesCased capital = leavesCased c) ∨
      LosesCase c ∧ (lower (upperChar c)).head? ≠ (lower [c]).head? := by
  cases hlookup : upperExpansions.lookup c.toNat with
  | some form =>
    -- no letter that is written out is written with its own lowercase form first
    have hcheck : (upperExpansions.all fun entry =>
        (lower (entry.2.map Char.ofNat)).head? != (lower [Char.ofNat entry.1]).head?) = true := by
      decide +kernel
    have hat := List.all_eq_true.mp hcheck _ (mem_of_lookup hlookup)
    rw [bne_iff_ne, Char.ofNat_toNat] at hat
    refine Or.inr ⟨Or.inl (by simp [hlookup]), ?_⟩
    rwa [upperChar_of_lookup hlookup]
  | none =>
    by_cases hdot : c = 'İ'
    · subst hdot
      exact Or.inl ⟨by decide +kernel, 'İ', by decide +kernel, rfl, rfl⟩
    · have hiff := apply_lowerRuns_upperRuns_iff hlookup
      rw [upperChar_of_lookup_none hlookup, lower_singleton hdot,
        lower_singleton (apply_upperRuns_ne_dotted hdot)]
      by_cases hlost : LosesCase c
      · exact Or.inr ⟨hlost, by simpa using mt hiff.mp (not_not.mpr hlost)⟩
      · refine Or.inl ⟨hlost, apply upperRuns c, rfl, ?_, leavesCased_apply_upperRuns hlost⟩
        rw [lower_singleton (apply_upperRuns_ne_dotted hdot), hiff.mpr hlost]

/-- **Lowercase undoes the capital at the beginning of a text exactly if the first letter keeps
its case.** -/
theorem lower_upperChar_append_eq_iff (c : Char) (rest : Text) :
    lower (upperChar c ++ rest) = lower (c :: rest) ↔ ¬ LosesCase c := by
  rcases capital_cases c with ⟨hkeeps, capital, hform, hlower, hleaves⟩ | ⟨hloses, hhead⟩
  · refine iff_of_true ?_ hkeeps
    rw [hform, List.singleton_append, lower_cons, lower_cons c, hlower, hleaves]
  · refine iff_of_false (fun heq => hhead ?_) (not_not.mpr hloses)
    obtain ⟨first, hfirst, -⟩ := upperChar_head_fixed c
    obtain ⟨others, hform⟩ : ∃ others, upperChar c = first :: others :=
      List.head?_eq_some_iff.mp hfirst
    calc (lower (upperChar c)).head?
      _ = (lower (first :: others)).head? := by rw [hform]
      _ = (lower [first]).head? := head?_lower_cons first others
      _ = (lower (first :: (others ++ rest))).head? :=
        (head?_lower_cons first (others ++ rest)).symm
      _ = (lower (c :: rest)).head? := by rw [← heq, hform, List.cons_append]
      _ = (lower [c]).head? := head?_lower_cons c rest

example : LosesCase 'ß' ∧ LosesCase 'ς' ∧ ¬ LosesCase 'é' := by decide +kernel

theorem not_losesCase_of_isDigit {c : Char} (h : c.isDigit = true) : ¬ LosesCase c := by
  have hcodes : (upperExpansions.all fun entry => Nat.blt 0x39 entry.1) = true := by
    decide +kernel
  have hletters : (('ı' :: lowercaseVariants).all fun c => Nat.blt 0x39 c.toNat) = true := by
    decide +kernel
  have hbound := (isDigit_iff_range.mp h).2
  rintro (hsome | hmem)
  · obtain ⟨form, hform⟩ := Option.isSome_iff_exists.mp hsome
    have hat := List.all_eq_true.mp hcodes _ (mem_of_lookup hform)
    rw [Nat.blt_eq] at hat
    exact absurd hbound (by omega)
  · have hat := List.all_eq_true.mp hletters c hmem
    rw [Nat.blt_eq] at hat
    omega

/-! ## Lowercase between separators -/

/-- Whether a character stands between letters like the end of a text: it has no case, and case
does not look through it. -/
structure IsCaseless (c : Char) : Prop where
  notCased : isCased c = false
  notIgnorable : isCaseIgnorable c = false
  lowerChar : lowerChar c = [c]

theorem isCaseless_space : IsCaseless ' ' := ⟨by decide, by decide, by decide +kernel⟩

theorem isCaseless_hyphen : IsCaseless '-' := ⟨by decide, by decide, by decide +kernel⟩

namespace Text

variable {separator : Char}

theorem leadsToCased_append (h : IsCaseless separator) (before after : Text) :
    leadsToCased (before ++ separator :: after) = leadsToCased before := by
  induction before with
  | nil => simp [leadsToCased, h.notCased, h.notIgnorable]
  | cons c rest ih =>
    by_cases hc : isCaseIgnorable c = true
    · simpa [leadsToCased, hc] using ih
    · simp [leadsToCased, hc]

theorem lowerAfter_append (h : IsCaseless separator) (before after : Text) (afterCased : Bool) :
    lowerAfter afterCased (before ++ separator :: after) =
      lowerAfter afterCased before ++ separator :: lower after := by
  induction before generalizing afterCased with
  | nil =>
    have hsigma : separator ≠ 'Σ' := by
      rintro rfl
      exact absurd h.notCased (by decide)
    simp [lowerAfter, hsigma, h.lowerChar, h.notCased, h.notIgnorable, lower]
  | cons c rest ih =>
    rw [List.cons_append, lowerAfter, lowerAfter, leadsToCased_append h, ih, List.append_assoc]

/-- Lowercase goes piece by piece between separators. -/
theorem lower_joinWith (h : IsCaseless separator) (pieces : List Text) :
    lower (joinWith [separator] pieces) = joinWith [separator] (pieces.map lower) := by
  induction pieces with
  | nil => rfl
  | cons piece rest ih =>
    cases rest with
    | nil => rfl
    | cons next others =>
      calc lower (joinWith [separator] (piece :: next :: others))
        _ = lower (piece ++ separator :: joinWith [separator] (next :: others)) := by
          simp [joinWith]
        _ = lower piece ++ separator :: lower (joinWith [separator] (next :: others)) :=
          lowerAfter_append h piece _ false
        _ = joinWith [separator] ((piece :: next :: others).map lower) := by
          rw [ih]
          simp [joinWith]

/-- A break is the lowercase form of itself only. -/
theorem eq_of_mem_lowerChar {c d : Char} (hbreak : IsBreak c) (h : c ∈ lowerChar d) : c = d := by
  have hclear : (breakRanges.all fun range =>
      lowerRuns.all (clearOf range.1 range.2)) = true := by decide +kernel
  have hdotted : ∀ e ∈ ['i', Char.ofNat 0x307], ¬ IsBreak e := by
    intro e he
    rw [not_isBreak_iff]
    rcases List.mem_pair.mp he with rfl | rfl <;> decide
  rw [lowerChar] at h
  split at h
  · exact absurd hbreak (hdotted c h)
  · obtain rfl := List.mem_singleton.mp h
    obtain ⟨range, hrange, hin⟩ := hbreak
    exact apply_eq_self_of_clear _ _ lowerRuns_leadsToScalars
      (List.all_eq_true.mp hclear range hrange) (Or.inr hin)

/-- Lowercase makes no breaks: a break in a lowercase form was in the text. -/
theorem mem_of_mem_lowerAfter {c : Char} (hbreak : IsBreak c) {t : Text} {afterCased : Bool}
    (h : c ∈ lowerAfter afterCased t) : c ∈ t := by
  have hsigmas : ∀ e ∈ ['ς', 'σ'], ¬ IsBreak e := by
    intro e he
    rw [not_isBreak_iff]
    rcases List.mem_pair.mp he with rfl | rfl <;> decide
  induction t generalizing afterCased with
  | nil => cases h
  | cons d rest ih =>
    rw [lowerAfter, List.mem_append] at h
    rcases h with hform | hrest
    · split at hform
      · have hsigma : c ∈ ['ς', 'σ'] := by
          split at hform <;> simp_all
        exact absurd hbreak (hsigmas c hsigma)
      · rw [eq_of_mem_lowerChar hbreak hform]
        exact List.mem_cons_self ..
    · exact List.mem_cons_of_mem _ (ih hrest)

/-- **Joined pieces have one lowercase form exactly if the pieces have**, where the pieces of
either text hold no separator. -/
theorem lower_joinWith_map_eq_iff {isSeparator : Char → Bool} (h : IsCaseless separator)
    (hseparator : isSeparator separator = true)
    (hbreak : ∀ c, isSeparator c = true → IsBreak c) {change : Text → Text}
    {pieces : List Text} (hpieces : ∀ piece ∈ pieces, ∀ c ∈ piece, isSeparator c = false)
    (hchange : ∀ piece ∈ pieces, ∀ c ∈ change piece, isSeparator c = false) :
    lower (joinWith [separator] (pieces.map change)) = lower (joinWith [separator] pieces) ↔
      ∀ piece ∈ pieces, lower (change piece) = lower piece := by
  have hlower : ∀ t : Text, (∀ c ∈ t, isSeparator c = false) →
      ∀ c ∈ lower t, isSeparator c = false := by
    intro t ht c hc
    by_contra hsep
    rw [Bool.not_eq_false] at hsep
    rw [ht c (mem_of_mem_lowerAfter (hbreak c hsep) hc)] at hsep
    cases hsep
  rw [lower_joinWith h, lower_joinWith h, List.map_map]
  constructor
  · intro heq
    cases pieces with
    | nil => simp
    | cons piece rest =>
      have hcut := congrArg (cut isSeparator) heq
      rw [cut_joinWith hseparator (by simp), cut_joinWith hseparator (by simp)] at hcut
      · exact List.map_inj_left.mp hcut
      · intro other hother
        obtain ⟨original, horiginal, rfl⟩ := List.mem_map.mp hother
        exact hlower _ (hpieces original horiginal)
      · intro other hother
        obtain ⟨original, horiginal, rfl⟩ := List.mem_map.mp hother
        exact hlower _ (hchange original horiginal)
  · exact fun heq => congrArg (joinWith [separator]) (List.map_congr_left heq)

end Text

end LineageSearch
