import LineageSearch.Proofs.Text.CaseFolding
import LineageSearch.Text.Upper

/-!
# Capital letters

A name is capitalized letter by letter, and a search may do so twice.  This file says what
one letter becomes.

* `upperChar_head_fixed`: the first letter of an uppercase form is its own uppercase form.
* `upperChar_cases`: a letter is its own uppercase form, or that form contains no blank, no
  hyphen and no digit.  So capitals never change where the words and parts of a name end.

Most letters are led to their capital by a table of runs, and a hundred are written out.
Both tables are checked entry by entry.
-/

namespace LineageSearch

open CaseRun

/-! ## The two tables -/

theorem upperRuns_leadsToScalars : upperRuns.all leadsToScalars = true := by decide +kernel

/-- The ranges of the blanks, the hyphen and the digits. -/
def breakRanges : List (Nat × Nat) := blankRanges ++ [(0x2D, 0x2D), (0x30, 0x39)]

/-- Whether a character is a blank, a hyphen or a digit. -/
def IsBreak (c : Char) : Prop := ∃ range ∈ breakRanges, range.1 ≤ c.toNat ∧ c.toNat ≤ range.2

theorem isDigit_iff_range {c : Char} :
    c.isDigit = true ↔ 0x30 ≤ c.toNat ∧ c.toNat ≤ 0x39 := by
  simp only [Char.isDigit, Bool.and_eq_true, decide_eq_true_eq, ge_iff_le,
    UInt32.le_iff_toNat_le]
  exact Iff.rfl

theorem isBlank_of_isDigit {c : Char} (h : c.isDigit = true) : isBlank c = false := by
  have hdigit := isDigit_iff_range.mp h
  by_contra hblank
  rw [Bool.not_eq_false, isBlank_iff_range] at hblank
  obtain ⟨range, hrange, hin⟩ := hblank
  simp only [blankRanges, List.mem_cons, List.not_mem_nil, or_false] at hrange
  rcases hrange with rfl | rfl | rfl | rfl | rfl | rfl | rfl | rfl | rfl | rfl | rfl <;> omega

theorem isBreak_iff {c : Char} : IsBreak c ↔ isBlank c = true ∨ c = '-' ∨ c.isDigit = true := by
  have hhyphen : c = '-' ↔ c.toNat = 0x2D := by
    rw [← Char.toNat_inj]
    exact Iff.rfl
  rw [isBlank_iff_range, hhyphen, isDigit_iff_range]
  simp only [IsBreak, breakRanges, List.mem_append, List.mem_cons, List.not_mem_nil, or_false,
    or_and_right, exists_or, exists_eq_left]
  refine or_congr Iff.rfl (or_congr ?_ Iff.rfl)
  omega

theorem not_isBreak_iff {c : Char} :
    ¬ IsBreak c ↔ isBlank c = false ∧ c ≠ '-' ∧ c.isDigit = false := by
  rw [isBreak_iff, not_or, not_or, Bool.not_eq_true, Bool.not_eq_true]

/-- No run leads to a code point that is moved once more. -/
theorem codeIn_upperRuns_target {run : CaseRun} (hrun : run ∈ upperRuns) {n : Nat}
    (hn : n ∈ run.codes) : codeIn upperRuns (run.target n) = run.target n := by
  have hcheck : (upperRuns.all fun run => run.codes.all fun n =>
      codeIn (runsFrom (run.target run.first) upperRuns) (run.target n) ==
        run.target n) = true := by decide +kernel
  have hat := List.all_eq_true.mp (List.all_eq_true.mp hcheck run hrun) n hn
  rwa [codeIn_runsFrom (run.target_mono (first_le_of_mem_codes hn)), beq_iff_eq] at hat

/-- No run leads to a letter that is written out. -/
theorem lookup_upperExpansions_target {run : CaseRun} (hrun : run ∈ upperRuns) {n : Nat}
    (hfirst : run.first ≤ n) (hlast : n ≤ run.last) :
    upperExpansions.lookup (run.target n) = none := by
  have hcheck : (upperExpansions.all fun entry => upperRuns.all fun run =>
      Nat.blt (run.target run.last) entry.1 || Nat.blt entry.1 (run.target run.first)) = true := by
    decide +kernel
  rw [List.lookup_eq_none_iff]
  intro entry hentry
  have hat := List.all_eq_true.mp (List.all_eq_true.mp hcheck entry hentry) run hrun
  have hlow := run.target_mono hfirst
  have hhigh := run.target_mono hlast
  simp only [Bool.or_eq_true, Nat.blt_eq] at hat
  rw [bne_iff_ne]
  omega

/-- A letter that is written out begins with a capital, and with no break in it. -/
theorem form_of_mem_upperExpansions {code : Nat} {form : List Nat}
    (h : (code, form) ∈ upperExpansions) :
    (∃ first ∈ form.head?, first < 0xD800 ∧ upperExpansions.lookup first = none ∧
        codeIn upperRuns first = first) ∧
      ∀ n ∈ form, n < 0xD800 ∧ ∀ range ∈ breakRanges, ¬ (range.1 ≤ n ∧ n ≤ range.2) := by
  have hfirst : (upperExpansions.all fun entry => entry.2.head?.any fun first =>
      (upperExpansions.lookup first).isNone && codeIn upperRuns first == first) = true := by
    decide +kernel
  have hbreaks : (upperExpansions.all fun entry => entry.2.all fun n => Nat.blt n 0xD800 &&
      breakRanges.all fun range => Nat.blt n range.1 || Nat.blt range.2 n) = true := by
    decide +kernel
  have hall : ∀ n ∈ form, n < 0xD800 ∧
      ∀ range ∈ breakRanges, ¬ (range.1 ≤ n ∧ n ≤ range.2) := by
    intro n hn
    have hat := List.all_eq_true.mp (List.all_eq_true.mp hbreaks _ h) n hn
    simp only [Bool.and_eq_true, Nat.blt_eq, List.all_eq_true, Bool.or_eq_true] at hat
    refine ⟨hat.1, fun range hrange => ?_⟩
    have hclear := hat.2 range hrange
    omega
  refine ⟨?_, hall⟩
  have hat := List.all_eq_true.mp hfirst _ h
  simp only [Option.any_eq_true, Bool.and_eq_true, Option.isNone_iff_eq_none, beq_iff_eq] at hat
  obtain ⟨first, hhead, hlookup, hcode⟩ := hat
  exact ⟨first, hhead, (hall first (List.mem_of_head? hhead)).1, hlookup, hcode⟩

/-! ## One letter -/

theorem upperChar_of_lookup {c : Char} {form : List Nat}
    (h : upperExpansions.lookup c.toNat = some form) : upperChar c = form.map Char.ofNat := by
  rw [upperChar, h]

theorem upperChar_of_lookup_none {c : Char} (h : upperExpansions.lookup c.toNat = none) :
    upperChar c = [apply upperRuns c] := by
  rw [upperChar, h]

theorem mem_of_lookup {code : Nat} {form : List Nat}
    (h : upperExpansions.lookup code = some form) : (code, form) ∈ upperExpansions := by
  obtain ⟨before, after, hsplit, -⟩ := List.lookup_eq_some_iff.mp h
  simp [hsplit]

/-- **The first letter of an uppercase form is its own uppercase form.** -/
theorem upperChar_head_fixed (c : Char) :
    ∃ first ∈ (upperChar c).head?, upperChar first = [first] := by
  cases hlookup : upperExpansions.lookup c.toNat with
  | some form =>
    obtain ⟨⟨first, hhead, hscalar, hnone, hcode⟩, -⟩ :=
      form_of_mem_upperExpansions (mem_of_lookup hlookup)
    have hnat : (Char.ofNat first).toNat = first := toNat_ofNat_of_scalar (Or.inl hscalar)
    refine ⟨Char.ofNat first, ?_, ?_⟩
    · rw [upperChar_of_lookup hlookup, List.head?_map]
      exact Option.mem_map_of_mem _ hhead
    · rw [upperChar_of_lookup_none (by rwa [hnat]), apply, hnat, hcode]
  | none =>
    refine ⟨apply upperRuns c, by simp [upperChar_of_lookup_none hlookup], ?_⟩
    have hnat := toNat_apply upperRuns_leadsToScalars c
    rcases codeIn_eq_self_or_target upperRuns c.toNat with hcode | ⟨run, hrun, hcovers, hcode⟩
    · -- the letter is a capital already
      have hself : apply upperRuns c = c := by rw [apply, hcode, Char.ofNat_toNat]
      rw [hself, upperChar_of_lookup_none hlookup, hself]
    · have hbounds : run.first ≤ c.toNat ∧ c.toNat ≤ run.last := by
        simp only [covers, Bool.and_eq_true, decide_eq_true_eq] at hcovers
        exact hcovers.1
      rw [hcode] at hnat
      have hnone := lookup_upperExpansions_target hrun hbounds.1 hbounds.2
      have hfixed := codeIn_upperRuns_target hrun (mem_codes_of_covers hcovers)
      rw [upperChar_of_lookup_none (by rwa [hnat])]
      conv_lhs => rw [apply, hnat, hfixed, ← hnat, Char.ofNat_toNat]

/-- A letter is its own uppercase form, or there is no break in that form. -/
theorem upperChar_cases (c : Char) :
    upperChar c = [c] ∨ ∀ d ∈ upperChar c, isBlank d = false ∧ d ≠ '-' ∧ d.isDigit = false := by
  simp only [← not_isBreak_iff]
  cases hlookup : upperExpansions.lookup c.toNat with
  | some form =>
    right
    intro d hd
    rw [upperChar_of_lookup hlookup, List.mem_map] at hd
    obtain ⟨n, hn, rfl⟩ := hd
    obtain ⟨hscalar, hclear⟩ := (form_of_mem_upperExpansions (mem_of_lookup hlookup)).2 n hn
    rintro ⟨range, hrange, hin⟩
    rw [toNat_ofNat_of_scalar (Or.inl hscalar)] at hin
    exact hclear range hrange hin
  | none =>
    rw [upperChar_of_lookup_none hlookup, List.singleton_inj]
    by_cases hself : apply upperRuns c = c
    · exact Or.inl hself
    · right
      intro d hd
      obtain rfl := List.mem_singleton.mp hd
      have hclear : (breakRanges.all fun range =>
          upperRuns.all (clearOf range.1 range.2)) = true := by decide +kernel
      rintro ⟨range, hrange, hin⟩
      exact hself (apply_eq_self_of_clear _ _ upperRuns_leadsToScalars
        (List.all_eq_true.mp hclear range hrange) (Or.inr hin))

/-- A digit is its own uppercase form. -/
theorem upperChar_of_isDigit {c : Char} (h : c.isDigit = true) : upperChar c = [c] := by
  have hten : ∀ n ∈ List.range' 0x30 10, upperChar (Char.ofNat n) = [Char.ofNat n] := by
    decide +kernel
  obtain ⟨hlow, hhigh⟩ := isDigit_iff_range.mp h
  have hform := hten c.toNat (List.mem_range'_1.mpr (by omega))
  rwa [Char.ofNat_toNat] at hform

end LineageSearch
