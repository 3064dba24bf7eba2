import LineageSearch.Text.CaseRun
import Mathlib.Data.List.Basic

/-!
# What a table of case runs does

A table changes the code points that one of its runs covers and no other, so a fact about
every character is a finite check over the runs.  Five kinds of check suffice.

* `codeIn_cases`: a relation between a code point and its other case holds everywhere if it
  holds on the diagonal and at the code points of every run.
* `apply_eq_self_of_clear`: a table leaves a range alone if no run begins, ends or leads
  there.
* `codeIn_runsFrom`: a look-up may start behind the runs that end before the code point.
  The checks over code points use it, or they would walk the whole table each time.
* `codeIn_codeIn_of_absorbs`: a table gives the same behind another one, if it takes what the
  runs of the other one lead to for what they came from.
* `inRanges_iff_testBit`: a table of ranges is a set of code points, and sets are numbers, whose
  bits are compared all at once.

The checks are evaluated by the kernel, so they are written with tests on numbers that
evaluate fast.
-/

namespace LineageSearch.CaseRun

/-! ## The code points of a run -/

/-- The code points that a run covers. -/
def codes (run : CaseRun) : List Nat :=
  (List.range ((run.last - run.first) / run.step + 1)).map fun i => run.first + i * run.step

theorem mem_codes_of_covers {run : CaseRun} {n : Nat} (h : run.covers n = true) :
    n ∈ run.codes := by
  simp only [covers, Bool.and_eq_true, decide_eq_true_eq, beq_iff_eq] at h
  obtain ⟨⟨hfirst, hlast⟩, hstep⟩ := h
  refine List.mem_map.mpr ⟨(n - run.first) / run.step, List.mem_range.mpr ?_, ?_⟩
  · exact Nat.lt_succ_of_le (Nat.div_le_div_right (by omega))
  · have hsplit := Nat.div_add_mod (n - run.first) run.step
    rw [hstep, Nat.add_zero, Nat.mul_comm] at hsplit
    omega

theorem first_le_of_mem_codes {run : CaseRun} {n : Nat} (h : n ∈ run.codes) :
    run.first ≤ n := by
  obtain ⟨i, -, rfl⟩ := List.mem_map.mp h
  exact Nat.le_add_right _ _

theorem target_mono (run : CaseRun) {m n : Nat} (h : m ≤ n) : run.target m ≤ run.target n := by
  unfold target
  omega

/-- A relation between code points and their other case, checked run by run. -/
theorem codeIn_cases {runs : List CaseRun} {motive : Nat → Nat → Prop}
    (hself : ∀ n, motive n n)
    (hruns : ∀ run ∈ runs, ∀ n ∈ run.codes, motive n (run.target n)) (n : Nat) :
    motive n (codeIn runs n) := by
  rcases codeIn_eq_self_or_target runs n with hcode | ⟨run, hrun, hcovers, hcode⟩
  · rw [hcode]
    exact hself n
  · rw [hcode]
    exact hruns run hrun n (mem_codes_of_covers hcovers)

/-! ## Looking up in the rest of a table -/

/-- The runs of a table from the first one that does not end before a code point. -/
def runsFrom (low : Nat) : List CaseRun → List CaseRun
  | [] => []
  | run :: runs =>
    bif Nat.ble low run.last || Nat.ble low run.first then run :: runs else runsFrom low runs

theorem codeIn_runsFrom {low n : Nat} (h : low ≤ n) (runs : List CaseRun) :
    codeIn (runsFrom low runs) n = codeIn runs n := by
  induction runs with
  | nil => rfl
  | cons run runs ih =>
    rw [runsFrom]
    by_cases hreach : low ≤ run.last ∨ low ≤ run.first
    · have htest : (Nat.ble low run.last || Nat.ble low run.first) = true := by
        simpa [Nat.ble_eq] using hreach
      rw [htest, cond_true]
    · have htest : (Nat.ble low run.last || Nat.ble low run.first) = false := by
        rw [← Bool.not_eq_true, Bool.or_eq_true, Nat.ble_eq, Nat.ble_eq]
        exact hreach
      rw [htest, cond_false, ih, codeIn, if_neg (by omega), if_neg (by omega)]

/-- Whether a table takes all code points that a run leads to for what they came from, some
characters aside. -/
def absorbs (runs : List CaseRun) (others : List Char) (run : CaseRun) : Bool :=
  run.codes.all fun n =>
    codeIn (runsFrom (run.target run.first) runs) (run.target n) ==
      codeIn (runsFrom run.first runs) n || others.contains (Char.ofNat n)

/-- A table that absorbs the runs of another one does the same behind it as without it. -/
theorem codeIn_codeIn_of_absorbs {moves runs : List CaseRun} {others : List Char}
    (h : moves.all (absorbs runs others) = true) (n : Nat) :
    codeIn runs (codeIn moves n) = codeIn runs n ∨ Char.ofNat n ∈ others := by
  refine codeIn_cases (motive := fun n other =>
    codeIn runs other = codeIn runs n ∨ Char.ofNat n ∈ others) (fun _ => Or.inl rfl)
    (fun run hrun n hn => ?_) n
  have hfirst : run.first ≤ n := first_le_of_mem_codes hn
  have hat := List.all_eq_true.mp (List.all_eq_true.mp h run hrun) n hn
  rwa [codeIn_runsFrom (run.target_mono hfirst), codeIn_runsFrom hfirst, Bool.or_eq_true,
    beq_iff_eq, List.contains_iff_mem] at hat

/-! ## Ranges that a table leaves alone -/

/-- Whether all code points that a run leads to are scalar values. -/
def leadsToScalars (run : CaseRun) : Bool :=
  Nat.blt (run.target run.last) 0xD800 ||
    Nat.blt 0xDFFF (run.target run.first) && Nat.blt (run.target run.last) 0x110000

theorem toNat_ofNat_of_scalar {n : Nat} (h : n < 0xD800 ∨ 0xDFFF < n ∧ n < 0x110000) :
    (Char.ofNat n).toNat = n := by
  have hvalid : n.isValidChar := h
  rw [Char.ofNat, dif_pos hvalid]
  exact UInt32.toNat_ofNatLT ..

theorem toNat_apply {runs : List CaseRun} (hscalars : runs.all leadsToScalars = true)
    (c : Char) : (apply runs c).toNat = codeIn runs c.toNat := by
  rw [apply]
  rcases codeIn_eq_self_or_target runs c.toNat with hcode | ⟨run, hrun, hcovers, hcode⟩
  · rw [hcode, Char.ofNat_toNat]
  · have hscalar := List.all_eq_true.mp hscalars run hrun
    simp only [leadsToScalars, Bool.or_eq_true, Bool.and_eq_true, Nat.blt_eq] at hscalar
    simp only [covers, Bool.and_eq_true, decide_eq_true_eq] at hcovers
    have hlow := run.target_mono hcovers.1.1
    have hhigh := run.target_mono hcovers.1.2
    rw [hcode]
    exact toNat_ofNat_of_scalar (by omega)

/-- Whether a run neither covers nor leads to a code point between two bounds. -/
def clearOf (low high : Nat) (run : CaseRun) : Bool :=
  (Nat.blt run.last low || Nat.blt high run.first) &&
    (Nat.blt (run.target run.last) low || Nat.blt high (run.target run.first))

/-- A table whose runs are clear of a range changes no character of the range, and changes
no character into one of it. -/
theorem apply_eq_self_of_clear (low high : Nat) {runs : List CaseRun} {c : Char}
    (hscalars : runs.all leadsToScalars = true) (hclear : runs.all (clearOf low high) = true)
    (h : low ≤ c.toNat ∧ c.toNat ≤ high ∨
      low ≤ (apply runs c).toNat ∧ (apply runs c).toNat ≤ high) :
    apply runs c = c := by
  rw [toNat_apply hscalars] at h
  rcases codeIn_eq_self_or_target runs c.toNat with hcode | ⟨run, hrun, hcovers, hcode⟩
  · rw [apply, hcode, Char.ofNat_toNat]
  · exfalso
    have hrunClear := List.all_eq_true.mp hclear run hrun
    simp only [clearOf, Bool.or_eq_true, Bool.and_eq_true, Nat.blt_eq] at hrunClear
    simp only [covers, Bool.and_eq_true, decide_eq_true_eq] at hcovers
    have hlow := run.target_mono hcovers.1.1
    have hhigh := run.target_mono hcovers.1.2
    omega

end LineageSearch.CaseRun

/-! ## Sets of code points -/

namespace LineageSearch

/-- The set of listed code points, as a number with a bit for each of them. -/
def codeSet (codes : List Nat) : Nat := codes.foldr (fun n set => 1 <<< n ||| set) 0

/-- The set of the code points in the ranges of a table. -/
def rangeSet (ranges : List (Nat × Nat)) : Nat :=
  ranges.foldr (fun range set => (1 <<< (range.2 + 1 - range.1) - 1) <<< range.1 ||| set) 0

theorem testBit_codeSet {codes : List Nat} {n : Nat} :
    (codeSet codes).testBit n = true ↔ n ∈ codes := by
  induction codes with
  | nil => simp [codeSet]
  | cons code rest ih =>
    have hstep : codeSet (code :: rest) = 1 <<< code ||| codeSet rest := rfl
    rw [hstep, Nat.testBit_or, Bool.or_eq_true, ih, Nat.one_shiftLeft, Nat.testBit_two_pow,
      decide_eq_true_eq, List.mem_cons, eq_comm]

theorem testBit_rangeSet {ranges : List (Nat × Nat)} {n : Nat} :
    (rangeSet ranges).testBit n = true ↔ ∃ range ∈ ranges, range.1 ≤ n ∧ n ≤ range.2 := by
  induction ranges with
  | nil => simp [rangeSet]
  | cons range rest ih =>
    have hstep : rangeSet (range :: rest) =
        (1 <<< (range.2 + 1 - range.1) - 1) <<< range.1 ||| rangeSet rest := rfl
    rw [hstep, Nat.testBit_or, Bool.or_eq_true, ih, Nat.testBit_shiftLeft, Nat.one_shiftLeft,
      Nat.testBit_two_pow_sub_one, Bool.and_eq_true, decide_eq_true_eq, decide_eq_true_eq,
      List.exists_mem_cons_iff]
    refine or_congr ?_ Iff.rfl
    omega

/-- Looking up in an ascending table finds the code points of its ranges. -/
theorem inRanges_iff_testBit {ranges : List (Nat × Nat)}
    (hascending : (ranges.map Prod.fst).IsChain (· ≤ ·)) {n : Nat} :
    inRanges ranges n = true ↔ (rangeSet ranges).testBit n = true := by
  rw [testBit_rangeSet]
  replace hascending := List.isChain_iff_pairwise.mp hascending
  induction ranges with
  | nil => simp [inRanges]
  | cons range rest ih =>
    obtain ⟨hfirst, hrest⟩ := List.pairwise_cons.mp hascending
    have hlaterIff : inRanges rest n = true ↔ ∃ later ∈ rest, later.1 ≤ n ∧ n ≤ later.2 :=
      ih hrest
    rw [inRanges, Bool.and_eq_true, Bool.or_eq_true, decide_eq_true_eq, decide_eq_true_eq,
      hlaterIff, List.exists_mem_cons_iff, and_or_left]
    refine or_congr Iff.rfl (and_iff_right_of_imp ?_)
    rintro ⟨later, hlater, hlow, -⟩
    exact Nat.le_trans (hfirst later.1 (List.mem_map_of_mem hlater)) hlow

end LineageSearch
