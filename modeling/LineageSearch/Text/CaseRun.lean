import LineageSearch.Text.Basic

/-!
# Runs of letters that change case alike

Scripts place the two cases of their letters in parallel rows or side by side.  A run
names a row of letters at equal steps whose other case lies a fixed distance away, so a
few hundred runs hold the case of every letter of Unicode.

Tables of runs, and tables of ranges, ascend and do not overlap.  A search may therefore
stop at the first entry that begins behind the code point it looks for.
-/

namespace LineageSearch

/-- The code points from `first` to `last` at steps of `step`, whose other case lies
`offset` code points further on. -/
structure CaseRun where
  first : Nat
  last : Nat
  step : Nat
  offset : Int
deriving Repr, DecidableEq

namespace CaseRun

/-- Whether a code point belongs to the run. -/
def covers (run : CaseRun) (n : Nat) : Bool :=
  run.first ≤ n && n ≤ run.last && (n - run.first) % run.step == 0

def target (run : CaseRun) (n : Nat) : Nat := ((n : Int) + run.offset).toNat

/-- The other case of a code point by an ascending table; a code point that no run covers
keeps its case. -/
def codeIn : List CaseRun → Nat → Nat
  | [], n => n
  | run :: runs, n =>
    if n < run.first then n
    else if n ≤ run.last then if run.covers n then run.target n else n
    else codeIn runs n

/-- The other case of a character by an ascending table. -/
def apply (runs : List CaseRun) (c : Char) : Char := Char.ofNat (codeIn runs c.toNat)

/-- A changed code point is covered by a run of the table and moved by its offset. -/
theorem codeIn_eq_self_or_target (runs : List CaseRun) (n : Nat) :
    codeIn runs n = n ∨ ∃ run ∈ runs, run.covers n = true ∧ codeIn runs n = run.target n := by
  induction runs with
  | nil => exact Or.inl rfl
  | cons run runs ih =>
    rw [codeIn]
    by_cases hbefore : n < run.first
    · simp [hbefore]
    · by_cases hwithin : n ≤ run.last
      · by_cases hcovers : run.covers n = true
        · exact Or.inr ⟨run, by simp, hcovers, by simp [hbefore, hwithin, hcovers]⟩
        · simp [hbefore, hwithin, hcovers]
      · simp only [hbefore, hwithin, if_false]
        rcases ih with hself | ⟨found, hmem, hcovers, htarget⟩
        · exact Or.inl hself
        · exact Or.inr ⟨found, List.mem_cons_of_mem _ hmem, hcovers, htarget⟩

end CaseRun

/-- Whether a code point lies in one of the ranges of an ascending table. -/
def inRanges : List (Nat × Nat) → Nat → Bool
  | [], _ => false
  | (first, last) :: ranges, n => first ≤ n && (n ≤ last || inRanges ranges n)

end LineageSearch
