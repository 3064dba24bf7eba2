import LineageSearch.Text.Digits
import Mathlib.Data.List.Induction

/-!
# Spelled numbers

A number is spelled by one or more ASCII digits of that value, with or without one plus sign before
them (`Text.Spells`).  Digits can be of any length, so a number has many spellings, and of all of
them only the leading zeros and the sign are free: behind these stand the digits that the number is
written with (`spells_iff_zeros`).

The digits are taken apart from the end, as their value is put together.  In front of the last digit
stand zeros and the digits of a number already.  If that number is zero, its own digit counts as one
more leading zero; otherwise the last digit goes on where it left off.
-/

namespace LineageSearch.Text

variable {digits text : Text} {c : Char} {n : Nat}

/-- Whether a text spells a number: one or more digits of that value, with or without a plus sign
before them. -/
def Spells (text : Text) (n : Nat) : Prop :=
  ∃ digits, (text = digits ∨ text = '+' :: digits) ∧
    digits ≠ [] ∧ (∀ c ∈ digits, '0' ≤ c ∧ c ≤ '9') ∧ decimalValue digits = n

theorem isDigits_iff :
    isDigits digits = true ↔ digits ≠ [] ∧ ∀ c ∈ digits, '0' ≤ c ∧ c ≤ '9' := by
  simp [isDigits, Char.isDigit, Char.le_def]

theorem digitValue_lt_ten (hc : '0' ≤ c ∧ c ≤ '9') : digitValue c < 10 := by
  have hle : c.toNat ≤ 57 := hc.2
  have hzero : '0'.toNat = 48 := rfl
  rw [digitValue]
  omega

/-- A digit is the one that its value is written with. -/
theorem digitChar_digitValue (hc : '0' ≤ c ∧ c ≤ '9') : Nat.digitChar (digitValue c) = c := by
  have hge : 48 ≤ c.toNat := hc.1
  have hzero : '0'.toNat = 48 := rfl
  apply Char.toNat_inj.mp
  rw [Nat.toNat_digitChar_of_lt_ten (digitValue_lt_ten hc), digitValue]
  omega

theorem decimalValue_ofNat (n : Nat) : decimalValue (ofNat n) = n :=
  Nat.ofDigitChars_ten_toDigits

theorem isDigits_ofNat (n : Nat) : isDigits (ofNat n) = true := by
  rw [isDigits, ofNat]
  simp only [Bool.and_eq_true, Bool.not_eq_true', List.isEmpty_eq_false_iff, List.all_eq_true]
  exact ⟨Nat.toDigits_ne_nil, fun c => Nat.isDigit_of_mem_toDigits (by decide) (by decide)⟩

theorem decimalValue_zeros_append (zeros : Nat) (digits : Text) :
    decimalValue (List.replicate zeros '0' ++ digits) = decimalValue digits := by
  show Nat.ofDigitChars 10 (List.replicate zeros '0' ++ digits) 0 = _
  rw [Nat.ofDigitChars_append, Nat.ofDigitChars_replicate_zero, Nat.mul_zero]
  rfl

/-- A number other than zero is written on by one more digit. -/
theorem ofNat_append_digit (hn : 0 < n) (hc : '0' ≤ c ∧ c ≤ '9') :
    ofNat n ++ [c] = ofNat (10 * n + digitValue c) := by
  have hlt := digitValue_lt_ten hc
  rw [ofNat, ofNat, ← Nat.toDigits_append_toDigits (by decide) hn hlt,
    Nat.toDigits_of_lt_base hlt, digitChar_digitValue hc]

/-- **Digits are leading zeros and the digits that their value is written with.** -/
theorem exists_zeros_append (hne : digits ≠ []) (hdigits : ∀ c ∈ digits, '0' ≤ c ∧ c ≤ '9') :
    ∃ zeros, digits = List.replicate zeros '0' ++ ofNat (decimalValue digits) := by
  induction digits using List.reverseRecOn with
  | nil => exact absurd rfl hne
  | append_singleton front last ih =>
    have hlast : '0' ≤ last ∧ last ≤ '9' := hdigits last (by simp)
    have hone : ofNat (digitValue last) = [last] := by
      rw [ofNat, Nat.toDigits_of_lt_base (digitValue_lt_ten hlast), digitChar_digitValue hlast]
    rw [decimalValue_append_singleton]
    by_cases hfront : front = []
    · subst hfront
      refine ⟨0, ?_⟩
      show [last] = ofNat (10 * 0 + digitValue last)
      rw [Nat.mul_zero, Nat.zero_add, hone]
    · obtain ⟨zeros, hzeros⟩ := ih hfront fun c hc => hdigits c (List.mem_append_left _ hc)
      rcases Nat.eq_zero_or_pos (decimalValue front) with hvalue | hvalue
      · refine ⟨zeros + 1, ?_⟩
        rw [hvalue] at hzeros
        rw [hvalue, Nat.mul_zero, Nat.zero_add, hone, hzeros, List.replicate_succ']
        rfl
      · refine ⟨zeros, ?_⟩
        rw [← ofNat_append_digit hvalue hlast, ← List.append_assoc, ← hzeros]

/-- A number is written without leading zeros. -/
theorem eq_nil_of_ofNat_eq_zero_cons (h : ofNat n = '0' :: digits) : digits = [] := by
  by_contra hne
  obtain ⟨-, hall⟩ := isDigits_iff.mp (isDigits_ofNat n)
  obtain ⟨zeros, hzeros⟩ := exists_zeros_append hne fun c hc =>
    hall c (h ▸ List.mem_cons_of_mem _ hc)
  -- the digits behind the zero have the value of the number, so they are no fewer than its digits
  have hvalue : decimalValue digits = n := by
    calc decimalValue digits
        = decimalValue (List.replicate 1 '0' ++ digits) := (decimalValue_zeros_append 1 digits).symm
      _ = decimalValue (ofNat n) := congrArg decimalValue h.symm
      _ = n := decimalValue_ofNat n
  have hlength := congrArg List.length hzeros
  rw [hvalue, h, List.length_append, List.length_cons] at hlength
  omega

/-- **A number is spelled by its digits behind any number of zeros, with or without a plus sign
before them.** -/
theorem spells_iff_zeros :
    Spells text n ↔ ∃ zeros, text = List.replicate zeros '0' ++ ofNat n ∨
      text = '+' :: (List.replicate zeros '0' ++ ofNat n) := by
  constructor
  · rintro ⟨digits, htext, hne, hdigits, rfl⟩
    obtain ⟨zeros, hzeros⟩ := exists_zeros_append hne hdigits
    exact ⟨zeros, hzeros ▸ htext⟩
  · rintro ⟨zeros, htext⟩
    obtain ⟨hne, hdigits⟩ := isDigits_iff.mp (isDigits_ofNat n)
    refine ⟨List.replicate zeros '0' ++ ofNat n, htext, ?_, ?_, ?_⟩
    · exact List.append_ne_nil_of_right_ne_nil _ hne
    · intro c hc
      rcases List.mem_append.mp hc with hc | hc
      · rw [List.eq_of_mem_replicate hc]
        decide
      · exact hdigits c hc
    · rw [decimalValue_zeros_append, decimalValue_ofNat]

/-- A text spells one number at most. -/
theorem Spells.unique {m : Nat} (h : Spells text n) (hm : Spells text m) : m = n := by
  obtain ⟨digits, htext, -, hdigits, rfl⟩ := h
  obtain ⟨others, hothers, -, hall, rfl⟩ := hm
  -- a sign is no digit
  have hplus : ¬ ('0' ≤ '+' ∧ '+' ≤ '9') := by decide
  rcases htext with rfl | rfl <;> rcases hothers with hothers | hothers
  · rw [hothers]
  · exact absurd (hdigits '+' (hothers ▸ List.mem_cons_self)) hplus
  · exact absurd (hall '+' (hothers ▸ List.mem_cons_self)) hplus
  · rw [(List.cons.inj hothers).2]

end LineageSearch.Text
