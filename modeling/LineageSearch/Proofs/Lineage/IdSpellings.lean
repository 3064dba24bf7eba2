import LineageSearch.Proofs.Lineage.Answers
import LineageSearch.Proofs.Text.SpelledNumbers

/-!
# The spellings of ids

A text of any length is taken for the id of an entity exactly if it spells a number (`Text.Spells`)
under which a panda or a zoo is found.  Leading zeros and a plus sign before them make no
difference.
A number of more than 64 bits is nobody's id: it is read in full and never cut down to the id that
its last 64 bits would be.

Pandas and zoos are counted apart.  A text is an id as soon as one of the two has it, which is when
one of the two searches by id finds something (`hasId_iff_hit`).
-/

namespace LineageSearch.Graph

variable {records : Export} {text : Text} {id : EntityId} {n : Nat}

/-- Reading a number takes one plus sign off and no more. -/
theorem idNumber?_eq_some_iff : idNumber? text = some n ↔ Text.Spells text n := by
  have hnatural : ∀ digits, Text.natural? digits = some n ↔ digits ≠ [] ∧
      (∀ c ∈ digits, '0' ≤ c ∧ c ≤ '9') ∧ Text.decimalValue digits = n := by
    intro digits
    rw [Text.natural?, Option.ite_none_right_eq_some, Text.isDigits_iff, Option.some_inj, and_assoc]
  unfold idNumber?
  split
  · next digits =>
    rw [hnatural]
    constructor
    · exact fun hdigits => ⟨digits, Or.inr rfl, hdigits⟩
    · rintro ⟨others, rfl | hothers, hdigits⟩
      · exact absurd (hdigits.2.1 '+' List.mem_cons_self) (by decide)
      · exact (List.cons.inj hothers).2 ▸ hdigits
  · next hsign =>
    rw [hnatural]
    constructor
    · exact fun hdigits => ⟨text, Or.inl rfl, hdigits⟩
    · rintro ⟨others, rfl | rfl, hdigits⟩
      · exact hdigits
      · exact absurd rfl (hsign others)

theorem hasId_iff_hit :
    records.HasId id ↔ (ofExport records).pandaHit id ≠ [] ∨ (ofExport records).zooHit id ≠ [] := by
  rw [← isSome_or_isSome_iff, Bool.or_eq_true, pandaHit, zooHit]
  cases (ofExport records).panda? id <;> cases (ofExport records).zoo? id <;> simp

theorem knownId?_eq_some_iff_spells :
    (ofExport records).knownId? text = some id ↔
      Text.Spells text id.toNat ∧ records.HasId id := by
  rw [knownId?_eq_some_iff_idNumber?, idNumber?_eq_some_iff]

/-- Of a number that a text spells, nothing is cut off: what is too large is no id. -/
theorem knownId?_eq_none_of_large (h : Text.Spells text n) (hn : UInt64.size ≤ n) :
    (ofExport records).knownId? text = none := by
  cases hknown : (ofExport records).knownId? text with
  | none => rfl
  | some id =>
    have hvalue : id.toNat = n := h.unique (knownId?_eq_some_iff_spells.mp hknown).1
    exact absurd id.toNat_lt_size (Nat.not_lt.mpr (hvalue ▸ hn))

/-- **Ids are known by exactly the spellings of existing ids.**  A text leads to an id if and only
if it spells the number of the id, which is to be the digits of the number behind any number of
zeros, with or without one plus sign, and a panda or a zoo is found under it.  A text that spells a
number of more than 64 bits leads to none, however long it is. -/
theorem knownId?_spellings (records : Export) (text : Text) :
    (∀ id, (ofExport records).knownId? text = some id ↔ Text.Spells text id.toNat ∧
      ((ofExport records).pandaHit id ≠ [] ∨ (ofExport records).zooHit id ≠ [])) ∧
    (∀ n, Text.Spells text n ↔ ∃ zeros, text = List.replicate zeros '0' ++ Text.ofNat n ∨
      text = '+' :: (List.replicate zeros '0' ++ Text.ofNat n)) ∧
    (∀ n, Text.Spells text n → UInt64.size ≤ n → (ofExport records).knownId? text = none) := by
  refine ⟨fun id => ?_, fun n => Text.spells_iff_zeros, fun n => knownId?_eq_none_of_large⟩
  rw [knownId?_eq_some_iff_spells, hasId_iff_hit]

/-- The largest id there can be is that of a zoo and is typed with a sign and a zero, and the number
behind it, which would begin again at the panda of id 0, is nobody's. -/
theorem knownId?_spellings_largest :
    let records : Export := { pandas := [{ id := 0 }], zoos := [{ id := 18446744073709551615 }] }
    Text.Spells "+018446744073709551615".toList (UInt64.toNat 18446744073709551615) ∧
      (ofExport records).zooHit 18446744073709551615 ≠ [] ∧
      (ofExport records).knownId? "+018446744073709551615".toList = some 18446744073709551615 ∧
      (ofExport records).knownId? "000".toList = some 0 ∧
      Text.Spells "018446744073709551616".toList UInt64.size ∧
      (ofExport records).knownId? "018446744073709551616".toList = none := by
  intro records
  obtain ⟨hlargest, hspells, -⟩ := knownId?_spellings records "+018446744073709551615".toList
  obtain ⟨hzero, hspellsZero, -⟩ := knownId?_spellings records "000".toList
  obtain ⟨-, hspellsNext, hnext⟩ := knownId?_spellings records "018446744073709551616".toList
  have hspelled := (hspells (UInt64.toNat 18446744073709551615)).mpr ⟨1, Or.inr (by decide +kernel)⟩
  have hbehind := (hspellsNext UInt64.size).mpr ⟨1, Or.inl (by decide +kernel)⟩
  refine ⟨hspelled, by decide +kernel, (hlargest _).mpr ⟨hspelled, Or.inr (by decide +kernel)⟩, ?_,
    hbehind, hnext _ hbehind (Nat.le_refl _)⟩
  exact (hzero 0).mpr ⟨(hspellsZero 0).mpr ⟨2, Or.inl (by decide)⟩, Or.inl (by decide +kernel)⟩

end LineageSearch.Graph
