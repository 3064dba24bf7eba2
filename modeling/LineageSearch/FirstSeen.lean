/-!
# Distinct values in first-seen order

A list of hits names the same panda more than once, and a group of synonyms the same
word.  What is left after dropping repeats is the distinct values, each at the place
where it was seen first.
-/

namespace LineageSearch

variable {α : Type} [DecidableEq α]

/-- The distinct values, each where it was seen first. -/
def firstSeen : List α → List α
  | [] => []
  | a :: rest => a :: (firstSeen rest).filter (· ≠ a)

@[simp] theorem mem_firstSeen {a : α} {l : List α} : a ∈ firstSeen l ↔ a ∈ l := by
  induction l with
  | nil => simp [firstSeen]
  | cons b rest ih =>
    by_cases hab : a = b
    · simp [firstSeen, hab]
    · simp [firstSeen, hab, ih]

theorem nodup_firstSeen (l : List α) : (firstSeen l).Nodup := by
  induction l with
  | nil => simp [firstSeen]
  | cons b rest ih => exact List.nodup_cons.mpr ⟨by simp, List.Pairwise.filter _ ih⟩

end LineageSearch
