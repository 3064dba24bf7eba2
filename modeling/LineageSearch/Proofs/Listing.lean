import LineageSearch.FirstSeen
import Mathlib.Data.List.Induction
import Mathlib.Data.List.Nodup
import Mathlib.Data.List.Sort

/-!
# What a list holds, and in which order

Answers and reports are lists that no one sorts: they are in order because loops visit things in
order.  `ListsBy` says of a list what it holds and that it ascends by the places of its items.
Both together leave no choice (`ListsBy.eq_iff`), so a list is described completely by them.

* `pairwise_flatMap_place`: nested loops visit places in the order of the outer loop, and in that
  of the inner loop where the outer one stands still.
* `pairwise_idxOf_firstSeen`: the distinct values of a list come in the order of their first
  occurrences.
-/

namespace LineageSearch

/-! ## Lists in order of places -/

section ListsBy

variable {α β : Type} {placeOf : α → List Nat} {answer : α → Prop} {items : List α}

/-- Whether items are exactly those of an answer, by strictly ascending places.  Places are compared
number by number. -/
def ListsBy (placeOf : α → List Nat) (answer : α → Prop) (items : List α) : Prop :=
  items.Pairwise (fun a b => placeOf a < placeOf b) ∧ ∀ a, a ∈ items ↔ answer a

theorem ListsBy.nodup (h : ListsBy placeOf answer items) : items.Nodup := by
  refine h.1.imp fun {a b} hlt heq => ?_
  rw [heq] at hlt
  exact List.lt_irrefl _ hlt

/-- Lists in a strict order are determined by what they hold. -/
theorem eq_of_pairwise_of_mem_iff {lt : α → α → Prop} {others : List α}
    (hasymm : ∀ a b, lt a b → ¬ lt b a) (h : items.Pairwise lt) (hothers : others.Pairwise lt)
    (hmem : ∀ a, a ∈ items ↔ a ∈ others) : items = others := by
  have hirrefl : Std.Irrefl lt := ⟨fun a haa => hasymm a a haa haa⟩
  have hantisymm : Std.Antisymm lt := ⟨fun a b hab hba => absurd hba (hasymm a b hab)⟩
  exact List.Pairwise.eq_of_mem_iff h hothers hmem

/-- **What a list holds and its order determine it.** -/
theorem ListsBy.eq_iff (h : ListsBy placeOf answer items) (others : List α) :
    others = items ↔ ListsBy placeOf answer others := by
  constructor
  · rintro rfl
    exact h
  · intro hothers
    refine eq_of_pairwise_of_mem_iff (fun a b hlt => List.lt_asymm hlt) hothers.1 h.1 fun a => ?_
    rw [hothers.2, h.2]

theorem ListsBy.congr {other : α → Prop} (h : ListsBy placeOf answer items)
    (hiff : ∀ a, answer a ↔ other a) : ListsBy placeOf other items :=
  ⟨h.1, fun a => (h.2 a).trans (hiff a)⟩

/-- Nested loops visit places in order, where the number of the outer loop comes first. -/
theorem pairwise_flatMap_place {outer : List α} {inner : α → List β} {number : α → Nat}
    {place : β → List Nat} (rest : β → List Nat)
    (houter : outer.Pairwise fun a b => number a < number b)
    (hplace : ∀ a ∈ outer, ∀ x ∈ inner a, place x = number a :: rest x)
    (hinner : ∀ a ∈ outer, (inner a).Pairwise fun x y => rest x < rest y) :
    (outer.flatMap inner).Pairwise fun x y => place x < place y := by
  refine List.pairwise_flatMap.mpr ⟨fun a ha => ?_, ?_⟩
  · refine (hinner a ha).imp_of_mem fun {x y} hx hy hlt => ?_
    rw [hplace a ha x hx, hplace a ha y hy, List.cons_lt_cons_iff]
    exact Or.inr ⟨rfl, hlt⟩
  · refine houter.imp_of_mem fun {a b} ha hb hlt x hx y hy => ?_
    rw [hplace a ha x hx, hplace b hb y hy, List.cons_lt_cons_iff]
    exact Or.inl hlt

end ListsBy

/-! ## Distinct values -/

section FirstSeen

variable {α : Type} [DecidableEq α]

theorem firstSeen_sublist (l : List α) : (firstSeen l).Sublist l := by
  induction l with
  | nil => exact List.Sublist.slnil
  | cons a rest ih => exact List.Sublist.cons_cons a (List.filter_sublist.trans ih)

/-- One more value comes last, unless it was seen before. -/
theorem firstSeen_append_singleton (l : List α) (a : α) :
    firstSeen (l ++ [a]) = if a ∈ l then firstSeen l else firstSeen l ++ [a] := by
  induction l with
  | nil => rfl
  | cons b rest ih =>
    rw [List.cons_append, firstSeen, ih, firstSeen]
    by_cases hrest : a ∈ rest
    · simp [hrest]
    · by_cases hab : a = b
      · subst hab
        simp [hrest, List.filter_append]
      · simp [hrest, hab, List.filter_append]

/-- Where nothing repeats, nothing is dropped. -/
theorem firstSeen_of_nodup {l : List α} (h : l.Nodup) : firstSeen l = l := by
  induction l with
  | nil => rfl
  | cons a rest ih =>
    obtain ⟨hnew, hrest⟩ := List.nodup_cons.mp h
    rw [firstSeen, ih hrest, List.filter_eq_self.mpr]
    intro b hb
    exact decide_eq_true fun hba => hnew (hba ▸ hb)

/-- Where a function keeps values apart, their images repeat as they do. -/
theorem firstSeen_map {β : Type} [DecidableEq β] {f : β → α} {l : List β}
    (h : ∀ a ∈ l, ∀ b ∈ l, f a = f b → a = b) : firstSeen (l.map f) = (firstSeen l).map f := by
  induction l with
  | nil => rfl
  | cons a rest ih =>
    have hrest := ih fun b hb c hc =>
      h b (List.mem_cons_of_mem _ hb) c (List.mem_cons_of_mem _ hc)
    rw [List.map_cons, firstSeen, firstSeen, List.map_cons, hrest, List.filter_map]
    refine congrArg (fun kept => f a :: kept.map f) (List.filter_congr fun b hb => ?_)
    have hb : b ∈ a :: rest := List.mem_cons_of_mem _ (mem_firstSeen.mp hb)
    have hiff : f b = f a ↔ b = a := ⟨h b hb a List.mem_cons_self, congrArg f⟩
    simp only [Function.comp_apply, ne_eq, hiff]

/-- Values that ascend, repeats aside, ascend strictly once the repeats are gone. -/
theorem pairwise_firstSeen {lt : α → α → Prop} {l : List α}
    (h : l.Pairwise fun a b => a = b ∨ lt a b) : (firstSeen l).Pairwise lt :=
  List.Pairwise.imp₂ (fun _ _ hne hor => hor.resolve_left hne) (nodup_firstSeen l)
    (h.sublist (firstSeen_sublist l))

/-- A value that was seen before leaves no trace. -/
theorem firstSeen_drop_again {a : α} {before : List α} (h : a ∈ before) (after : List α) :
    firstSeen (before ++ a :: after) = firstSeen (before ++ after) := by
  induction after using List.reverseRecOn with
  | nil => rw [firstSeen_append_singleton, if_pos h, List.append_nil]
  | append_singleton after last ih =>
    rw [← List.cons_append, ← List.append_assoc, ← List.append_assoc, firstSeen_append_singleton,
      firstSeen_append_singleton, ih]
    by_cases hlast : last = a
    · simp [hlast, h]
    · simp [hlast]

/-- It makes no difference whether values are dropped before their repeats are, or after. -/
theorem firstSeen_filter (p : α → Bool) (l : List α) :
    firstSeen (l.filter p) = (firstSeen l).filter p := by
  induction l with
  | nil => rfl
  | cons a rest ih =>
    rw [firstSeen]
    cases hp : p a with
    | true =>
      rw [List.filter_cons_of_pos hp, List.filter_cons_of_pos hp, firstSeen, ih,
        List.filter_comm]
    | false =>
      have hnot : ¬ p a = true := by simp [hp]
      rw [List.filter_cons_of_neg hnot, List.filter_cons_of_neg hnot, ih, List.filter_filter]
      refine List.filter_congr fun b _ => ?_
      by_cases hba : b = a <;> simp [hba, hp]

/-- Distinct values come in the order of their first occurrences. -/
theorem pairwise_idxOf_firstSeen [BEq α] [LawfulBEq α] (l : List α) :
    (firstSeen l).Pairwise fun a b => l.idxOf a < l.idxOf b := by
  induction l with
  | nil => exact List.Pairwise.nil
  | cons first rest ih =>
    have hne : ∀ {a}, a ∈ (firstSeen rest).filter (· ≠ first) → first ≠ a := by
      intro a ha hsame
      simp [hsame] at ha
    refine List.pairwise_cons.mpr ⟨fun a ha => ?_, ?_⟩
    · rw [List.idxOf_cons_self, List.idxOf_cons_ne rest (hne ha)]
      exact Nat.succ_pos _
    · refine (ih.filter _).imp_of_mem fun {a b} ha hb hlt => ?_
      rw [List.idxOf_cons_ne rest (hne ha), List.idxOf_cons_ne rest (hne hb)]
      exact Nat.succ_lt_succ hlt

/-- **The distinct values of a list, by the places of their first occurrences.** -/
theorem listsBy_firstSeen [BEq α] [LawfulBEq α] (l : List α) :
    ListsBy (fun a => [l.idxOf a]) (· ∈ l) (firstSeen l) := by
  refine ⟨(pairwise_idxOf_firstSeen l).imp fun hlt => ?_, fun a => mem_firstSeen⟩
  exact List.cons_lt_cons_iff.mpr (Or.inl hlt)

end FirstSeen

theorem pairwise_zipIdx {α : Type} (l : List α) : l.zipIdx.Pairwise fun a b => a.2 < b.2 := by
  rw [← List.pairwise_map, List.zipIdx_map_snd]
  exact List.pairwise_lt_range'

/-- Places of a list without repeats ascend along the list. -/
theorem pairwise_idxOf_of_nodup {α : Type} [BEq α] [LawfulBEq α] {l : List α} (h : l.Nodup) :
    l.Pairwise fun a b => l.idxOf a < l.idxOf b := by
  rw [List.pairwise_iff_getElem]
  intro i j hi hj hij
  rw [h.idxOf_getElem, h.idxOf_getElem]
  exact hij

end LineageSearch
