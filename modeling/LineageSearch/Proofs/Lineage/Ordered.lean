import LineageSearch.Lineage.Graph
import LineageSearch.Proofs.Listing
import Mathlib.Data.List.Induction

/-!
# Records, lookups and hits in order

The graph keeps its records by ascending id and never sorts an answer: the order of an answer
is the order in which its records and photos were gathered.  This file says that gathering
keeps the order, and what is gathered.

* `mem_latestById_iff`, `ascending_latestById`: the last record of each id is kept, by
  ascending id.
* `Lookup.find_ofList`: a lookup lists the values that were inserted under the key, in
  first-seen order.  Values that were inserted in ascending order are listed strictly
  ascending (`Lookup.ascending_find`).
* `photoHits_ascending` and `entities_ascending`: the photos of one owner ascend by their
  place, and photos of different owners as their owners do.
-/

namespace LineageSearch

/-! ## The last record of each id -/

section Latest

variable {α : Type} {idOf : α → EntityId} {kept records : List α} {record r : α}

/-- Whether records stand by ascending id. -/
def AscendingBy (idOf : α → EntityId) (records : List α) : Prop :=
  records.Pairwise fun a b => idOf a < idOf b

/-- Whether a record is the last one of its id. -/
def IsLatest (idOf : α → EntityId) (records : List α) (record : α) : Prop :=
  ∃ before after, records = before ++ record :: after ∧ ∀ later ∈ after, idOf later ≠ idOf record

/-- A record that is put in its place replaces the one of its id. -/
theorem mem_insertById_iff (hkept : AscendingBy idOf kept) :
    r ∈ insertById idOf record kept ↔ r = record ∨ r ∈ kept ∧ idOf r ≠ idOf record := by
  induction kept with
  | nil => simp [insertById]
  | cons first rest ih =>
    obtain ⟨hfirst, hrest⟩ := List.pairwise_cons.mp hkept
    rw [insertById]
    by_cases hbefore : idOf record < idOf first
    · -- all the others come behind, so none of them has the id
      have hothers : ∀ other ∈ first :: rest, idOf other ≠ idOf record := by
        intro other hother
        refine Ne.symm (UInt64.ne_of_lt ?_)
        rcases List.mem_cons.mp hother with rfl | hother
        · exact hbefore
        · exact UInt64.lt_trans hbefore (hfirst other hother)
      rw [if_pos hbefore, List.mem_cons]
      exact or_congr Iff.rfl ⟨fun hmem => ⟨hmem, hothers r hmem⟩, And.left⟩
    · by_cases hsame : idOf record = idOf first
      · have hothers : ∀ other ∈ rest, idOf other ≠ idOf record := fun other hother =>
          Ne.symm (UInt64.ne_of_lt (hsame ▸ hfirst other hother))
        rw [if_neg hbefore, if_pos hsame, List.mem_cons, List.mem_cons]
        constructor
        · rintro (rfl | hmem)
          exacts [Or.inl rfl, Or.inr ⟨Or.inr hmem, hothers r hmem⟩]
        · rintro (rfl | ⟨rfl | hmem, hne⟩)
          exacts [Or.inl rfl, absurd hsame.symm hne, Or.inr hmem]
      · rw [if_neg hbefore, if_neg hsame, List.mem_cons, ih hrest, List.mem_cons]
        constructor
        · rintro (rfl | rfl | ⟨hmem, hne⟩)
          exacts [Or.inr ⟨Or.inl rfl, Ne.symm hsame⟩, Or.inl rfl, Or.inr ⟨Or.inr hmem, hne⟩]
        · rintro (rfl | ⟨rfl | hmem, hne⟩)
          exacts [Or.inr (Or.inl rfl), Or.inl rfl, Or.inr (Or.inr ⟨hmem, hne⟩)]

theorem ascending_insertById (hkept : AscendingBy idOf kept) :
    AscendingBy idOf (insertById idOf record kept) := by
  induction kept with
  | nil => simp [insertById, AscendingBy]
  | cons first rest ih =>
    obtain ⟨hfirst, hrest⟩ := List.pairwise_cons.mp hkept
    rw [insertById]
    by_cases hbefore : idOf record < idOf first
    · rw [if_pos hbefore]
      refine List.pairwise_cons.mpr ⟨fun other hother => ?_, hkept⟩
      rcases List.mem_cons.mp hother with rfl | hother
      · exact hbefore
      · exact UInt64.lt_trans hbefore (hfirst other hother)
    · by_cases hsame : idOf record = idOf first
      · rw [if_neg hbefore, if_pos hsame]
        exact List.pairwise_cons.mpr ⟨fun other hother => hsame ▸ hfirst other hother, hrest⟩
      · rw [if_neg hbefore, if_neg hsame]
        have hbehind : idOf first < idOf record :=
          UInt64.lt_of_le_of_ne (UInt64.not_lt.mp hbefore) (Ne.symm hsame)
        refine List.pairwise_cons.mpr ⟨fun other hother => ?_, ih hrest⟩
        rcases (mem_insertById_iff hrest).mp hother with rfl | ⟨hother, -⟩
        · exact hbehind
        · exact hfirst other hother

theorem latestById_append_singleton :
    latestById idOf (records ++ [record]) = insertById idOf record (latestById idOf records) := by
  simp [latestById]

theorem ascending_latestById (idOf : α → EntityId) (records : List α) :
    AscendingBy idOf (latestById idOf records) := by
  induction records using List.reverseRecOn with
  | nil => exact List.Pairwise.nil
  | append_singleton records record ih =>
    rw [latestById_append_singleton]
    exact ascending_insertById ih

/-- One more record is the last of its id, and takes the place of those before it. -/
theorem isLatest_append_singleton :
    IsLatest idOf (records ++ [record]) r ↔
      r = record ∨ IsLatest idOf records r ∧ idOf r ≠ idOf record := by
  constructor
  · rintro ⟨before, after, hsplit, hafter⟩
    rcases List.eq_nil_or_concat' after with rfl | ⟨init, last, rfl⟩
    · obtain ⟨-, hlast⟩ := List.append_inj' hsplit rfl
      exact Or.inl (List.cons.inj hlast).1.symm
    · rw [← List.cons_append, ← List.append_assoc] at hsplit
      obtain ⟨rfl, hlast⟩ := List.append_inj' hsplit rfl
      obtain rfl := (List.cons.inj hlast).1
      refine Or.inr ⟨⟨before, init, rfl, fun later hlater => hafter later (by simp [hlater])⟩, ?_⟩
      exact Ne.symm (hafter record (by simp))
  · rintro (rfl | ⟨⟨before, after, rfl, hafter⟩, hne⟩)
    · exact ⟨records, [], rfl, by simp⟩
    · refine ⟨before, after ++ [record], by simp, fun later hlater => ?_⟩
      rcases List.mem_append.mp hlater with hlater | hlater
      · exact hafter later hlater
      · exact List.mem_singleton.mp hlater ▸ Ne.symm hne

/-- **The graph keeps the last record of each id.** -/
theorem mem_latestById_iff : r ∈ latestById idOf records ↔ IsLatest idOf records r := by
  induction records using List.reverseRecOn with
  | nil => simp [latestById, IsLatest]
  | append_singleton records record ih =>
    rw [latestById_append_singleton, mem_insertById_iff (ascending_latestById idOf records), ih,
      isLatest_append_singleton]

theorem find?_id_eq_some_iff (hkept : AscendingBy idOf kept) {id : EntityId} :
    kept.find? (fun record => idOf record == id) = some r ↔ r ∈ kept ∧ idOf r = id := by
  constructor
  · intro hfind
    exact ⟨List.mem_of_find?_eq_some hfind, by simpa using List.find?_some hfind⟩
  · rintro ⟨hmem, rfl⟩
    obtain ⟨before, after, rfl⟩ := List.append_of_mem hmem
    rw [List.find?_eq_some_iff_append]
    refine ⟨by simp, before, after, rfl, fun earlier hearlier => ?_⟩
    have hlt : idOf earlier < idOf r :=
      (List.pairwise_append.mp hkept).2.2 earlier hearlier r (List.mem_cons_self ..)
    simpa using UInt64.ne_of_lt hlt

end Latest

/-! ## Lookups -/

namespace Lookup

variable {K V : Type} [DecidableEq K] [DecidableEq V] {pairs : List (K × V)} {key : K} {value : V}

theorem ofList_append (before after : List (K × V)) :
    ofList (before ++ after) =
      after.foldl (fun lookup pair => lookup.insert pair.1 pair.2) (ofList before) :=
  List.foldl_append

/-- The values under a key are those inserted under it, in first-seen order. -/
theorem find_ofList (pairs : List (K × V)) (key : K) :
    (ofList pairs).find key =
      firstSeen ((pairs.filter fun pair => pair.1 = key).map Prod.snd) := by
  induction pairs using List.reverseRecOn with
  | nil => rfl
  | append_singleton pairs pair ih =>
    rw [ofList_append, List.foldl_cons, List.foldl_nil, find_insert, List.filter_append,
      List.map_append, ih]
    by_cases hkey : pair.1 = key
    · simp only [hkey, if_true, decide_true, List.filter_cons_of_pos, List.filter_nil,
        List.map_cons, List.map_nil, firstSeen_append_singleton, appendNew, mem_firstSeen]
    · simp [hkey]

theorem mem_find_ofList_iff : value ∈ (ofList pairs).find key ↔ (key, value) ∈ pairs := by
  rw [find_ofList, mem_firstSeen, List.mem_map]
  constructor
  · rintro ⟨⟨other, found⟩, hfilter, rfl⟩
    obtain ⟨hmem, hkey⟩ := List.mem_filter.mp hfilter
    obtain rfl : other = key := by simpa using hkey
    exact hmem
  · intro hmem
    exact ⟨(key, value), List.mem_filter.mpr ⟨hmem, by simp⟩, rfl⟩

/-- Values that were inserted in ascending order, repeats aside, are listed strictly
ascending. -/
theorem ascending_find {lt : V → V → Prop}
    (hpairs : pairs.Pairwise fun a b => a.2 = b.2 ∨ lt a.2 b.2) (key : K) :
    ((ofList pairs).find key).Pairwise lt := by
  rw [find_ofList]
  exact pairwise_firstSeen (List.pairwise_map.mpr (hpairs.filter _))

end Lookup

/-! ## Hits -/

namespace Hit

@[simp] theorem panda_lt_panda {a b : EntityId} : Hit.panda a < Hit.panda b ↔ a < b := by
  show [0, a.toNat] < [0, b.toNat] ↔ a < b
  simp [List.cons_lt_cons_iff, UInt64.lt_iff_toNat_lt]

@[simp] theorem zoo_lt_zoo {a b : EntityId} : Hit.zoo a < Hit.zoo b ↔ a < b := by
  show [1, a.toNat] < [1, b.toNat] ↔ a < b
  simp [List.cons_lt_cons_iff, UInt64.lt_iff_toNat_lt]

theorem panda_lt_zoo (a b : EntityId) : Hit.panda a < Hit.zoo b := by
  show [0, a.toNat] < [1, b.toNat]
  simp [List.cons_lt_cons_iff]

theorem photo_lt_photo {a b : Entity} {i j : Nat} :
    Hit.photo a i < Hit.photo b j ↔ a.toHit < b.toHit ∨ a = b ∧ i < j := by
  show (2 :: a.rank ++ [i]) < (2 :: b.rank ++ [j]) ↔ a.toHit.rank < b.toHit.rank ∨ a = b ∧ i < j
  cases a <;> cases b <;>
    simp [List.cons_lt_cons_iff, Entity.rank, Entity.toHit, Hit.rank, UInt64.toNat_inj]

end Hit

theorem mem_photoHits_iff {owner : Entity} {photos : List Photo} {hit : Hit} {photo : Photo} :
    (hit, photo) ∈ photoHits owner photos ↔
      ∃ index, photos[index]? = some photo ∧ hit = .photo owner index := by
  rw [photoHits, List.mem_map]
  constructor
  · rintro ⟨⟨found, index⟩, hmem, heq⟩
    obtain ⟨rfl, rfl⟩ := Prod.mk.inj heq
    exact ⟨index, List.mk_mem_zipIdx_iff_getElem?.mp hmem, rfl⟩
  · rintro ⟨index, hphoto, rfl⟩
    exact ⟨(photo, index), List.mk_mem_zipIdx_iff_getElem?.mpr hphoto, rfl⟩

theorem photoHits_ascending (owner : Entity) (photos : List Photo) :
    (photoHits owner photos).Pairwise fun a b => a.1 < b.1 := by
  refine List.pairwise_map.mpr ((pairwise_zipIdx photos).imp fun hlt => ?_)
  exact Hit.photo_lt_photo.mpr (Or.inr ⟨rfl, hlt⟩)

/-- Photos of ascending owners stand in ascending order. -/
theorem flatMap_photoHits_ascending {α : Type} (ownerOf : α → Entity)
    (photosOf : α → List Photo) {owners : List α}
    (howners : owners.Pairwise fun a b => (ownerOf a).toHit < (ownerOf b).toHit) :
    (owners.flatMap fun owner => photoHits (ownerOf owner) (photosOf owner)).Pairwise
      fun a b => a.1 < b.1 := by
  refine List.pairwise_flatMap.mpr ⟨fun owner _ => photoHits_ascending _ _, ?_⟩
  refine howners.imp fun hlt => ?_
  rintro ⟨hit, photo⟩ hmem ⟨other, otherPhoto⟩ hother
  obtain ⟨i, -, rfl⟩ := mem_photoHits_iff.mp hmem
  obtain ⟨j, -, rfl⟩ := mem_photoHits_iff.mp hother
  exact Hit.photo_lt_photo.mpr (Or.inl hlt)

end LineageSearch
