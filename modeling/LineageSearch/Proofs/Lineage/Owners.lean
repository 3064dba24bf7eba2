import LineageSearch.Proofs.Listing
import LineageSearch.Lineage.Hit

/-!
# The entities behind hits

A search finds hits one after the other, and a photo counts as its owner.  So an entity is behind
several hits as soon as two of its photos are found, or a photo and the entity itself.  The entities
are listed once each, in the order in which they come up (`listsBy_entitiesOf`):

* one more hit adds its entity at the end, unless the entity is there (`entitiesOf_push`);
* entities that are listed, taken as hits, are the entities behind themselves
  (`entitiesOf_map_toHit`).

A panda and a zoo of one id are two entities.

## Strategy

The listing is defined by what it leaves out behind each entity.  A search need not look back: it is
enough to pass over the hits once and to remember which entities were seen.  The invariant is that
such a pass lists what the definition lists, less what was seen before (`unseenOwners_eq_filter`).
-/

namespace LineageSearch

/-- One more hit adds its entity at the end, unless the entity is there. -/
theorem entitiesOf_push (hits : List Hit) (hit : Hit) :
    entitiesOf (hits ++ [hit]) =
      if hit.entity ∈ entitiesOf hits then entitiesOf hits
      else entitiesOf hits ++ [hit.entity] := by
  simp only [entitiesOf, List.map_append, List.map_cons, List.map_nil, firstSeen_append_singleton,
    mem_firstSeen]

/-- **The entities behind hits are listed by the places of their first hits.** -/
theorem listsBy_entitiesOf (hits : List Hit) :
    ListsBy (fun entity => [(hits.map Hit.entity).idxOf entity])
      (fun entity => ∃ hit ∈ hits, hit.entity = entity) (entitiesOf hits) :=
  (listsBy_firstSeen (hits.map Hit.entity)).congr fun _ => List.mem_map

theorem entitiesOf_map_toHit (entities : List Entity) :
    entitiesOf (entities.map Entity.toHit) = firstSeen entities := by
  have hself : Hit.entity ∘ Entity.toHit = id := funext Hit.entity_toHit
  rw [entitiesOf, List.map_map, hself, List.map_id]

/-! ## One pass over the hits -/

/-- The entities that a pass over hits lists if it remembers which ones it saw. -/
def unseenOwners (seen : List Entity) : List Hit → List Entity
  | [] => []
  | hit :: rest =>
    if hit.entity ∈ seen then unseenOwners seen rest
    else hit.entity :: unseenOwners (hit.entity :: seen) rest

theorem unseenOwners_eq_filter (seen : List Entity) (hits : List Hit) :
    unseenOwners seen hits = (entitiesOf hits).filter (· ∉ seen) := by
  induction hits generalizing seen with
  | nil => rfl
  | cons hit rest ih =>
    rw [unseenOwners, entitiesOf, List.map_cons, firstSeen, ← entitiesOf]
    by_cases hseen : hit.entity ∈ seen
    · -- what is left out behind the entity has been seen as well
      rw [if_pos hseen, ih, List.filter_cons_of_neg (by simpa using hseen), List.filter_filter]
      refine List.filter_congr fun entity _ => ?_
      by_cases hsame : entity = hit.entity <;> simp [hsame, hseen]
    · rw [if_neg hseen, ih, List.filter_cons_of_pos (by simpa using hseen), List.filter_filter]
      refine congrArg (hit.entity :: ·) (List.filter_congr fun entity _ => ?_)
      simp only [List.mem_cons, not_or, and_comm, Bool.decide_and]

/-- **One pass with a memory lists the entities behind hits.** -/
theorem unseenOwners_nil (hits : List Hit) : unseenOwners [] hits = entitiesOf hits := by
  rw [unseenOwners_eq_filter, List.filter_eq_self.mpr]
  simp

/-- **The entities behind hits are the first-seen list of their owners.**  Whatever hits were found,
and in whichever order, each entity that some hit is about is listed once, by the place of its first
hit, and this is the only such list.  One more hit leaves the list as it is if its entity is in it,
and otherwise puts that entity behind the others.  Taken as hits, the entities are listed as they
stand. -/
theorem entitiesOf_first_seen (hits : List Hit) :
    (entitiesOf hits).Nodup ∧
    (∀ entity, entity ∈ entitiesOf hits ↔ ∃ hit ∈ hits, hit.entity = entity) ∧
    (∀ entities, entities = entitiesOf hits ↔
      ListsBy (fun entity => [(hits.map Hit.entity).idxOf entity])
        (fun entity => ∃ hit ∈ hits, hit.entity = entity) entities) ∧
    (∀ hit, entitiesOf (hits ++ [hit]) =
      if hit.entity ∈ entitiesOf hits then entitiesOf hits
      else entitiesOf hits ++ [hit.entity]) ∧
    entitiesOf ((entitiesOf hits).map Entity.toHit) = entitiesOf hits ∧
    entitiesOf hits = unseenOwners [] hits := by
  have hlists := listsBy_entitiesOf hits
  refine ⟨hlists.nodup, fun entity => mem_entitiesOf_iff, hlists.eq_iff, entitiesOf_push hits, ?_,
    (unseenOwners_nil hits).symm⟩
  rw [entitiesOf_map_toHit, firstSeen_of_nodup hlists.nodup]

/-- Two photos of a panda come up before the panda itself, and a panda shares its id with a zoo. -/
example : entitiesOf
    [.photo (.panda 2) 0, .zoo 1, .photo (.panda 2) 1, .panda 1, .panda 2, .photo (.zoo 1) 0] =
      [.panda 2, .zoo 1, .panda 1] := by
  decide

end LineageSearch
