import LineageSearch.FirstSeen
import LineageSearch.Text.Basic

/-!
# Hits

A search finds pandas, zoos and photos.  A photo belongs to a panda or to a zoo and is
named by its owner and its place among the owner's photos.  Hits are ordered: pandas,
zoos, photos; then by id, photos by their owner and then by their place.
-/

namespace LineageSearch

/-- Identities of records are 64-bit numbers; pandas and zoos are counted apart. -/
abbrev EntityId := UInt64

/-- A panda or a zoo. -/
inductive Entity where
  | panda (id : EntityId)
  | zoo (id : EntityId)
deriving Repr, DecidableEq

/-- Something that a search finds. -/
inductive Hit where
  | panda (id : EntityId)
  | zoo (id : EntityId)
  | photo (owner : Entity) (index : Nat)
deriving Repr, DecidableEq

namespace Entity

/-- The place of an entity in the order of entities. -/
def rank : Entity → List Nat
  | panda id => [0, id.toNat]
  | zoo id => [1, id.toNat]

def toHit : Entity → Hit
  | panda id => .panda id
  | zoo id => .zoo id

end Entity

namespace Hit

/-- The place of a hit in the order of hits; places are compared number by number. -/
def rank : Hit → List Nat
  | panda id => [0, id.toNat]
  | zoo id => [1, id.toNat]
  | photo owner index => 2 :: owner.rank ++ [index]

instance : LT Hit := ⟨fun a b => a.rank < b.rank⟩

instance (a b : Hit) : Decidable (a < b) := inferInstanceAs (Decidable (a.rank < b.rank))

/-- The entity a hit is about: a photo counts as its owner. -/
def entity : Hit → Entity
  | panda id => .panda id
  | zoo id => .zoo id
  | photo owner _ => owner

@[simp] theorem entity_toHit (entity : Entity) : entity.toHit.entity = entity := by
  cases entity <;> rfl

end Hit

/-- The distinct entities that hits are about, in first-seen order. -/
def entitiesOf (hits : List Hit) : List Entity := firstSeen (hits.map Hit.entity)

theorem mem_entitiesOf_iff {hits : List Hit} {entity : Entity} :
    entity ∈ entitiesOf hits ↔ ∃ hit ∈ hits, hit.entity = entity := by
  rw [entitiesOf, mem_firstSeen, List.mem_map]

def sortHits (hits : List Hit) : List Hit := hits.mergeSort fun a b => !(decide (b < a))

end LineageSearch
