import LineageSearch.Lineage.Lookup
import LineageSearch.Lineage.Record
import LineageSearch.Text.Lower

/-!
# The lineage graph

The graph keeps the last record of each id, in ascending order of id, and draws up its
lookups once when it is loaded: from names to pandas and zoos, and from authors to
photos, whatever the case of the author.  Searches find nothing rather than fail.

Every answer that lists pandas or zoos lists them by ascending id, and the photos of an
author come panda by panda, then zoo by zoo, each owner's photos in their order.
-/

namespace LineageSearch

/-- Puts a record in its place among records of ascending id, where it replaces one of
its own id. -/
def insertById {α : Type} (idOf : α → EntityId) (record : α) : List α → List α
  | [] => [record]
  | first :: rest =>
    if idOf record < idOf first then record :: first :: rest
    else if idOf record = idOf first then record :: rest
    else first :: insertById idOf record rest

/-- The last record of each id, by ascending id. -/
def latestById {α : Type} (idOf : α → EntityId) (records : List α) : List α :=
  records.foldl (fun kept record => insertById idOf record kept) []

def photoHits (owner : Entity) (photos : List Photo) : List (Hit × Photo) :=
  photos.zipIdx.map fun (photo, index) => (.photo owner index, photo)

/-- The authors of an owner's photos in lowercase, with their photos. -/
def authorsOf (owner : Entity) (photos : List Photo) : List (Text × Hit) :=
  (photoHits owner photos).filterMap fun (hit, photo) =>
    photo.author.map fun author => (Text.lower author, hit)

/-- The records with their lookups. -/
structure Graph where
  pandas : List Panda
  zoos : List Zoo
  pandasByName : Lookup Text EntityId
  zoosByName : Lookup Text EntityId
  photosByAuthor : Lookup Text Hit
  latestBirthYear : Option Int

/-- What a tag search lists: the tagged photos, or the entities that own them. -/
inductive TagListing where
  | photos
  | entities
deriving Repr, DecidableEq

/-- What a tag search lists if no photo bears a tag: nothing, or every photo. -/
inductive WhenUntagged where
  | none
  | all
deriving Repr, DecidableEq

namespace Graph

def ofExport (records : Export) : Graph :=
  let pandas := latestById Panda.id records.pandas
  let zoos := latestById Zoo.id records.zoos
  { pandas, zoos
    pandasByName := .ofList (pandas.flatMap fun p => p.allNames.map fun name => (name, p.id))
    zoosByName := .ofList (zoos.flatMap fun z => z.names.toList.map fun name => (name, z.id))
    photosByAuthor := .ofList
      (pandas.flatMap (fun p => authorsOf (.panda p.id) p.photos)
        ++ zoos.flatMap (fun z => authorsOf (.zoo z.id) z.photos))
    latestBirthYear := ((pandas.filterMap Panda.birthday).map Date.year).max? }

def empty : Graph := ofExport {}

def panda? (graph : Graph) (id : EntityId) : Option Panda := graph.pandas.find? (·.id == id)

def zoo? (graph : Graph) (id : EntityId) : Option Zoo := graph.zoos.find? (·.id == id)

/-- The photos of an entity; an entity that is not in the graph has none. -/
def photosOf (graph : Graph) : Entity → List Photo
  | .panda id => ((graph.panda? id).map Panda.photos).getD []
  | .zoo id => ((graph.zoo? id).map Zoo.photos).getD []

def pandasWhere (graph : Graph) (condition : Panda → Bool) : List Hit :=
  (graph.pandas.filter condition).map fun panda => .panda panda.id

/-- The number that a text of digits denotes, with or without a plus sign before it. -/
def idNumber? : Text → Option Nat
  | '+' :: digits => Text.natural? digits
  | digits => Text.natural? digits

/-- The id that a text denotes, if a panda or a zoo has it.  Numbers of more than 64 bits
are no ids. -/
def knownId? (graph : Graph) (text : Text) : Option EntityId := do
  let n ← idNumber? text
  if n < UInt64.size then
    let id := UInt64.ofNat n
    if (graph.panda? id).isSome || (graph.zoo? id).isSome then some id else none
  else none

/-- The panda of an id, or nothing. -/
def pandaHit (graph : Graph) (id : EntityId) : List Hit :=
  (graph.panda? id).toList.map fun panda => .panda panda.id

/-- The zoo of an id, or nothing. -/
def zooHit (graph : Graph) (id : EntityId) : List Hit :=
  (graph.zoo? id).toList.map fun zoo => .zoo zoo.id

def pandasNamed (graph : Graph) (name : Text) : List Hit :=
  (graph.pandasByName.find name).map .panda

def zoosNamed (graph : Graph) (name : Text) : List Hit :=
  (graph.zoosByName.find name).map .zoo

/-- The pandas born in a year; without a year, in the latest year of birth on record. -/
def births (graph : Graph) (year : Option Int) : List Hit :=
  match year <|> graph.latestBirthYear with
  | some year => graph.pandasWhere fun panda => panda.birthday.any (·.year == year)
  | none => []

/-- The pandas that died in a year; without a year, all that died. -/
def deaths (graph : Graph) (year : Option Int) : List Hit :=
  graph.pandasWhere fun panda =>
    panda.death.any fun death => year.all (death.year == ·)

/-- The photos of an author, whatever the case of the name. -/
def photosBy (graph : Graph) (author : Text) : List Hit :=
  graph.photosByAuthor.find (Text.lower author)

/-- The photos of the distinct entities that hits are about. -/
def photosOfSubjects (graph : Graph) (subjects : List Hit) : List (Hit × Photo) :=
  (entitiesOf subjects).flatMap fun owner => photoHits owner (graph.photosOf owner)

/-- Whether a photo bears one of the tags, compared without regard to ASCII case. -/
def isTagged (tags : List Text) (photo : Photo) : Bool :=
  photo.tags.any fun tag => tags.any (Text.sameAscii · tag)

/-- The photos of the subjects that bear one of the tags. -/
def searchTags (graph : Graph) (subjects : List Hit) (tags : List Text) (mode : TagListing)
    (fallback : WhenUntagged) : List Hit :=
  let everything := graph.photosOfSubjects subjects
  let tagged := everything.filter fun entry => isTagged tags entry.2
  let chosen := if tagged.isEmpty && fallback == .all then everything else tagged
  let hits := chosen.map Prod.fst
  match mode with
  | .photos => hits
  | .entities => (entitiesOf hits).map Entity.toHit

end Graph

end LineageSearch
