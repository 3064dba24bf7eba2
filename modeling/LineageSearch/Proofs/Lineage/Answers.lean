import LineageSearch.Proofs.Lineage.Ordered

/-!
# What the graph answers

The graph answers from lookups that were drawn up when the records were loaded.  Here each
answer is compared with a reading of the records themselves: the answer is ascending, and a
hit is in it exactly if some record says so (`Lists`).

Of several records of one id only the last counts (`Export.HasPanda`, `Export.HasZoo`).  A
photo counts by its place among the photos of such a record (`Export.HasPhoto`).

* `lists_pandaHit`, `lists_zooHit`, `lists_pandasNamed`, `lists_zoosNamed`: entities by id and
  by name.
* `lists_births`, `lists_deaths`: pandas by year.
* `lists_photosBy`, `lists_searchTags`: photos by author and by tag.
-/

namespace LineageSearch

/-! ## Reading the records -/

namespace Export

variable (records : Export)

/-- Whether a panda is loaded: it is the last record of its id. -/
def HasPanda (panda : Panda) : Prop := IsLatest Panda.id records.pandas panda

/-- Whether a zoo is loaded: it is the last record of its id. -/
def HasZoo (zoo : Zoo) : Prop := IsLatest Zoo.id records.zoos zoo

/-- Whether a photo stands at a place among the photos of a loaded panda or zoo. -/
def HasPhoto (owner : Entity) (index : Nat) (photo : Photo) : Prop :=
  match owner with
  | .panda id => ∃ panda, records.HasPanda panda ∧ panda.id = id ∧
      panda.photos[index]? = some photo
  | .zoo id => ∃ zoo, records.HasZoo zoo ∧ zoo.id = id ∧ zoo.photos[index]? = some photo

/-- Whether a loaded panda or zoo has an id. -/
def HasId (id : EntityId) : Prop :=
  (∃ panda, records.HasPanda panda ∧ panda.id = id) ∨ ∃ zoo, records.HasZoo zoo ∧ zoo.id = id

/-- Whether a day of birth lies in a year; without a year, in the latest one on record. -/
def IsBirthIn (year : Option Int) (birthday : Date) : Prop :=
  match year with
  | some year => birthday.year = year
  | none => ∀ panda other, records.HasPanda panda → panda.birthday = some other →
      other.year ≤ birthday.year

end Export

/-- Whether hits are exactly those of an answer, in ascending order. -/
def Lists (hits : List Hit) (answer : Hit → Prop) : Prop :=
  hits.Pairwise (· < ·) ∧ ∀ hit, hit ∈ hits ↔ answer hit

theorem Lists.congr {hits : List Hit} {answer other : Hit → Prop} (h : Lists hits answer)
    (hiff : ∀ hit, answer hit ↔ other hit) : Lists hits other :=
  ⟨h.1, fun hit => (h.2 hit).trans (hiff hit)⟩

/-- **An answer is determined by its hits.** -/
theorem Lists.eq_iff {hits : List Hit} {answer : Hit → Prop} (h : Lists hits answer)
    (others : List Hit) : others = hits ↔ Lists others answer :=
  (show ListsBy Hit.rank answer hits from h).eq_iff others

theorem Lists.nodup {hits : List Hit} {answer : Hit → Prop} (h : Lists hits answer) : hits.Nodup :=
  (show ListsBy Hit.rank answer hits from h).nodup

theorem lists_nil : Lists [] fun _ => False := ⟨List.Pairwise.nil, fun hit => by simp⟩

namespace Graph

variable {records : Export}

/-! ## Pandas and zoos -/

theorem mem_pandas_iff {panda : Panda} :
    panda ∈ (ofExport records).pandas ↔ records.HasPanda panda := mem_latestById_iff

theorem mem_zoos_iff {zoo : Zoo} : zoo ∈ (ofExport records).zoos ↔ records.HasZoo zoo :=
  mem_latestById_iff

theorem pandas_ascending (records : Export) : AscendingBy Panda.id (ofExport records).pandas :=
  ascending_latestById _ _

theorem zoos_ascending (records : Export) : AscendingBy Zoo.id (ofExport records).zoos :=
  ascending_latestById _ _

theorem panda?_eq_some_iff {id : EntityId} {panda : Panda} :
    (ofExport records).panda? id = some panda ↔ records.HasPanda panda ∧ panda.id = id := by
  rw [panda?, find?_id_eq_some_iff (pandas_ascending records), mem_pandas_iff]

theorem zoo?_eq_some_iff {id : EntityId} {zoo : Zoo} :
    (ofExport records).zoo? id = some zoo ↔ records.HasZoo zoo ∧ zoo.id = id := by
  rw [zoo?, find?_id_eq_some_iff (zoos_ascending records), mem_zoos_iff]

/-- There is one loaded panda of an id. -/
theorem hasPanda_unique {panda other : Panda} (h : records.HasPanda panda)
    (hother : records.HasPanda other) (hid : panda.id = other.id) : panda = other := by
  have hfind := panda?_eq_some_iff.mpr ⟨h, hid⟩
  rw [panda?_eq_some_iff.mpr ⟨hother, rfl⟩] at hfind
  exact (Option.some_inj.mp hfind).symm

theorem lists_pandaHit (records : Export) (id : EntityId) :
    Lists ((ofExport records).pandaHit id) fun hit =>
      ∃ panda, records.HasPanda panda ∧ panda.id = id ∧ hit = .panda panda.id := by
  simp only [← and_assoc, ← panda?_eq_some_iff, pandaHit]
  cases (ofExport records).panda? id <;> simp [Lists]

theorem lists_zooHit (records : Export) (id : EntityId) :
    Lists ((ofExport records).zooHit id) fun hit =>
      ∃ zoo, records.HasZoo zoo ∧ zoo.id = id ∧ hit = .zoo zoo.id := by
  simp only [← and_assoc, ← zoo?_eq_some_iff, zooHit]
  cases (ofExport records).zoo? id <;> simp [Lists]

/-- Ascending records that are looked up by their names are listed as they stand. -/
theorem lists_named {α : Type} {idOf : α → EntityId} {namesOf : α → List Text} {kept : List α}
    {toHit : EntityId → Hit} (hkept : AscendingBy idOf kept)
    (htoHit : ∀ a b, a < b → toHit a < toHit b) (name : Text) :
    Lists (((Lookup.ofList (kept.flatMap fun record =>
        (namesOf record).map fun name => (name, idOf record))).find name).map toHit) fun hit =>
      ∃ record ∈ kept, name ∈ namesOf record ∧ hit = toHit (idOf record) := by
  constructor
  · -- the ids under the names ascend, but for the names of one record
    have hpairs : (kept.flatMap fun record =>
        (namesOf record).map fun name => (name, idOf record)).Pairwise
          fun a b => a.2 = b.2 ∨ a.2 < b.2 := by
      refine List.pairwise_flatMap.mpr ⟨fun record _ => ?_, hkept.imp fun hlt => ?_⟩
      · exact List.pairwise_map.mpr (List.pairwise_of_forall fun _ _ => Or.inl rfl)
      · intro x hx y hy
        obtain ⟨_, -, rfl⟩ := List.mem_map.mp hx
        obtain ⟨_, -, rfl⟩ := List.mem_map.mp hy
        exact Or.inr hlt
    exact List.pairwise_map.mpr ((Lookup.ascending_find hpairs name).imp fun hlt => htoHit _ _ hlt)
  · intro hit
    simp only [List.mem_map, Lookup.mem_find_ofList_iff, List.mem_flatMap, Prod.mk.injEq]
    constructor
    · rintro ⟨_, ⟨record, hrecord, _, hname, rfl, rfl⟩, rfl⟩
      exact ⟨record, hrecord, hname, rfl⟩
    · rintro ⟨record, hrecord, hname, rfl⟩
      exact ⟨_, ⟨record, hrecord, name, hname, rfl, rfl⟩, rfl⟩

theorem lists_pandasNamed (records : Export) (name : Text) :
    Lists ((ofExport records).pandasNamed name) fun hit =>
      ∃ panda, records.HasPanda panda ∧ name ∈ panda.allNames ∧ hit = .panda panda.id := by
  refine (lists_named (pandas_ascending records)
    (fun a b => Hit.panda_lt_panda.mpr) name).congr fun hit => ?_
  simp only [mem_pandas_iff]

theorem lists_zoosNamed (records : Export) (name : Text) :
    Lists ((ofExport records).zoosNamed name) fun hit =>
      ∃ zoo, records.HasZoo zoo ∧ name ∈ zoo.names.toList ∧ hit = .zoo zoo.id := by
  refine (lists_named (zoos_ascending records)
    (fun a b => Hit.zoo_lt_zoo.mpr) name).congr fun hit => ?_
  simp only [mem_zoos_iff]

theorem lists_pandasWhere (records : Export) (condition : Panda → Bool) :
    Lists ((ofExport records).pandasWhere condition) fun hit =>
      ∃ panda, records.HasPanda panda ∧ condition panda = true ∧ hit = .panda panda.id := by
  constructor
  · refine List.pairwise_map.mpr (((pandas_ascending records).filter _).imp fun hlt => ?_)
    exact Hit.panda_lt_panda.mpr hlt
  · intro hit
    rw [pandasWhere, List.mem_map]
    constructor
    · rintro ⟨panda, hfilter, rfl⟩
      obtain ⟨hmem, hcondition⟩ := List.mem_filter.mp hfilter
      exact ⟨panda, mem_pandas_iff.mp hmem, hcondition, rfl⟩
    · rintro ⟨panda, hpanda, hcondition, rfl⟩
      exact ⟨panda, List.mem_filter.mpr ⟨mem_pandas_iff.mpr hpanda, hcondition⟩, rfl⟩

/-! ## Births and deaths -/

/-- The years of birth on record. -/
theorem mem_birthYears_iff {year : Int} :
    year ∈ ((ofExport records).pandas.filterMap Panda.birthday).map Date.year ↔
      ∃ panda birthday, records.HasPanda panda ∧ panda.birthday = some birthday ∧
        birthday.year = year := by
  simp only [List.mem_map, List.mem_filterMap, mem_pandas_iff]
  constructor
  · rintro ⟨birthday, ⟨panda, hpanda, hborn⟩, hyear⟩
    exact ⟨panda, birthday, hpanda, hborn, hyear⟩
  · rintro ⟨panda, birthday, hpanda, hborn, hyear⟩
    exact ⟨birthday, ⟨panda, hpanda, hborn⟩, hyear⟩

theorem latestBirthYear_ofExport (records : Export) :
    (ofExport records).latestBirthYear =
      (((ofExport records).pandas.filterMap Panda.birthday).map Date.year).max? := rfl

/-- A day of birth is in the latest year of birth exactly if none is in a later one. -/
theorem isBirthIn_none_iff {latest : Int}
    (hlatest : (ofExport records).latestBirthYear = some latest)
    {panda : Panda} {birthday : Date} (hpanda : records.HasPanda panda)
    (hborn : panda.birthday = some birthday) :
    records.IsBirthIn none birthday ↔ birthday.year = latest := by
  rw [latestBirthYear_ofExport, List.max?_eq_some_iff, mem_birthYears_iff] at hlatest
  obtain ⟨⟨newest, date, hnewest, hdate, rfl⟩, hle⟩ := hlatest
  constructor
  · intro hbirth
    refine Int.le_antisymm (hle _ (mem_birthYears_iff.mpr ?_)) (hbirth newest date hnewest hdate)
    exact ⟨panda, birthday, hpanda, hborn, rfl⟩
  · intro hsame other otherDate hother hotherDate
    rw [hsame]
    exact hle _ (mem_birthYears_iff.mpr ⟨other, otherDate, hother, hotherDate, rfl⟩)

/-- Without a year the births are those of the latest one, if there is any. -/
theorem births_none (graph : Graph) :
    graph.births none =
      (graph.latestBirthYear.map fun year => graph.births (some year)).getD [] := by
  unfold births
  cases graph.latestBirthYear <;> rfl

theorem lists_births_some (records : Export) (year : Int) :
    Lists ((ofExport records).births (some year)) fun hit =>
      ∃ panda birthday, records.HasPanda panda ∧ panda.birthday = some birthday ∧
        birthday.year = year ∧ hit = .panda panda.id := by
  refine (lists_pandasWhere records _).congr fun hit => ?_
  simp only [Option.any_eq_true, beq_iff_eq]
  constructor
  · rintro ⟨panda, hpanda, ⟨birthday, hborn, hyear⟩, rfl⟩
    exact ⟨panda, birthday, hpanda, hborn, hyear, rfl⟩
  · rintro ⟨panda, birthday, hpanda, hborn, hyear, rfl⟩
    exact ⟨panda, hpanda, ⟨birthday, hborn, hyear⟩, rfl⟩

/-- The pandas born in a year, or in the latest year of birth. -/
theorem lists_births (records : Export) (year : Option Int) :
    Lists ((ofExport records).births year) fun hit =>
      ∃ panda birthday, records.HasPanda panda ∧ panda.birthday = some birthday ∧
        records.IsBirthIn year birthday ∧ hit = .panda panda.id := by
  cases year with
  | some y => exact lists_births_some records y
  | none =>
    rw [births_none]
    cases hlatest : (ofExport records).latestBirthYear with
    | some latest =>
      refine (lists_births_some records latest).congr fun hit => ?_
      refine exists_congr fun panda => exists_congr fun birthday => ?_
      refine and_congr_right fun hpanda => and_congr_right fun hborn => ?_
      rw [isBirthIn_none_iff hlatest hpanda hborn]
    | none =>
      refine lists_nil.congr fun hit => iff_of_false id ?_
      -- without a latest year nobody has a day of birth
      rintro ⟨panda, birthday, hpanda, hborn, -⟩
      have hmem : birthday.year ∈
          ((ofExport records).pandas.filterMap Panda.birthday).map Date.year :=
        mem_birthYears_iff.mpr ⟨panda, birthday, hpanda, hborn, rfl⟩
      rw [latestBirthYear_ofExport, List.max?_eq_none_iff] at hlatest
      rw [hlatest] at hmem
      exact absurd hmem List.not_mem_nil

theorem lists_deaths (records : Export) (year : Option Int) :
    Lists ((ofExport records).deaths year) fun hit =>
      ∃ panda death, records.HasPanda panda ∧ panda.death = some death ∧
        (∀ y ∈ year, death.year = y) ∧ hit = .panda panda.id := by
  refine (lists_pandasWhere records _).congr fun hit => ?_
  simp only [Option.any_eq_true, Option.all_eq_true, beq_iff_eq]
  constructor
  · rintro ⟨panda, hpanda, ⟨death, hdied, hyear⟩, rfl⟩
    exact ⟨panda, death, hpanda, hdied, hyear, rfl⟩
  · rintro ⟨panda, death, hpanda, hdied, hyear, rfl⟩
    exact ⟨panda, hpanda, ⟨death, hdied, hyear⟩, rfl⟩

/-! ## Photos -/

/-- The loaded pandas and zoos with their photos. -/
def owners (graph : Graph) : List (Entity × List Photo) :=
  graph.pandas.map (fun panda => (.panda panda.id, panda.photos)) ++
    graph.zoos.map fun zoo => (.zoo zoo.id, zoo.photos)

theorem owners_ascending (records : Export) :
    (ofExport records).owners.Pairwise fun a b => a.1.toHit < b.1.toHit := by
  refine List.pairwise_append.mpr ⟨?_, ?_, ?_⟩
  · exact List.pairwise_map.mpr
      ((pandas_ascending records).imp fun hlt => Hit.panda_lt_panda.mpr hlt)
  · exact List.pairwise_map.mpr ((zoos_ascending records).imp fun hlt => Hit.zoo_lt_zoo.mpr hlt)
  · intro a ha b hb
    obtain ⟨panda, -, rfl⟩ := List.mem_map.mp ha
    obtain ⟨zoo, -, rfl⟩ := List.mem_map.mp hb
    exact Hit.panda_lt_zoo _ _

theorem mem_owners_photos_iff {owner : Entity} {index : Nat} {photo : Photo} :
    (∃ photos, (owner, photos) ∈ (ofExport records).owners ∧ photos[index]? = some photo) ↔
      records.HasPhoto owner index photo := by
  simp only [owners, List.mem_append, List.mem_map, mem_pandas_iff, mem_zoos_iff, Prod.mk.injEq]
  cases owner with
  | panda id =>
    constructor
    · rintro ⟨photos, ⟨panda, hpanda, hid, rfl⟩ | ⟨zoo, -, hid, -⟩, hphoto⟩
      · exact ⟨panda, hpanda, Entity.panda.inj hid, hphoto⟩
      · simp at hid
    · rintro ⟨panda, hpanda, rfl, hphoto⟩
      exact ⟨panda.photos, Or.inl ⟨panda, hpanda, rfl, rfl⟩, hphoto⟩
  | zoo id =>
    constructor
    · rintro ⟨photos, ⟨panda, -, hid, -⟩ | ⟨zoo, hzoo, hid, rfl⟩, hphoto⟩
      · simp at hid
      · exact ⟨zoo, hzoo, Entity.zoo.inj hid, hphoto⟩
    · rintro ⟨zoo, hzoo, rfl, hphoto⟩
      exact ⟨zoo.photos, Or.inr ⟨zoo, hzoo, rfl, rfl⟩, hphoto⟩

/-- The lookup of authors is drawn up from the photos of all owners. -/
theorem photosByAuthor_ofExport (records : Export) :
    (ofExport records).photosByAuthor =
      .ofList (((ofExport records).owners.flatMap fun owner => photoHits owner.1 owner.2).filterMap
        fun (hit, photo) => photo.author.map fun author => (Text.lower author, hit)) := by
  rw [owners, List.flatMap_append, List.filterMap_append, List.flatMap_map, List.flatMap_map,
    List.filterMap_flatMap, List.filterMap_flatMap]
  rfl

/-- The photos of an author, whatever the case of the name. -/
theorem lists_photosBy (records : Export) (author : Text) :
    Lists ((ofExport records).photosBy author) fun hit =>
      ∃ owner index photo name, records.HasPhoto owner index photo ∧ photo.author = some name ∧
        Text.lower name = Text.lower author ∧ hit = .photo owner index := by
  have hphotos := flatMap_photoHits_ascending Prod.fst Prod.snd (owners_ascending records)
  rw [photosBy, photosByAuthor_ofExport]
  constructor
  · refine Lookup.ascending_find (List.pairwise_filterMap.mpr (hphotos.imp ?_)) _
    rintro ⟨hit, photo⟩ ⟨other, otherPhoto⟩ hlt _ hb _ hb'
    obtain ⟨name, -, rfl⟩ := Option.map_eq_some_iff.mp hb
    obtain ⟨otherName, -, rfl⟩ := Option.map_eq_some_iff.mp hb'
    exact Or.inr hlt
  · intro hit
    rw [Lookup.mem_find_ofList_iff, List.mem_filterMap]
    constructor
    · rintro ⟨⟨found, photo⟩, hmem, hentry⟩
      obtain ⟨name, hname, hpair⟩ := Option.map_eq_some_iff.mp hentry
      obtain ⟨hlower, rfl⟩ := Prod.mk.inj hpair
      obtain ⟨⟨owner, photos⟩, howner, hphoto⟩ := List.mem_flatMap.mp hmem
      obtain ⟨index, hindex, rfl⟩ := mem_photoHits_iff.mp hphoto
      exact ⟨owner, index, photo, name, mem_owners_photos_iff.mp ⟨photos, howner, hindex⟩, hname,
        hlower, rfl⟩
    · rintro ⟨owner, index, photo, name, hphoto, hname, hlower, rfl⟩
      obtain ⟨photos, howner, hindex⟩ := mem_owners_photos_iff.mpr hphoto
      refine ⟨(.photo owner index, photo), List.mem_flatMap.mpr ⟨_, howner, ?_⟩, ?_⟩
      · exact mem_photoHits_iff.mpr ⟨index, hindex, rfl⟩
      · simp [hname, hlower]

theorem photosOf_getElem?_eq_some_iff {owner : Entity} {index : Nat} {photo : Photo} :
    ((ofExport records).photosOf owner)[index]? = some photo ↔
      records.HasPhoto owner index photo := by
  cases owner with
  | panda id =>
    simp only [photosOf, Export.HasPhoto, ← and_assoc, ← panda?_eq_some_iff]
    cases (ofExport records).panda? id <;> simp
  | zoo id =>
    simp only [photosOf, Export.HasPhoto, ← and_assoc, ← zoo?_eq_some_iff]
    cases (ofExport records).zoo? id <;> simp

/-- There is one loaded photo at a place. -/
theorem hasPhoto_unique {owner : Entity} {index : Nat} {photo other : Photo}
    (h : records.HasPhoto owner index photo) (hother : records.HasPhoto owner index other) :
    photo = other := by
  rw [← photosOf_getElem?_eq_some_iff] at h hother
  exact Option.some_inj.mp (h.symm.trans hother)

/-- Where entities are listed, they are the subjects, in ascending order. -/
theorem entitiesOf_lists {subjects : List Hit} {meant : Entity → Prop}
    (hsubjects : Lists subjects fun hit => ∃ owner, meant owner ∧ hit = owner.toHit) :
    (entitiesOf subjects).Pairwise (fun a b => a.toHit < b.toHit) ∧
      ∀ owner, owner ∈ entitiesOf subjects ↔ meant owner := by
  constructor
  · refine List.Pairwise.sublist (firstSeen_sublist _) (List.pairwise_map.mpr ?_)
    refine hsubjects.1.imp_of_mem fun ha hb hlt => ?_
    obtain ⟨owner, -, rfl⟩ := (hsubjects.2 _).mp ha
    obtain ⟨other, -, rfl⟩ := (hsubjects.2 _).mp hb
    simpa using hlt
  · intro owner
    rw [mem_entitiesOf_iff]
    constructor
    · rintro ⟨hit, hhit, rfl⟩
      obtain ⟨other, hother, rfl⟩ := (hsubjects.2 _).mp hhit
      simpa using hother
    · intro howner
      exact ⟨owner.toHit, (hsubjects.2 _).mpr ⟨owner, howner, rfl⟩, Hit.entity_toHit owner⟩

theorem mem_photosOfSubjects_iff {subjects : List Hit} {hit : Hit} {photo : Photo} :
    (hit, photo) ∈ (ofExport records).photosOfSubjects subjects ↔
      ∃ owner index, owner ∈ entitiesOf subjects ∧ records.HasPhoto owner index photo ∧
        hit = .photo owner index := by
  simp only [photosOfSubjects, List.mem_flatMap, mem_photoHits_iff,
    photosOf_getElem?_eq_some_iff]
  constructor
  · rintro ⟨owner, howner, index, hphoto, rfl⟩
    exact ⟨owner, index, howner, hphoto, rfl⟩
  · rintro ⟨owner, index, howner, hphoto, rfl⟩
    exact ⟨owner, howner, index, hphoto, rfl⟩

theorem searchTags_photos (graph : Graph) (subjects : List Hit) (tags : List Text) :
    graph.searchTags subjects tags .photos .none =
      ((graph.photosOfSubjects subjects).filter fun entry => isTagged tags entry.2).map
        Prod.fst := by
  simp [searchTags]

/-- The tagged photos of the entities that are listed. -/
theorem lists_searchTags (records : Export) {subjects : List Hit} {meant : Entity → Prop}
    (hsubjects : Lists subjects fun hit => ∃ owner, meant owner ∧ hit = owner.toHit) (tag : Text) :
    Lists ((ofExport records).searchTags subjects [tag] .photos .none) fun hit =>
      ∃ owner index photo, meant owner ∧ records.HasPhoto owner index photo ∧
        (∃ form ∈ photo.tags, Text.sameAscii tag form = true) ∧ hit = .photo owner index := by
  obtain ⟨hentities, hmeant⟩ := entitiesOf_lists hsubjects
  have htagged : ∀ photo : Photo, isTagged [tag] photo = true ↔
      ∃ form ∈ photo.tags, Text.sameAscii tag form = true := by
    intro photo
    simp [isTagged]
  rw [searchTags_photos]
  constructor
  · have hphotos := flatMap_photoHits_ascending id (ofExport records).photosOf hentities
    exact List.pairwise_map.mpr (hphotos.filter _)
  · intro hit
    rw [List.mem_map]
    constructor
    · rintro ⟨⟨found, photo⟩, hfilter, rfl⟩
      obtain ⟨hmem, htag⟩ := List.mem_filter.mp hfilter
      obtain ⟨owner, index, howner, hphoto, rfl⟩ := mem_photosOfSubjects_iff.mp hmem
      exact ⟨owner, index, photo, (hmeant owner).mp howner, hphoto, (htagged photo).mp htag, rfl⟩
    · rintro ⟨owner, index, photo, howner, hphoto, htag, rfl⟩
      have hmem := mem_photosOfSubjects_iff.mpr
        ⟨owner, index, (hmeant owner).mpr howner, hphoto, rfl⟩
      exact ⟨_, List.mem_filter.mpr ⟨hmem, (htagged photo).mpr htag⟩, rfl⟩

/-! ## Ids -/

theorem isSome_or_isSome_iff {id : EntityId} :
    (((ofExport records).panda? id).isSome || ((ofExport records).zoo? id).isSome) = true ↔
      records.HasId id := by
  simp only [Bool.or_eq_true, Option.isSome_iff_exists, panda?_eq_some_iff, zoo?_eq_some_iff,
    Export.HasId]

/-- A text is the id of an entity if the number that it denotes is. -/
theorem knownId?_eq_some_iff_idNumber? {text : Text} {id : EntityId} :
    (ofExport records).knownId? text = some id ↔
      idNumber? text = some id.toNat ∧ records.HasId id := by
  rw [← isSome_or_isSome_iff, knownId?]
  cases hnumber : idNumber? text with
  | none => simp
  | some n =>
    rw [Option.bind_eq_bind, Option.bind_some, Option.some_inj]
    dsimp only
    constructor
    · intro hknown
      split at hknown
      · next hsize =>
        split at hknown
        · next hsome =>
          obtain rfl := Option.some_inj.mp hknown
          exact ⟨(UInt64.toNat_ofNat_of_lt' hsize).symm, hsome⟩
        · simp at hknown
      · simp at hknown
    · rintro ⟨rfl, hsome⟩
      rw [if_pos id.toNat_lt, UInt64.ofNat_toNat, if_pos hsome]

end Graph

end LineageSearch
