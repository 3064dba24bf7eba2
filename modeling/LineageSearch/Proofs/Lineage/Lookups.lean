import LineageSearch.Proofs.Lineage.Answers

/-!
# Lookups agree with a scan of the records

The graph draws up three lookups when the records are loaded, and answers from them by one search
under a key.  An answer is what a scan of all loaded records finds (`lookups_eq_scans`):

* a name leads to the pandas that bear it, in a language or besides, and to the zoos that bear it;
* an author leads to the photos by that author, whatever the case of the name.

The scan lists each record and each photo once, in ascending order.  So it plays no part how often
a panda bears a name, under how many spellings an author is recorded, or how many records share a
key, and texts that are empty are names and authors like any other.

## Strategy

What a lookup holds under a key is described where lookups are drawn up (`lists_pandasNamed` and
its companions): it ascends, and its members are known.  The scan is described in the same way, and
a description leaves no choice (`Lists.eq_iff`).
-/

namespace LineageSearch

/-- Whether a panda bears a name in a language or besides. -/
def Panda.BearsName (panda : Panda) (name : Text) : Prop :=
  panda.names.en = some name ∨ panda.names.jp = some name ∨ name ∈ panda.othernames

/-- Whether a zoo bears a name in a language. -/
def Zoo.BearsName (zoo : Zoo) (name : Text) : Prop :=
  zoo.names.en = some name ∨ zoo.names.jp = some name

/-- Whether a photo is by an author, whatever the case of the name.  A photo without an author is by
nobody. -/
def Photo.IsBy (photo : Photo) (author : Text) : Prop :=
  ∃ name, photo.author = some name ∧ Text.lower name = Text.lower author

instance (panda : Panda) (name : Text) : Decidable (panda.BearsName name) :=
  inferInstanceAs (Decidable (_ ∨ _ ∨ _))

instance (zoo : Zoo) (name : Text) : Decidable (zoo.BearsName name) :=
  inferInstanceAs (Decidable (_ ∨ _))

instance (photo : Photo) (author : Text) : Decidable (photo.IsBy author) :=
  inferInstanceAs (Decidable (∃ name, name ∈ photo.author ∧ Text.lower name = Text.lower author))

theorem Names.mem_toList_iff {names : Names} {name : Text} :
    name ∈ names.toList ↔ names.en = some name ∨ names.jp = some name := by
  rw [Names.toList, List.mem_append, Option.mem_toList, Option.mem_toList]

theorem Panda.mem_allNames_iff {panda : Panda} {name : Text} :
    name ∈ panda.allNames ↔ panda.BearsName name := by
  rw [Panda.allNames, List.mem_append, Names.mem_toList_iff, or_assoc]
  rfl

namespace Graph

variable {records : Export}

/-! ## Scans -/

/-- The zoos that meet a condition. -/
def zoosWhere (graph : Graph) (condition : Zoo → Bool) : List Hit :=
  (graph.zoos.filter condition).map fun zoo => .zoo zoo.id

/-- The photos that meet a condition: those of the pandas, then those of the zoos. -/
def photosWhere (graph : Graph) (condition : Photo → Bool) : List Hit :=
  ((graph.owners.flatMap fun owner => photoHits owner.1 owner.2).filter
    fun entry => condition entry.2).map Prod.fst

theorem lists_zoosWhere (records : Export) (condition : Zoo → Bool) :
    Lists ((ofExport records).zoosWhere condition) fun hit =>
      ∃ zoo, records.HasZoo zoo ∧ condition zoo = true ∧ hit = .zoo zoo.id := by
  constructor
  · refine List.pairwise_map.mpr (((zoos_ascending records).filter _).imp fun hlt => ?_)
    exact Hit.zoo_lt_zoo.mpr hlt
  · intro hit
    simp only [zoosWhere, List.mem_map, List.mem_filter, mem_zoos_iff, and_assoc, eq_comm]

theorem lists_photosWhere (records : Export) (condition : Photo → Bool) :
    Lists ((ofExport records).photosWhere condition) fun hit =>
      ∃ owner index photo, records.HasPhoto owner index photo ∧ condition photo = true ∧
        hit = .photo owner index := by
  constructor
  · have hphotos := flatMap_photoHits_ascending Prod.fst Prod.snd (owners_ascending records)
    exact List.pairwise_map.mpr (hphotos.filter _)
  · intro hit
    rw [photosWhere, List.mem_map]
    constructor
    · rintro ⟨⟨found, photo⟩, hfilter, rfl⟩
      obtain ⟨hmem, hcondition⟩ := List.mem_filter.mp hfilter
      obtain ⟨⟨owner, photos⟩, howner, hentry⟩ := List.mem_flatMap.mp hmem
      obtain ⟨index, hindex, rfl⟩ := mem_photoHits_iff.mp hentry
      have hphoto := mem_owners_photos_iff.mp ⟨photos, howner, hindex⟩
      exact ⟨owner, index, photo, hphoto, hcondition, rfl⟩
    · rintro ⟨owner, index, photo, hphoto, hcondition, rfl⟩
      obtain ⟨photos, howner, hindex⟩ := mem_owners_photos_iff.mpr hphoto
      have hentry : (Hit.photo owner index, photo) ∈ photoHits owner photos :=
        mem_photoHits_iff.mpr ⟨index, hindex, rfl⟩
      exact ⟨(.photo owner index, photo),
        List.mem_filter.mpr ⟨List.mem_flatMap.mpr ⟨_, howner, hentry⟩, hcondition⟩, rfl⟩

/-! ## Lookups -/

theorem lists_pandasNamed_bearsName (records : Export) (name : Text) :
    Lists ((ofExport records).pandasNamed name) fun hit =>
      ∃ panda, records.HasPanda panda ∧ panda.BearsName name ∧ hit = .panda panda.id := by
  refine (lists_pandasNamed records name).congr fun hit => ?_
  simp only [Panda.mem_allNames_iff]

theorem lists_zoosNamed_bearsName (records : Export) (name : Text) :
    Lists ((ofExport records).zoosNamed name) fun hit =>
      ∃ zoo, records.HasZoo zoo ∧ zoo.BearsName name ∧ hit = .zoo zoo.id := by
  refine (lists_zoosNamed records name).congr fun hit => ?_
  simp only [Names.mem_toList_iff, Zoo.BearsName]

theorem lists_photosBy_isBy (records : Export) (author : Text) :
    Lists ((ofExport records).photosBy author) fun hit =>
      ∃ owner index photo, records.HasPhoto owner index photo ∧ photo.IsBy author ∧
        hit = .photo owner index := by
  refine (lists_photosBy records author).congr fun hit => ?_
  constructor
  · rintro ⟨owner, index, photo, name, hphoto, hname, hlower, rfl⟩
    exact ⟨owner, index, photo, hphoto, ⟨name, hname, hlower⟩, rfl⟩
  · rintro ⟨owner, index, photo, hphoto, ⟨name, hname, hlower⟩, rfl⟩
    exact ⟨owner, index, photo, name, hphoto, hname, hlower, rfl⟩

/-- **Lookups by name and by author answer what a scan of the records finds.**  Each answer is the
ascending list of the loaded pandas, zoos or photos that the text applies to, and it is the only
such list.  A panda is in it once, however often it bears the name, and a photo without an author
is in none. -/
theorem lookups_eq_scans (records : Export) (text : Text) :
    (ofExport records).pandasNamed text =
        (ofExport records).pandasWhere (fun panda => decide (panda.BearsName text)) ∧
    (ofExport records).zoosNamed text =
        (ofExport records).zoosWhere (fun zoo => decide (zoo.BearsName text)) ∧
    (ofExport records).photosBy text =
        (ofExport records).photosWhere (fun photo => decide (photo.IsBy text)) ∧
    (∀ hits, hits = (ofExport records).pandasNamed text ↔ Lists hits fun hit =>
      ∃ panda, records.HasPanda panda ∧ panda.BearsName text ∧ hit = .panda panda.id) ∧
    (∀ hits, hits = (ofExport records).zoosNamed text ↔ Lists hits fun hit =>
      ∃ zoo, records.HasZoo zoo ∧ zoo.BearsName text ∧ hit = .zoo zoo.id) ∧
    (∀ hits, hits = (ofExport records).photosBy text ↔ Lists hits fun hit =>
      ∃ owner index photo, records.HasPhoto owner index photo ∧ photo.IsBy text ∧
        hit = .photo owner index) ∧
    (∀ panda, records.HasPanda panda → panda.BearsName text →
      ((ofExport records).pandasNamed text).count (.panda panda.id) = 1) ∧
    (∀ owner index photo, records.HasPhoto owner index photo → photo.author = none →
      .photo owner index ∉ (ofExport records).photosBy text) := by
  have hpandas := lists_pandasNamed_bearsName records text
  have hzoos := lists_zoosNamed_bearsName records text
  have hphotos := lists_photosBy_isBy records text
  refine ⟨?_, ?_, ?_, hpandas.eq_iff, hzoos.eq_iff, hphotos.eq_iff, ?_, ?_⟩
  · refine ((hpandas.eq_iff _).mpr ?_).symm
    simpa only [decide_eq_true_eq] using lists_pandasWhere records fun panda =>
      decide (panda.BearsName text)
  · refine ((hzoos.eq_iff _).mpr ?_).symm
    simpa only [decide_eq_true_eq] using lists_zoosWhere records fun zoo =>
      decide (zoo.BearsName text)
  · refine ((hphotos.eq_iff _).mpr ?_).symm
    simpa only [decide_eq_true_eq] using lists_photosWhere records fun photo =>
      decide (photo.IsBy text)
  · intro panda hpanda hname
    refine List.count_eq_one_of_mem hpandas.nodup ?_
    exact (hpandas.2 _).mpr ⟨panda, hpanda, hname, rfl⟩
  · intro owner index photo hphoto hnone hmem
    obtain ⟨other, place, found, hfound, ⟨name, hname, -⟩, hhit⟩ := (hphotos.2 _).mp hmem
    obtain ⟨rfl, rfl⟩ := Hit.photo.inj hhit
    -- the photo found at this place is the photo without an author
    rw [← hasPhoto_unique hphoto hfound, hnone] at hname
    cases hname

/-- A panda bears a name in both languages and once more besides, and one of its photos has no
author.  The scans find each panda once, photos of an author under three spellings, and the photo of
an author whose name is empty. -/
theorem lookups_eq_scans_repeated_name :
    let shared : Names := { en := some "Gin".toList, jp := some "Gin".toList }
    let photo (author : Option Text) : Photo := { url := "g".toList, author }
    let repeated : Panda :=
      { id := 2, names := shared, othernames := ["Gin".toList, []],
        photos := [photo (some "ALICE".toList), photo none, photo (some "alice".toList)] }
    let records : Export :=
      { pandas := [repeated, { id := 1, names := shared, photos := [photo (some [])] }],
        zoos := [{ id := 2, names := shared, photos := [photo (some "Alice".toList)] }] }
    (ofExport records).pandasNamed "Gin".toList = [.panda 1, .panda 2] ∧
      ((ofExport records).pandasNamed "Gin".toList).count (.panda 2) = 1 ∧
      (ofExport records).pandasNamed [] = [.panda 2] ∧
      (ofExport records).zoosNamed "Gin".toList = [.zoo 2] ∧
      (ofExport records).photosBy "aLiCe".toList =
        [.photo (.panda 2) 0, .photo (.panda 2) 2, .photo (.zoo 2) 0] ∧
      (ofExport records).photosBy [] = [.photo (.panda 1) 0] ∧
      .photo (.panda 2) 1 ∉ (ofExport records).photosBy [] := by
  intro shared photo repeated records
  have hrepeated : records.HasPanda repeated := ⟨[], _, rfl, by decide⟩
  obtain ⟨hpandas, hzoos, -, -, -, -, hcount, -⟩ := lookups_eq_scans records "Gin".toList
  obtain ⟨-, -, halice, -⟩ := lookups_eq_scans records "aLiCe".toList
  obtain ⟨hnameless, -, hempty, -, -, -, -, hnone⟩ := lookups_eq_scans records []
  refine ⟨?_, hcount repeated hrepeated (by decide), ?_, ?_, ?_, ?_, ?_⟩
  · rw [hpandas]
    decide +kernel
  · rw [hnameless]
    decide +kernel
  · rw [hzoos]
    decide +kernel
  · rw [halice]
    decide +kernel
  · rw [hempty]
    decide +kernel
  · exact hnone (.panda 2) 1 (photo none) ⟨repeated, hrepeated, rfl, rfl⟩ rfl

end Graph

end LineageSearch
