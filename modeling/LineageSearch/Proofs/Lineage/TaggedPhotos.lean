import LineageSearch.Lineage.Graph
import LineageSearch.Proofs.Lineage.Ordered

/-!
# Tag searches

A tag search is given hits as its subjects and goes once through the photos of the entities behind
them.  It gathers all photos, and apart from these the ones that bear one of the tags
(`Graph.gather`).  The fallback then decides between the two, and the listing between the photos
and their owners.

What comes out is a filter of the subjects' photos (`searchTags_filters`).  A photo is chosen if it
bears one of the tags, or if none does and the fallback asks for all (`Graph.IsChosen`).  The chosen
photos come in the order of the places where their owners are first seen among the subjects, and
then by their place among the owner's photos (`Hit.placeAmong`); owners come in the same order.

So an answer depends on little.  Of the subjects only the entities behind them count, each where it
is first seen (`searchTags_again`, `searchTags_owners`).  Of tags only the forms count that are left
when ASCII case is disregarded, in any order and number (`SameForms`), on the side of the search as
on that of the photos (`searchTags_congr`).
-/

namespace LineageSearch

/-! ## Tags up to ASCII case -/

namespace Text

/-- A tag in the form in which tags are compared. -/
def asciiForm (tag : Text) : Text := tag.map Char.toLower

theorem sameAscii_iff {a b : Text} : sameAscii a b = true ↔ asciiForm a = asciiForm b := beq_iff_eq

end Text

/-- Whether two lists of tags agree when ASCII case, order and repeats are disregarded. -/
def SameForms (tags others : List Text) : Prop :=
  ∀ form, form ∈ tags.map Text.asciiForm ↔ form ∈ others.map Text.asciiForm

theorem sameForms_of_mem_iff {tags others : List Text} (h : ∀ tag, tag ∈ tags ↔ tag ∈ others) :
    SameForms tags others := by
  intro form
  simp only [List.mem_map, h]

theorem sameForms_of_sameAscii {tags others : List Text}
    (h : List.Forall₂ (fun tag other => Text.sameAscii tag other = true) tags others) :
    SameForms tags others := by
  have hforms : tags.map Text.asciiForm = others.map Text.asciiForm := by
    induction h with
    | nil => rfl
    | cons hsame _ ih => rw [List.map_cons, List.map_cons, Text.sameAscii_iff.mp hsame, ih]
  intro form
  rw [hforms]

/-- Whether a photo bears one of the tags, up to ASCII case. -/
def Photo.BearsOneOf (photo : Photo) (tags : List Text) : Prop :=
  ∃ tag ∈ photo.tags, ∃ wanted ∈ tags, Text.sameAscii wanted tag = true

theorem Photo.bearsOneOf_congr {photo other : Photo} {tags wanted : List Text}
    (hphoto : SameForms photo.tags other.tags) (htags : SameForms tags wanted) :
    photo.BearsOneOf tags ↔ other.BearsOneOf wanted := by
  have hforms : ∀ (p : Photo) (ts : List Text), p.BearsOneOf ts ↔
      ∃ form, form ∈ p.tags.map Text.asciiForm ∧ form ∈ ts.map Text.asciiForm := by
    intro p ts
    simp only [Photo.BearsOneOf, Text.sameAscii_iff, List.mem_map]
    constructor
    · rintro ⟨tag, htag, want, hwant, hsame⟩
      exact ⟨_, ⟨tag, htag, rfl⟩, want, hwant, hsame⟩
    · rintro ⟨_, ⟨tag, htag, rfl⟩, want, hwant, hsame⟩
      exact ⟨tag, htag, want, hwant, hsame⟩
  rw [hforms, hforms]
  exact exists_congr fun form => and_congr (hphoto form) (htags form)

theorem Graph.isTagged_iff {tags : List Text} {photo : Photo} :
    isTagged tags photo = true ↔ photo.BearsOneOf tags := by
  simp only [isTagged, List.any_eq_true, Photo.BearsOneOf]

/-! ## A pass over the photos -/

/-- What a pass over photos has gathered: all photos, and the tagged ones among them. -/
structure Gathered where
  everything : List Hit
  tagged : List Hit
deriving DecidableEq

namespace Gathered

/-- One more photo. -/
def add (tags : List Text) (gathered : Gathered) (entry : Hit × Photo) : Gathered where
  everything := gathered.everything ++ [entry.1]
  tagged :=
    if Graph.isTagged tags entry.2 then gathered.tagged ++ [entry.1] else gathered.tagged

/-- What is listed of the photos that were gathered. -/
def answer (gathered : Gathered) (mode : TagListing) (fallback : WhenUntagged) : List Hit :=
  let found :=
    if gathered.tagged.isEmpty && fallback == .all then gathered.everything else gathered.tagged
  match mode with
  | .photos => found
  | .entities => (entitiesOf found).map Entity.toHit

/-- A pass adds all photos to the one list and the tagged ones to the other, in their order. -/
theorem foldl_add (tags : List Text) (entries : List (Hit × Photo)) (gathered : Gathered) :
    entries.foldl (add tags) gathered =
      { everything := gathered.everything ++ entries.map Prod.fst
        tagged := gathered.tagged ++
          (entries.filter fun entry => Graph.isTagged tags entry.2).map Prod.fst } := by
  induction entries generalizing gathered with
  | nil => simp
  | cons entry entries ih =>
    rw [List.foldl_cons, ih]
    by_cases htagged : Graph.isTagged tags entry.2 = true <;> simp [add, htagged]

end Gathered

namespace Graph

variable {graph : Graph} {subjects : List Hit} {tags : List Text} {mode : TagListing}
  {fallback : WhenUntagged}

/-- What is gathered entity by entity and photo by photo. -/
def gather (graph : Graph) (subjects : List Hit) (tags : List Text) : Gathered :=
  (entitiesOf subjects).foldl (fun gathered owner =>
    (photoHits owner (graph.photosOf owner)).foldl (Gathered.add tags) gathered) ⟨[], []⟩

theorem gather_eq (graph : Graph) (subjects : List Hit) (tags : List Text) :
    graph.gather subjects tags =
      { everything := (graph.photosOfSubjects subjects).map Prod.fst
        tagged := ((graph.photosOfSubjects subjects).filter
          fun entry => isTagged tags entry.2).map Prod.fst } := by
  rw [gather, ← List.foldl_flatMap, Gathered.foldl_add]
  rfl

/-- **One pass is enough for a tag search.** -/
theorem answer_gather (graph : Graph) (subjects : List Hit) (tags : List Text)
    (mode : TagListing) (fallback : WhenUntagged) :
    (graph.gather subjects tags).answer mode fallback =
      graph.searchTags subjects tags mode fallback := by
  rw [gather_eq]
  cases mode <;>
    simp only [Gathered.answer, searchTags, List.isEmpty_map, apply_ite (List.map Prod.fst)]

/-! ## The chosen photos and their order -/

/-- Whether a hit is a photo of an entity behind the subjects. -/
def IsSubjectPhoto (graph : Graph) (subjects : List Hit) (hit : Hit) (photo : Photo) : Prop :=
  ∃ owner index, hit = .photo owner index ∧ owner ∈ subjects.map Hit.entity ∧
    (graph.photosOf owner)[index]? = some photo

/-- Whether a hit is a photo that a tag search chooses: it bears one of the tags, or none of the
subjects' photos does and the fallback asks for all of them. -/
def IsChosen (graph : Graph) (subjects : List Hit) (tags : List Text) (fallback : WhenUntagged)
    (hit : Hit) : Prop :=
  ∃ photo, graph.IsSubjectPhoto subjects hit photo ∧
    (photo.BearsOneOf tags ∨ fallback = .all ∧
      ∀ other otherPhoto, graph.IsSubjectPhoto subjects other otherPhoto →
        ¬ otherPhoto.BearsOneOf tags)

end Graph

/-- The place of a hit in what is gathered from subjects: where its entity is first seen among them,
then the place of a photo among those of its owner. -/
def Hit.placeAmong (subjects : List Hit) (hit : Hit) : List Nat :=
  (subjects.map Hit.entity).idxOf hit.entity ::
    match hit with
    | .photo _ index => [index]
    | _ => []

namespace Graph

variable {graph : Graph} {subjects : List Hit} {tags : List Text} {mode : TagListing}
  {fallback : WhenUntagged}

theorem mem_photosOfSubjects {hit : Hit} {photo : Photo} :
    (hit, photo) ∈ graph.photosOfSubjects subjects ↔ graph.IsSubjectPhoto subjects hit photo := by
  simp only [photosOfSubjects, List.mem_flatMap, mem_photoHits_iff, entitiesOf, mem_firstSeen]
  constructor
  · rintro ⟨owner, howner, index, hphoto, rfl⟩
    exact ⟨owner, index, rfl, howner, hphoto⟩
  · rintro ⟨owner, index, rfl, howner, hphoto⟩
    exact ⟨owner, howner, index, hphoto, rfl⟩

/-- Photos are gathered in the order of their places. -/
theorem photosOfSubjects_ascending (graph : Graph) (subjects : List Hit) :
    (graph.photosOfSubjects subjects).Pairwise fun a b =>
      a.1.placeAmong subjects < b.1.placeAmong subjects := by
  refine pairwise_flatMap_place (fun entry => (entry.1.placeAmong subjects).tail)
    (pairwise_idxOf_firstSeen _) ?_ ?_
  · intro owner _ entry hentry
    obtain ⟨index, -, hhit⟩ := mem_photoHits_iff.mp hentry
    rw [hhit]
    rfl
  · intro owner _
    refine (photoHits_ascending owner _).imp_of_mem fun {a b} ha hb hlt => ?_
    obtain ⟨i, -, hi⟩ := mem_photoHits_iff.mp ha
    obtain ⟨j, -, hj⟩ := mem_photoHits_iff.mp hb
    rw [hi, hj, Hit.photo_lt_photo] at hlt
    have hij : i < j := (hlt.resolve_left (List.lt_irrefl owner.toHit.rank)).2
    rw [hi, hj]
    exact List.cons_lt_cons_iff.mpr (Or.inl hij)

/-- The photos that a tag search chooses, with their hits. -/
def chosenPhotos (graph : Graph) (subjects : List Hit) (tags : List Text)
    (fallback : WhenUntagged) : List (Hit × Photo) :=
  let everything := graph.photosOfSubjects subjects
  let tagged := everything.filter fun entry => isTagged tags entry.2
  if tagged.isEmpty && fallback == .all then everything else tagged

theorem searchTags_photos_eq (graph : Graph) (subjects : List Hit) (tags : List Text)
    (fallback : WhenUntagged) :
    graph.searchTags subjects tags .photos fallback =
      (graph.chosenPhotos subjects tags fallback).map Prod.fst := rfl

/-- The owners that are listed are those of the photos that are listed otherwise. -/
theorem searchTags_entities_eq (graph : Graph) (subjects : List Hit) (tags : List Text)
    (fallback : WhenUntagged) :
    graph.searchTags subjects tags .entities fallback =
      (entitiesOf (graph.searchTags subjects tags .photos fallback)).map Entity.toHit := rfl

theorem chosenPhotos_sublist (graph : Graph) (subjects : List Hit) (tags : List Text)
    (fallback : WhenUntagged) :
    (graph.chosenPhotos subjects tags fallback).Sublist (graph.photosOfSubjects subjects) := by
  unfold chosenPhotos
  dsimp only
  split
  · exact List.Sublist.refl _
  · exact List.filter_sublist

theorem mem_chosenPhotos_iff {hit : Hit} {photo : Photo} :
    (hit, photo) ∈ graph.chosenPhotos subjects tags fallback ↔
      graph.IsSubjectPhoto subjects hit photo ∧
        (photo.BearsOneOf tags ∨ fallback = .all ∧
          ∀ other otherPhoto, graph.IsSubjectPhoto subjects other otherPhoto →
            ¬ otherPhoto.BearsOneOf tags) := by
  have hnone : ((graph.photosOfSubjects subjects).filter
      fun entry => isTagged tags entry.2).isEmpty = true ↔
      ∀ other otherPhoto, graph.IsSubjectPhoto subjects other otherPhoto →
        ¬ otherPhoto.BearsOneOf tags := by
    simp only [List.isEmpty_iff, List.filter_eq_nil_iff, Prod.forall, mem_photosOfSubjects,
      isTagged_iff]
  unfold chosenPhotos
  dsimp only
  split
  · next hall =>
    rw [Bool.and_eq_true, beq_iff_eq, hnone] at hall
    rw [mem_photosOfSubjects, and_iff_left (Or.inr hall.symm)]
  · next hall =>
    rw [Bool.and_eq_true, beq_iff_eq, hnone] at hall
    rw [List.mem_filter, mem_photosOfSubjects, isTagged_iff, or_iff_left]
    exact fun hfallback => hall hfallback.symm

theorem listsBy_photos (graph : Graph) (subjects : List Hit) (tags : List Text)
    (fallback : WhenUntagged) :
    ListsBy (Hit.placeAmong subjects) (graph.IsChosen subjects tags fallback)
      (graph.searchTags subjects tags .photos fallback) := by
  rw [searchTags_photos_eq]
  constructor
  · exact List.pairwise_map.mpr
      ((photosOfSubjects_ascending graph subjects).sublist (chosenPhotos_sublist ..))
  · intro hit
    simp only [List.mem_map, Prod.exists, mem_chosenPhotos_iff, IsChosen]
    constructor
    · rintro ⟨found, photo, hchosen, rfl⟩
      exact ⟨photo, hchosen⟩
    · rintro ⟨photo, hchosen⟩
      exact ⟨hit, photo, hchosen, rfl⟩

theorem IsChosen.entity_mem {hit : Hit} (h : graph.IsChosen subjects tags fallback hit) :
    hit.entity ∈ subjects.map Hit.entity ∧ graph.photosOf hit.entity ≠ [] := by
  obtain ⟨photo, ⟨owner, index, rfl, howner, hphoto⟩, -⟩ := h
  exact ⟨howner, List.ne_nil_of_mem (List.mem_of_getElem? hphoto)⟩

theorem placeAmong_toHit (subjects : List Hit) (owner : Entity) :
    owner.toHit.placeAmong subjects = [(subjects.map Hit.entity).idxOf owner] := by
  cases owner <;> rfl

theorem listsBy_owners (graph : Graph) (subjects : List Hit) (tags : List Text)
    (fallback : WhenUntagged) :
    ListsBy (Hit.placeAmong subjects)
      (fun hit => ∃ photo, graph.IsChosen subjects tags fallback photo ∧ hit = photo.entity.toHit)
      (graph.searchTags subjects tags .entities fallback) := by
  obtain ⟨hascending, hmem⟩ := listsBy_photos graph subjects tags fallback
  rw [searchTags_entities_eq]
  constructor
  · refine List.pairwise_map.mpr (pairwise_firstSeen (List.pairwise_map.mpr ?_))
    refine hascending.imp_of_mem fun {a b} ha _ hlt => ?_
    rw [placeAmong_toHit, placeAmong_toHit, List.cons_lt_cons_iff]
    rcases List.cons_lt_cons_iff.mp hlt with hlt | ⟨hsame, -⟩
    · exact Or.inr (Or.inl hlt)
    · -- an entity is first seen at one place only
      exact Or.inl ((List.idxOf_inj ((hmem a).mp ha).entity_mem.1).mp hsame)
  · intro hit
    simp only [entitiesOf, List.mem_map, mem_firstSeen, hmem]
    constructor
    · rintro ⟨_, ⟨photo, hphoto, rfl⟩, rfl⟩
      exact ⟨photo, hphoto, rfl⟩
    · rintro ⟨photo, hphoto, rfl⟩
      exact ⟨_, ⟨photo, hphoto, rfl⟩, rfl⟩

/-! ## What a tag search depends on -/

/-- Of the subjects only the entities behind them count. -/
theorem searchTags_of_entitiesOf {others : List Hit} (h : entitiesOf others = entitiesOf subjects) :
    graph.searchTags others tags mode fallback = graph.searchTags subjects tags mode fallback := by
  unfold searchTags photosOfSubjects
  rw [h]

/-- A subject counts once, and so does its entity. -/
theorem searchTags_again {before : List Hit} {again : Hit}
    (h : again.entity ∈ before.map Hit.entity) (after : List Hit) :
    graph.searchTags (before ++ again :: after) tags mode fallback =
      graph.searchTags (before ++ after) tags mode fallback := by
  refine searchTags_of_entitiesOf ?_
  unfold entitiesOf
  rw [List.map_append, List.map_cons, firstSeen_drop_again h, List.map_append]

/-- A photo counts as its owner. -/
theorem searchTags_owners {others : List Hit}
    (h : others.map Hit.entity = subjects.map Hit.entity) :
    graph.searchTags others tags mode fallback = graph.searchTags subjects tags mode fallback := by
  refine searchTags_of_entitiesOf ?_
  unfold entitiesOf
  rw [h]

/-- Whether the photos of two graphs bear the same tags, up to ASCII case, order and repeats. -/
def SameTags (graph other : Graph) : Prop :=
  ∀ owner, List.Forall₂ (fun photo otherPhoto => SameForms photo.tags otherPhoto.tags)
    (graph.photosOf owner) (other.photosOf owner)

theorem SameTags.refl (graph : Graph) : graph.SameTags graph :=
  fun _ => List.forall₂_same.mpr fun _ _ _ => Iff.rfl

theorem SameTags.symm {other : Graph} (h : graph.SameTags other) : other.SameTags graph :=
  fun owner => (h owner).flip.imp fun _ _ hforms form => (hforms form).symm

section Congruence

variable {other : Graph} {wanted : List Text} {hit : Hit}

theorem exists_isSubjectPhoto (hgraph : graph.SameTags other) (htags : SameForms tags wanted)
    {photo : Photo} (h : graph.IsSubjectPhoto subjects hit photo) :
    ∃ otherPhoto, other.IsSubjectPhoto subjects hit otherPhoto ∧
      (photo.BearsOneOf tags ↔ otherPhoto.BearsOneOf wanted) := by
  obtain ⟨owner, index, rfl, howner, hphoto⟩ := h
  obtain ⟨hindex, rfl⟩ := List.getElem?_eq_some_iff.mp hphoto
  have hother : index < (other.photosOf owner).length := (hgraph owner).length_eq ▸ hindex
  refine ⟨(other.photosOf owner)[index], ⟨owner, index, rfl, howner, ?_⟩, ?_⟩
  · exact List.getElem?_eq_getElem hother
  · exact Photo.bearsOneOf_congr ((hgraph owner).get hindex hother) htags

theorem IsChosen.congr (hgraph : graph.SameTags other) (htags : SameForms tags wanted)
    (h : graph.IsChosen subjects tags fallback hit) :
    other.IsChosen subjects wanted fallback hit := by
  obtain ⟨photo, hphoto, hchosen⟩ := h
  obtain ⟨otherPhoto, hotherPhoto, hiff⟩ := exists_isSubjectPhoto hgraph htags hphoto
  refine ⟨otherPhoto, hotherPhoto, hchosen.imp hiff.mp fun ⟨hall, hnone⟩ => ⟨hall, ?_⟩⟩
  intro found foundPhoto hfound hbears
  obtain ⟨back, hback, hiff⟩ :=
    exists_isSubjectPhoto hgraph.symm (fun form => (htags form).symm) hfound
  exact hnone found back hback (hiff.mp hbears)

/-- Of tags only the forms count in which they are compared. -/
theorem searchTags_congr (hgraph : graph.SameTags other) (htags : SameForms tags wanted) :
    other.searchTags subjects wanted mode fallback =
      graph.searchTags subjects tags mode fallback := by
  have hphotos : other.searchTags subjects wanted .photos fallback =
      graph.searchTags subjects tags .photos fallback := by
    refine ((listsBy_photos graph subjects tags fallback).eq_iff _).mpr ?_
    refine (listsBy_photos other subjects wanted fallback).congr fun hit => ⟨?_, ?_⟩
    · exact IsChosen.congr hgraph.symm fun form => (htags form).symm
    · exact IsChosen.congr hgraph htags
  cases mode with
  | photos => exact hphotos
  | entities => rw [searchTags_entities_eq, hphotos, ← searchTags_entities_eq]

end Congruence

/-- **A tag search is a filter of the subjects' photos.**  It lists the chosen photos, or else their
owners, in the order in which the entities behind the subjects are first seen, without repeats; and
it does so in one pass.  Repeating a subject changes nothing, nor does replacing photos by their
owners, nor does the order, the number or the ASCII case of tags. -/
theorem searchTags_filters (graph : Graph) (subjects : List Hit) (tags : List Text)
    (fallback : WhenUntagged) :
    (∀ hits, hits = graph.searchTags subjects tags .photos fallback ↔
      ListsBy (Hit.placeAmong subjects) (graph.IsChosen subjects tags fallback) hits) ∧
    (∀ hits, hits = graph.searchTags subjects tags .entities fallback ↔
      ListsBy (Hit.placeAmong subjects) (fun hit =>
        ∃ photo, graph.IsChosen subjects tags fallback photo ∧ hit = photo.entity.toHit) hits) ∧
    ∀ mode,
      (graph.gather subjects tags).answer mode fallback =
          graph.searchTags subjects tags mode fallback ∧
      (graph.searchTags subjects tags mode fallback).Nodup ∧
      (∀ hit ∈ graph.searchTags subjects tags mode fallback,
        hit.entity ∈ subjects.map Hit.entity ∧ graph.photosOf hit.entity ≠ []) ∧
      (∀ before again after, subjects = before ++ again :: after →
        again.entity ∈ before.map Hit.entity →
        graph.searchTags (before ++ after) tags mode fallback =
          graph.searchTags subjects tags mode fallback) ∧
      (∀ others, others.map Hit.entity = subjects.map Hit.entity →
        graph.searchTags others tags mode fallback =
          graph.searchTags subjects tags mode fallback) ∧
      (∀ wanted, (∀ tag, tag ∈ tags ↔ tag ∈ wanted) →
        graph.searchTags subjects wanted mode fallback =
          graph.searchTags subjects tags mode fallback) ∧
      (∀ wanted, List.Forall₂ (fun tag want => Text.sameAscii tag want = true) tags wanted →
        graph.searchTags subjects wanted mode fallback =
          graph.searchTags subjects tags mode fallback) ∧
      ∀ other : Graph, graph.SameTags other →
        other.searchTags subjects tags mode fallback =
          graph.searchTags subjects tags mode fallback := by
  have hphotos := listsBy_photos graph subjects tags fallback
  have howners := listsBy_owners graph subjects tags fallback
  refine ⟨hphotos.eq_iff, howners.eq_iff, fun mode => ?_⟩
  refine ⟨answer_gather .., ?_, ?_, ?_, ?_, ?_, ?_, ?_⟩
  · cases mode with
    | photos => exact hphotos.nodup
    | entities => exact howners.nodup
  · intro hit hhit
    cases mode with
    | photos => exact ((hphotos.2 hit).mp hhit).entity_mem
    | entities =>
      obtain ⟨photo, hphoto, rfl⟩ := (howners.2 hit).mp hhit
      rw [Hit.entity_toHit]
      exact hphoto.entity_mem
  · rintro before again after rfl hagain
    exact (searchTags_again hagain after).symm
  · exact fun others => searchTags_owners
  · exact fun wanted hmem => searchTags_congr (SameTags.refl graph) (sameForms_of_mem_iff hmem)
  · exact fun wanted hsame => searchTags_congr (SameTags.refl graph) (sameForms_of_sameAscii hsame)
  · exact fun other hgraph => searchTags_congr hgraph fun form => Iff.rfl

/-- A zoo by one of its photos, a panda twice, an id that nobody has, and the zoo once more.  No
photo of the zoo bears a tag, and two photos of the panda do. -/
theorem searchTags_filters_sleeping :
    let tagged (tags : List Text) : Photo := { url := "g".toList, tags }
    let panda (form : Text) : Panda :=
      { id := 1, photos := [tagged [form], tagged [], tagged ["yawn".toList, form]] }
    let zoo : Zoo := { id := 1, photos := [tagged ["eating".toList]] }
    let graph := ofExport { pandas := [panda "Sleeping".toList], zoos := [zoo] }
    let recased := ofExport { pandas := [panda "sLEEPING".toList], zoos := [zoo] }
    let subjects : List Hit :=
      [.photo (.zoo 1) 0, .panda 1, .photo (.panda 1) 2, .panda 7, .zoo 1]
    let tags : List Text := ["tongue".toList, "sleeping".toList]
    graph.searchTags subjects tags .photos .all = [.photo (.panda 1) 0, .photo (.panda 1) 2] ∧
      graph.searchTags subjects tags .entities .all = [.panda 1] ∧
      graph.searchTags subjects [] .photos .all =
        [.photo (.zoo 1) 0, .photo (.panda 1) 0, .photo (.panda 1) 1, .photo (.panda 1) 2] ∧
      graph.searchTags subjects [] .entities .all = [.zoo 1, .panda 1] ∧
      graph.photosOf (.panda 1) ≠ [] ∧
      graph.searchTags [.photo (.zoo 1) 0, .panda 1, .panda 7, .zoo 1] tags .photos .all =
        graph.searchTags subjects tags .photos .all ∧
      graph.searchTags [.zoo 1, .panda 1, .panda 1, .panda 7, .zoo 1] tags .photos .all =
        graph.searchTags subjects tags .photos .all ∧
      graph.searchTags subjects ["sleeping".toList, "tongue".toList, "sleeping".toList] .photos
          .all =
        graph.searchTags subjects tags .photos .all ∧
      graph.searchTags subjects ["Tongue".toList, "SLEEPING".toList] .photos .all =
        graph.searchTags subjects tags .photos .all ∧
      recased.searchTags subjects tags .photos .all =
        graph.searchTags subjects tags .photos .all := by
  intro tagged panda zoo graph recased subjects tags
  obtain ⟨-, -, hfilters⟩ := searchTags_filters graph subjects tags .all
  obtain ⟨-, -, huntagged⟩ := searchTags_filters graph subjects [] .all
  obtain ⟨hpass, -, hlive, hagain, howners, hmem, hcase, hgraph⟩ := hfilters .photos
  have hfound : graph.searchTags subjects tags .photos .all =
      [.photo (.panda 1) 0, .photo (.panda 1) 2] := by
    rw [← hpass]
    decide +kernel
  have hrecased : graph.SameTags recased := by
    rintro (id | id)
    · show List.Forall₂ _ (((([panda _]).find? (·.id == id)).map Panda.photos).getD [])
        (((([panda _]).find? (·.id == id)).map Panda.photos).getD [])
      cases hid : (1 : EntityId) == id with
      | false =>
        simp only [List.find?, panda, hid]
        exact .nil
      | true =>
        simp only [List.find?, panda, hid]
        exact .cons (sameForms_of_sameAscii (.cons (by decide) .nil))
          (.cons (fun _ => Iff.rfl)
            (.cons (sameForms_of_sameAscii (.cons (by decide) (.cons (by decide) .nil))) .nil))
    · show List.Forall₂ _ (((([zoo]).find? (·.id == id)).map Zoo.photos).getD [])
        (((([zoo]).find? (·.id == id)).map Zoo.photos).getD [])
      exact List.forall₂_same.mpr fun _ _ _ => Iff.rfl
  refine ⟨hfound, ?_, ?_, ?_, ?_, ?_, ?_, ?_, ?_, hgraph recased hrecased⟩
  · rw [← (hfilters .entities).1]
    decide +kernel
  · rw [← (huntagged .photos).1]
    decide +kernel
  · rw [← (huntagged .entities).1]
    decide +kernel
  · exact (hlive (.photo (.panda 1) 0) (by simp [hfound])).2
  · exact hagain [.photo (.zoo 1) 0, .panda 1] (.photo (.panda 1) 2) _ rfl (by decide)
  · exact howners _ rfl
  · exact hmem _ (by simp [tags])
  · exact hcase _ (.cons (by decide) (.cons (by decide) .nil))

end Graph

end LineageSearch
