import LineageSearch.Proofs.Query.Scan

/-!
# Results are well formed

Nobody sorts the hits of a search, drops repeats, or checks that they still exist.  All the
same, every result of a search over loaded records is well formed
(`SearchResult.WellFormed`).

* Its hits, and those of each candidate, strictly ascend, so none is repeated.
* They are live: they name loaded pandas and zoos, and photos that these have.
* They are of the kind that the result was resolved as; an unresolved result has none.
* A result has candidates, and no keyword, exactly if the search was a bare subject.

## Strategy

Whatever the graph answers is listed in order, as `Lists` says, and each answer is about loaded
records of one kind; together this is `Export.ListsOnly`.  A result takes its hits from one such
answer.  A tag search alone asks the graph again, for photos of what was answered before, and
the order of these comes from the order of that answer.

It plays no part under which name a subject was looked up, so the results are those of any
subject that was answered by the graph (`DenotedSubject.AnsweredBy`).
-/

namespace LineageSearch

/-! ## Hits that are loaded, and their kinds -/

/-- Whether a hit names a loaded panda or zoo, or one of its photos. -/
def Export.IsLive (records : Export) : Hit → Prop
  | .panda id => ∃ panda, records.HasPanda panda ∧ panda.id = id
  | .zoo id => ∃ zoo, records.HasZoo zoo ∧ zoo.id = id
  | .photo (.panda id) index =>
    ∃ panda, records.HasPanda panda ∧ panda.id = id ∧ index < panda.photos.length
  | .photo (.zoo id) index =>
    ∃ zoo, records.HasZoo zoo ∧ zoo.id = id ∧ index < zoo.photos.length

namespace Hit

def IsPanda (hit : Hit) : Prop := ∃ id, hit = .panda id

def IsZoo (hit : Hit) : Prop := ∃ id, hit = .zoo id

def IsPhoto (hit : Hit) : Prop := ∃ owner index, hit = .photo owner index

/-- Whether a hit is of the kind that a result was resolved as.  Behind a tag pandas and zoos
are replaced by their photos. -/
def Agrees (parsed : Alternative) : Option TypeOperator → Hit → Prop
  | none, _ => False
  | some .panda, hit =>
    if parsed = .tagExpression then ∃ id index, hit = .photo (.panda id) index else hit.IsPanda
  | some .zoo, hit =>
    if parsed = .tagExpression then ∃ id index, hit = .photo (.zoo id) index else hit.IsZoo
  | some .credit, hit => hit.IsPhoto
  | some .baby, hit => hit.IsPanda
  | some .dead, hit => hit.IsPanda

end Hit

/-- Whether hits strictly ascend, without repeats, and are live and all of one kind. -/
structure Export.ListsOnly (records : Export) (kind : Hit → Prop) (hits : List Hit) : Prop where
  ascending : hits.Pairwise (· < ·)
  nodup : hits.Nodup
  live : ∀ hit ∈ hits, records.IsLive hit
  kind : ∀ hit ∈ hits, kind hit

/-- Whether the hits of a result are in order, live and of the kind that it was resolved as,
and it has candidates instead of a keyword if it is that of a bare subject. -/
structure SearchResult.WellFormed (records : Export) (result : SearchResult) : Prop where
  hits : records.ListsOnly (Hit.Agrees result.parsed result.resolved) result.hits
  keyword : result.keyword = none ↔ result.parsed = .subjectTerm
  candidates : result.candidates.isSome ↔ result.parsed = .subjectTerm
  candidate : ∀ candidates ∈ result.candidates,
    records.ListsOnly Hit.IsPanda candidates.panda ∧
      records.ListsOnly Hit.IsZoo candidates.zoo ∧ records.ListsOnly Hit.IsPhoto candidates.credit

/-- Whether the hits of a subject are what the graph answers for its id, or else for some name
and some author. -/
structure DenotedSubject.AnsweredBy (graph : Graph) (reduced : DenotedSubject) : Prop where
  panda : ∃ name, reduced.panda = match reduced.subject.id with
    | some id => graph.pandaHit id
    | none => graph.pandasNamed name
  zoo : ∃ name, reduced.zoo = match reduced.subject.id with
    | some id => graph.zooHit id
    | none => graph.zoosNamed name
  credit : ∃ author, reduced.credit = graph.photosBy author

section ListsOnly

variable {records : Export} {kind : Hit → Prop} {hits : List Hit} {hit : Hit}

theorem Lists.listsOnly {answer : Hit → Prop} (h : Lists hits answer)
    (hanswer : ∀ hit, answer hit → records.IsLive hit ∧ kind hit) :
    records.ListsOnly kind hits where
  ascending := h.1
  nodup := h.nodup
  live := fun hit hmem => (hanswer hit ((h.2 hit).mp hmem)).1
  kind := fun hit hmem => (hanswer hit ((h.2 hit).mp hmem)).2

theorem Export.ListsOnly.imp {other : Hit → Prop} (h : records.ListsOnly kind hits)
    (himp : ∀ hit, kind hit → other hit) : records.ListsOnly other hits :=
  { h with kind := fun hit hmem => himp hit (h.kind hit hmem) }

theorem Export.listsOnly_nil : records.ListsOnly kind [] :=
  lists_nil.listsOnly fun _ => False.elim

/-! ## What the graph answers -/

theorem Export.isLive_photo {owner : Entity} {index : Nat} {photo : Photo}
    (h : records.HasPhoto owner index photo) : records.IsLive (.photo owner index) := by
  cases owner with
  | panda id =>
    obtain ⟨panda, hpanda, hid, hphoto⟩ := h
    exact ⟨panda, hpanda, hid, (List.getElem?_eq_some_iff.mp hphoto).1⟩
  | zoo id =>
    obtain ⟨zoo, hzoo, hid, hphoto⟩ := h
    exact ⟨zoo, hzoo, hid, (List.getElem?_eq_some_iff.mp hphoto).1⟩

/-- Pandas that are listed for any reason are loaded pandas. -/
theorem Lists.listsOnly_pandas {reason : Panda → Prop}
    (h : Lists hits fun hit =>
      ∃ panda, records.HasPanda panda ∧ reason panda ∧ hit = .panda panda.id) :
    records.ListsOnly Hit.IsPanda hits := by
  refine h.listsOnly fun hit => ?_
  rintro ⟨panda, hpanda, -, rfl⟩
  exact ⟨⟨panda, hpanda, rfl⟩, panda.id, rfl⟩

theorem Lists.listsOnly_zoos {reason : Zoo → Prop}
    (h : Lists hits fun hit => ∃ zoo, records.HasZoo zoo ∧ reason zoo ∧ hit = .zoo zoo.id) :
    records.ListsOnly Hit.IsZoo hits := by
  refine h.listsOnly fun hit => ?_
  rintro ⟨zoo, hzoo, -, rfl⟩
  exact ⟨⟨zoo, hzoo, rfl⟩, zoo.id, rfl⟩

end ListsOnly

namespace Graph

theorem listsOnly_births (records : Export) (year : Option Int) :
    records.ListsOnly Hit.IsPanda ((ofExport records).births year) := by
  refine (lists_births records year).listsOnly fun hit => ?_
  rintro ⟨panda, birthday, hpanda, -, -, rfl⟩
  exact ⟨⟨panda, hpanda, rfl⟩, panda.id, rfl⟩

theorem listsOnly_deaths (records : Export) (year : Option Int) :
    records.ListsOnly Hit.IsPanda ((ofExport records).deaths year) := by
  refine (lists_deaths records year).listsOnly fun hit => ?_
  rintro ⟨panda, death, hpanda, -, -, rfl⟩
  exact ⟨⟨panda, hpanda, rfl⟩, panda.id, rfl⟩

theorem listsOnly_photosBy (records : Export) (author : Text) :
    records.ListsOnly Hit.IsPhoto ((ofExport records).photosBy author) := by
  refine (lists_photosBy records author).listsOnly fun hit => ?_
  rintro ⟨owner, index, photo, name, hphoto, -, -, rfl⟩
  exact ⟨Export.isLive_photo hphoto, owner, index, rfl⟩

/-- The tagged photos of entities that are listed are photos of these. -/
theorem listsOnly_searchTags {records : Export} {subjects : List Hit} {kind : Hit → Prop}
    (hsubjects : records.ListsOnly kind subjects)
    (hentity : ∀ hit, kind hit → ∃ owner : Entity, hit = owner.toHit) (tag : Text) :
    records.ListsOnly (fun hit => ∃ owner index, kind owner.toHit ∧ hit = .photo owner index)
      ((ofExport records).searchTags subjects [tag] .photos .none) := by
  have hlists : Lists subjects fun hit => ∃ owner : Entity, owner.toHit ∈ subjects ∧
      hit = owner.toHit := by
    refine ⟨hsubjects.ascending, fun hit => ⟨fun hmem => ?_, ?_⟩⟩
    · obtain ⟨owner, rfl⟩ := hentity hit (hsubjects.kind hit hmem)
      exact ⟨owner, hmem, rfl⟩
    · rintro ⟨owner, hmem, rfl⟩
      exact hmem
  refine (lists_searchTags records hlists tag).listsOnly fun hit => ?_
  rintro ⟨owner, index, photo, howner, hphoto, -, rfl⟩
  exact ⟨Export.isLive_photo hphoto, owner, index, hsubjects.kind _ howner, rfl⟩

end Graph

/-! ## Subjects -/

namespace DenotedSubject.AnsweredBy

variable {records : Export} {reduced : DenotedSubject}

theorem listsOnly_panda (h : reduced.AnsweredBy (.ofExport records)) :
    records.ListsOnly Hit.IsPanda reduced.panda := by
  obtain ⟨name, hpanda⟩ := h.panda
  rw [hpanda]
  cases reduced.subject.id with
  | some id => exact (Graph.lists_pandaHit records id).listsOnly_pandas
  | none => exact (Graph.lists_pandasNamed records name).listsOnly_pandas

theorem listsOnly_zoo (h : reduced.AnsweredBy (.ofExport records)) :
    records.ListsOnly Hit.IsZoo reduced.zoo := by
  obtain ⟨name, hzoo⟩ := h.zoo
  rw [hzoo]
  cases reduced.subject.id with
  | some id => exact (Graph.lists_zooHit records id).listsOnly_zoos
  | none => exact (Graph.lists_zoosNamed records name).listsOnly_zoos

theorem listsOnly_credit (h : reduced.AnsweredBy (.ofExport records)) :
    records.ListsOnly Hit.IsPhoto reduced.credit := by
  obtain ⟨author, hcredit⟩ := h.credit
  rw [hcredit]
  exact Graph.listsOnly_photosBy records author

/-- What a subject is taken for is of the type it is taken for. -/
theorem listsOnly_preferred (h : reduced.AnsweredBy (.ofExport records)) {parsed : Alternative}
    (hparsed : parsed ≠ .tagExpression) :
    records.ListsOnly (Hit.Agrees parsed reduced.preferred.1) reduced.preferred.2 := by
  unfold preferred
  split
  · refine h.listsOnly_panda.imp fun hit hpanda => ?_
    rw [Hit.Agrees, if_neg hparsed]
    exact hpanda
  · split
    · refine h.listsOnly_zoo.imp fun hit hzoo => ?_
      rw [Hit.Agrees, if_neg hparsed]
      exact hzoo
    · exact Export.listsOnly_nil

end DenotedSubject.AnsweredBy

/-! ## Results -/

namespace Engine

variable {records : Export} {engine : Engine} {reduced : DenotedSubject}

theorem answeredBy_denote (engine : Engine) (atom : Atom) (env : Environment) :
    (engine.denote atom env).AnsweredBy engine.graph where
  panda := ⟨_, rfl⟩
  zoo := ⟨_, rfl⟩
  credit := ⟨_, rfl⟩

theorem listsOnly_zeroaryResult (hgraph : engine.graph = .ofExport records) (keyword : Text) :
    records.ListsOnly (Hit.Agrees .zeroaryExpression (engine.registry.typeOperator? keyword))
      (engine.zeroaryResult keyword).hits := by
  show records.ListsOnly _ (engine.graph.denotedAlone (engine.registry.typeOperator? keyword))
  rw [hgraph]
  cases engine.registry.typeOperator? keyword with
  | none => exact Export.listsOnly_nil
  | some kind =>
    cases kind with
    | baby => exact Graph.listsOnly_births records none
    | dead => exact Graph.listsOnly_deaths records none
    | credit | panda | zoo => exact Export.listsOnly_nil

theorem zeroaryResult_wellFormed (hgraph : engine.graph = .ofExport records) (keyword : Text) :
    (engine.zeroaryResult keyword).WellFormed records where
  hits := listsOnly_zeroaryResult hgraph keyword
  keyword := by simp [zeroaryResult, zeroaryResultBy]
  candidates := by simp [zeroaryResult, zeroaryResultBy]
  candidate := fun _ hnone => (Option.not_mem_none _ hnone).elim

theorem listsOnly_typeResult (hgraph : engine.graph = .ofExport records)
    (hanswered : reduced.AnsweredBy engine.graph) (keyword : Text) :
    records.ListsOnly (Hit.Agrees .typeExpression (engine.registry.typeOperator? keyword))
      (engine.typeResult keyword reduced).hits := by
  rw [hgraph] at hanswered
  unfold typeResult typeResultBy
  dsimp only
  cases engine.registry.typeOperator? keyword with
  | none => exact Export.listsOnly_nil
  | some kind =>
    cases kind with
    | panda => exact hanswered.listsOnly_panda
    | zoo => exact hanswered.listsOnly_zoo
    | credit => exact hanswered.listsOnly_credit
    | baby =>
      show records.ListsOnly Hit.IsPanda (engine.graph.births _)
      rw [hgraph]
      exact Graph.listsOnly_births records _
    | dead =>
      show records.ListsOnly Hit.IsPanda (engine.graph.deaths _)
      rw [hgraph]
      exact Graph.listsOnly_deaths records _

theorem typeResult_wellFormed (hgraph : engine.graph = .ofExport records)
    (hanswered : reduced.AnsweredBy engine.graph) (keyword : Text) :
    (engine.typeResult keyword reduced).WellFormed records where
  hits := listsOnly_typeResult hgraph hanswered keyword
  keyword := by simp [typeResult, typeResultBy]
  candidates := by simp [typeResult, typeResultBy]
  candidate := fun _ hnone => (Option.not_mem_none _ hnone).elim

theorem listsOnly_tagResult (hgraph : engine.graph = .ofExport records)
    (hanswered : reduced.AnsweredBy engine.graph) (tag : Text) :
    records.ListsOnly (Hit.Agrees .tagExpression reduced.preferred.1)
      (engine.tagResult tag reduced).hits := by
  rw [hgraph] at hanswered
  unfold tagResult tagResultBy DenotedSubject.preferred
  dsimp only
  rw [resolver_tagged, hgraph]
  split
  · refine (Graph.listsOnly_searchTags hanswered.listsOnly_panda ?_ _).imp fun hit => ?_
    · rintro _ ⟨id, rfl⟩
      exact ⟨.panda id, rfl⟩
    · rintro ⟨⟨id⟩ | ⟨id⟩, index, ⟨other, howner⟩, rfl⟩
      · exact ⟨id, index, rfl⟩
      · cases howner
  · split
    · refine (Graph.listsOnly_searchTags hanswered.listsOnly_zoo ?_ _).imp fun hit => ?_
      · rintro _ ⟨id, rfl⟩
        exact ⟨.zoo id, rfl⟩
      · rintro ⟨⟨id⟩ | ⟨id⟩, index, ⟨other, howner⟩, rfl⟩
        · cases howner
        · exact ⟨id, index, rfl⟩
    · exact Export.listsOnly_nil

theorem tagResult_wellFormed (hgraph : engine.graph = .ofExport records)
    (hanswered : reduced.AnsweredBy engine.graph) (tag : Text) :
    (engine.tagResult tag reduced).WellFormed records where
  hits := listsOnly_tagResult hgraph hanswered tag
  keyword := by simp [tagResult, tagResultBy]
  candidates := by simp [tagResult, tagResultBy]
  candidate := fun _ hnone => (Option.not_mem_none _ hnone).elim

theorem listsOnly_bareResult (hgraph : engine.graph = .ofExport records)
    (hanswered : reduced.AnsweredBy engine.graph) :
    records.ListsOnly (Hit.Agrees .subjectTerm (engine.bareResult reduced).resolved)
      (engine.bareResult reduced).hits := by
  rw [hgraph] at hanswered
  have hpreferred : records.ListsOnly (Hit.Agrees .subjectTerm reduced.preferred.1)
      reduced.preferred.2 := hanswered.listsOnly_preferred (by decide)
  unfold bareResult bareResultBy
  cases hid : reduced.subject.id with
  | none => exact hpreferred
  | some id =>
    simp only [resolver_denoted, hgraph, Graph.denoted, hid]
    split
    · exact (Graph.lists_pandaHit records id).listsOnly_pandas
    · exact hpreferred

theorem bareResult_wellFormed (hgraph : engine.graph = .ofExport records)
    (hanswered : reduced.AnsweredBy engine.graph) :
    (engine.bareResult reduced).WellFormed records where
  hits := listsOnly_bareResult hgraph hanswered
  keyword := by simp [bareResult, bareResultBy]
  candidates := by simp [bareResult, bareResultBy]
  candidate := by
    rw [hgraph] at hanswered
    intro candidates hcandidates
    obtain rfl := Option.some_inj.mp hcandidates
    exact ⟨hanswered.listsOnly_panda, hanswered.listsOnly_zoo, hanswered.listsOnly_credit⟩

theorem reduce_wellFormed (hgraph : engine.graph = .ofExport records) (expression : Expression)
    (env : Environment) : (engine.reduce expression env).1.WellFormed records := by
  cases expression with
  | zeroary keyword => exact zeroaryResult_wellFormed hgraph keyword
  | typed keyword atom => exact typeResult_wellFormed hgraph (answeredBy_denote ..) keyword
  | tagged tag atom => exact tagResult_wellFormed hgraph (answeredBy_denote ..) tag
  | bare atom => exact bareResult_wellFormed hgraph (answeredBy_denote ..)

/-- **Every result is well formed**, whatever notes earlier searches left.  The second part
says that this does not depend on how names are brought into the casing of the records: what
is made of a subject is well formed under whichever name the graph was asked for it. -/
theorem search_wellFormed (hgraph : engine.graph = .ofExport records) :
    (∀ input env result, (engine.searchIn input env).1 = .ok result → result.WellFormed records) ∧
      ∀ reduced : DenotedSubject, reduced.AnsweredBy engine.graph → ∀ keyword,
        (engine.typeResult keyword reduced).WellFormed records ∧
          (engine.tagResult keyword reduced).WellFormed records ∧
          (engine.bareResult reduced).WellFormed records := by
  constructor
  · intro input env result hfound
    unfold searchIn at hfound
    split at hfound
    · next expression _ =>
      obtain rfl := Except.ok.inj hfound
      exact reduce_wellFormed hgraph expression env
    · cases hfound
  · intro reduced hanswered keyword
    exact ⟨typeResult_wellFormed hgraph hanswered keyword,
      tagResult_wellFormed hgraph hanswered keyword, bareResult_wellFormed hgraph hanswered⟩

/-- A tag search in the notes of a credit search.  Of two pandas of one name one was recorded
anew without it, so the photos of the other one are found, in order. -/
theorem search_wellFormed_after_credit :
    let shared : Names := { en := some "Gin".toList }
    let plain : Photo := { url := "g".toList }
    let yawning : Photo := { url := "g".toList, tags := ["yawn".toList] }
    let records : Export := { pandas :=
      [{ id := 9, names := shared, photos := [yawning, plain, yawning] },
        { id := 4, names := shared, photos := [yawning] },
        { id := 4, names := { jp := some "ギン".toList } }] }
    let left : Environment :=
      { output := .photos, credit := some "alice".toList, preserveCase := true,
        terms := ["credit".toList, "alice".toList] }
    ∃ engine result, build (.ofExport records) .builtin Tags.builtin false .en = .ok engine ∧
      (engine.searchIn "yawning gin".toList left).1 = .ok result ∧ result.WellFormed records ∧
      result.hits = [.photo (.panda 9) 0, .photo (.panda 9) 2] := by
  intro shared plain yawning records left
  have hrun : (build (.ofExport records) .builtin Tags.builtin false .en).toOption.map
      (fun engine => (engine.searchIn "yawning gin".toList left).1.toOption.map
        fun found => found.hits) =
      some (some [.photo (.panda 9) 0, .photo (.panda 9) 2]) := by
    decide +kernel
  obtain ⟨engine, hbuild, hsearch⟩ := exists_ok_of_map_toOption hrun
  obtain ⟨result, hfound, hhits⟩ := exists_ok_of_map_toOption hsearch
  exact ⟨engine, result, hbuild, hfound, (search_wellFormed (of_build hbuild).2.1).1 _ _ _ hfound,
    hhits⟩

end Engine

end LineageSearch
