import LineageSearch.Proofs.Lineage.LostNames
import LineageSearch.Proofs.Query.BareSubjects

/-!
# The author that a bare subject may be

A subject without a keyword is looked for as the author of photos, too.  Authors are looked up
in lowercase, so one would expect the photos that the subject finds behind the keyword `credit`.
But without a keyword a name is capitalized before it is put into lowercase, and a letter may
lose its case on the way: `ß` becomes `SS` and then `ss`.

Exactly then the two searches differ (`search_bare_credit_iff`): the candidates of the author are
the photos behind `credit` if the name keeps its case, and otherwise only if there are no photos
in either place.  A photo has one author at most, so two authors never share their photos
(`photosBy_eq_iff`).
-/

namespace LineageSearch

open Text

namespace Graph

/-- Two authors have the same photos if their names agree in lowercase, or if neither has any. -/
theorem photosBy_eq_iff (records : Export) (first second : Text) :
    (ofExport records).photosBy first = (ofExport records).photosBy second ↔
      lower first = lower second ∨
        (ofExport records).photosBy first = [] ∧ (ofExport records).photosBy second = [] := by
  constructor
  · intro heq
    by_cases hempty : (ofExport records).photosBy first = []
    · exact Or.inr ⟨hempty, heq ▸ hempty⟩
    · left
      obtain ⟨hit, hhit⟩ := List.exists_mem_of_ne_nil _ hempty
      obtain ⟨owner, index, photo, name, hphoto, hname, hlower, rfl⟩ :=
        ((lists_photosBy records first).2 hit).mp hhit
      obtain ⟨_, _, other, otherName, hother, hotherName, hotherLower, hplace⟩ :=
        ((lists_photosBy records second).2 _).mp (heq ▸ hhit)
      obtain ⟨rfl, rfl⟩ := Hit.photo.inj hplace
      -- the photo of one place is one photo, and its author one author
      obtain rfl : photo = other := hasPhoto_unique hphoto hother
      obtain rfl : name = otherName := Option.some_inj.mp (hname.symm.trans hotherName)
      exact hlower.symm.trans hotherLower
  · rintro (hlower | ⟨hfirst, hsecond⟩)
    · rw [photosBy, photosBy, hlower]
    · rw [hfirst, hsecond]

/-- A subject is the same author with and without its case exactly if it keeps its case where it
is capitalized. -/
theorem lower_subjectOf_eq_iff (graph : Graph) (language : Language) {atom : Atom}
    (hatom : atom.IsRead) :
    lower (graph.subjectOf language false atom).text =
        lower (graph.subjectOf language true atom).text ↔ language.KeepsCase atom.text := by
  cases atom with
  | id digits =>
    have hdigits : ∀ c ∈ digits, c.isDigit = true := (hatom.2.mp ⟨digits, rfl⟩).2.2
    exact iff_of_true rfl (language.keepsCase_of_isDigit hdigits)
  | name words => exact language.lower_nameOf_eq_iff words

end Graph

/-- The subject of a text is the text without the blanks at its ends. -/
theorem isRead_of_subjectAtom? {input : Text} {atom : Atom} (hblank : isBlankText input = false)
    (hatom : subjectAtom? input = some atom) : atom.text = trim input ∧ atom.IsRead := by
  have htight := isTight_trim hblank
  obtain ⟨other, hother, htext, hkind⟩ := subjectAtom?_of_tight htight
  rw [subjectAtom?_trim hblank, hatom] at hother
  obtain rfl := Option.some_inj.mp hother
  exact ⟨htext, by rwa [htext], hkind⟩

namespace Engine

/-- **The author candidates of a bare subject are what it finds behind `credit` exactly if the
subject keeps its case**, unless nothing is found in either place. -/
theorem search_bare_credit_iff {records : Export} {strict : Bool} {language : Language}
    {engine : Engine} {input : Text} {bare : SearchResult} {env : Environment}
    (hbuild : build (.ofExport records) .builtin Tags.builtin strict language = .ok engine)
    (hsearch : engine.search input = .ok (bare, env)) (hparsed : bare.parsed = .subjectTerm) :
    ∃ candidates credited, bare.candidates = some candidates ∧
      engine.FindsTyped .credit input credited ∧
      (candidates.credit = credited ↔
        language.KeepsCase input ∨ candidates.credit = [] ∧ credited = []) := by
  obtain ⟨atom, hread, rfl⟩ := exists_atom_of_parsed hsearch hparsed
  obtain ⟨hblank, hatom⟩ := Grammar.subjectAtom?_of_expression?_bare hread
  obtain ⟨htext, hisRead⟩ := isRead_of_subjectAtom? hblank hatom
  obtain ⟨-, hgraph, -, rfl⟩ := of_build hbuild
  have hcandidates : (engine.denote atom .fresh).credit = (Graph.ofExport records).photosBy
      ((Graph.ofExport records).subjectOf engine.language false atom).text := by
    rw [← hgraph]
    rfl
  refine ⟨_, _, rfl, findsTyped_of_bare hbuild hread .credit, ?_⟩
  show (engine.denote atom .fresh).credit = (Graph.ofExport records).photosBy
    ((Graph.ofExport records).subjectOf engine.language true atom).text ↔ _ ∨
      (engine.denote atom .fresh).credit = [] ∧ _
  rw [hcandidates, ← engine.language.keepsCase_trim, ← htext,
    ← Graph.lower_subjectOf_eq_iff (.ofExport records) engine.language hisRead]
  exact Graph.photosBy_eq_iff records _ _

/-- The photo of the author `ß` is found behind `credit`, and is no candidate of the bare name:
its capital `SS` comes back as `ss`. -/
theorem search_bare_credit_iff_sharp_s :
    let records : Export := { zoos :=
      [{ id := 99999, photos := [{ url := "z1".toList, author := some "ß".toList }] }] }
    ∃ engine bare env candidates credited,
      build (.ofExport records) .builtin Tags.builtin false .en = .ok engine ∧
      engine.search "ß".toList = .ok (bare, env) ∧ bare.parsed = .subjectTerm ∧
      bare.candidates = some candidates ∧ engine.FindsTyped .credit "ß".toList credited ∧
      credited = [.photo (.zoo 99999) 0] ∧ candidates.credit ≠ credited := by
  intro records
  have hrun : (build (.ofExport records) .builtin Tags.builtin false .en).toOption.map
      (fun engine => ((engine.search "ß".toList).toOption.map fun found => found.1.parsed,
        (engine.search (TypeOperator.credit.name ++ ' ' :: "ß".toList)).toOption.map
          fun found => found.1.hits)) =
      some (some .subjectTerm, some [.photo (.zoo 99999) 0]) := by
    decide +kernel
  obtain ⟨engine, hbuild, hruns⟩ := exists_ok_of_map_toOption hrun
  obtain ⟨hbareRun, hcreditRun⟩ := Prod.mk.inj hruns
  obtain ⟨⟨bare, env⟩, hsearch, hparsed⟩ := exists_ok_of_map_toOption hbareRun
  obtain ⟨⟨found, left⟩, hfound, hhits⟩ := exists_ok_of_map_toOption hcreditRun
  obtain ⟨candidates, credited, hcandidates, hcredited, hiff⟩ :=
    search_bare_credit_iff hbuild hsearch hparsed
  have hphotos : credited = [.photo (.zoo 99999) 0] := by
    obtain ⟨other, otherEnv, hother, -, -, rfl⟩ := hcredited
    obtain ⟨rfl, rfl⟩ := Prod.mk.inj (Except.ok.inj (hother.symm.trans hfound))
    exact hhits
  have hlost : ¬ Language.KeepsCase .en "ß".toList := fun hkeeps =>
    hkeeps rfl "ß".toList (by decide) "ß".toList (by decide) 'ß' rfl (by decide +kernel)
  refine ⟨engine, bare, env, candidates, credited, hbuild, hsearch, hparsed, hcandidates,
    hcredited, hphotos, fun heq => ?_⟩
  rcases hiff.mp heq with hkeeps | ⟨-, hnone⟩
  · exact hlost hkeeps
  · rw [hphotos] at hnone
    cases hnone

end Engine

end LineageSearch
