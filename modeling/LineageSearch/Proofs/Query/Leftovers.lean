import LineageSearch.Proofs.Query.Scan

/-!
# Notes of earlier searches

Notes stay in the environment until somebody resets it, and a search reads them: where an
earlier search was for the photos of an author, the case of a name is kept as it was typed.
This file compares two searches for one text that begin with different notes.  They are both
refused, or they find the same (`searchIn_sameFinds`).

## Strategy

Of all notes only the flag for the case of names is read (`denote_congr`).  A type keyword sets
that flag before its subject is read, so what was left of it cannot matter there.  In a tag
search or a bare one it changes the text of the subject and no more than that: the text is
capitalized when it is looked up, whether or not it was before (`nameOf_subjectOf`), so the
pandas and zoos are the same.  Authors are looked up as the text stands, which is why the photos
of a candidate author may differ.
-/

namespace LineageSearch

open Text

/-- Whether two results tell of the same finds.  They may differ in the casing of their
queries, and unless they are those of a keyword alone or of a type keyword, in the photos of the
author that the subject may be. -/
structure SearchResult.SameFinds (language : Language) (first second : SearchResult) : Prop where
  parsed : first.parsed = second.parsed
  hits : first.hits = second.hits
  keyword : first.keyword = second.keyword
  resolved : first.resolved = second.resolved
  panda : first.candidates.map Candidates.panda = second.candidates.map Candidates.panda
  zoo : first.candidates.map Candidates.zoo = second.candidates.map Candidates.zoo
  query : language.nameOf first.query = language.nameOf second.query
  whole : first.parsed = .zeroaryExpression ∨ first.parsed = .typeExpression → first = second

theorem SearchResult.SameFinds.rfl {language : Language} {result : SearchResult} :
    result.SameFinds language result where
  parsed := Eq.refl _
  hits := Eq.refl _
  keyword := Eq.refl _
  resolved := Eq.refl _
  panda := Eq.refl _
  zoo := Eq.refl _
  query := Eq.refl _
  whole := fun _ => Eq.refl _

/-! ## Subjects in two casings -/

/-- Texts that are one name are one name behind a word, too. -/
theorem Language.nameOf_unwords_pair (language : Language) (word : Text) {text other : Text}
    (h : language.nameOf text = language.nameOf other) :
    language.nameOf (unwords [word, text]) = language.nameOf (unwords [word, other]) := by
  have hpair : ∀ t, words (unwords [word, t]) = words word ++ words t := by
    intro t
    rw [unwords_pair, words_append_blank (by decide)]
  rw [nameOf, nameOf, hpair, hpair]
  cases language with
  | en =>
    have hwords : (words text).map capitalizeWord = (words other).map capitalizeWord := by
      simpa only [words_nameOf] using congrArg words h
    show unwords ((words word ++ words text).map capitalizeWord) =
      unwords ((words word ++ words other).map capitalizeWord)
    rw [List.map_append, List.map_append, hwords]
  | jp =>
    have hwords : words text = words other := by
      simpa only [words_nameOf] using congrArg words h
    rw [hwords]

namespace Graph

variable (graph : Graph) (language : Language) (keep other : Bool) (atom : Atom)

theorem id_subjectOf :
    (graph.subjectOf language keep atom).id = (graph.subjectOf language other atom).id := by
  cases atom with
  | id digits => rfl
  | name words => cases keep <;> cases other <;> rfl

/-- Whether the case of a subject was kept plays no part for the pandas and zoos it denotes. -/
theorem denoted_entities_subjectOf {kind : TypeOperator} (hkind : kind = .panda ∨ kind = .zoo) :
    graph.denoted language (graph.subjectOf language keep atom) (some kind) =
      graph.denoted language (graph.subjectOf language other atom) (some kind) := by
  have hid := graph.id_subjectOf language keep other atom
  have hname := (graph.nameOf_subjectOf language keep atom).trans
    (graph.nameOf_subjectOf language other atom).symm
  rcases hkind with rfl | rfl
  · simp only [denoted, hid, hname]
  · simp only [denoted, hid, hname]

end Graph

/-! ## Results in two environments -/

namespace Engine

variable (engine : Engine) (first second : Environment)

/-- Of all notes only the flag for the case of names is read. -/
theorem denote_congr {first second : Environment} (atom : Atom)
    (h : first.preserveCase = second.preserveCase) :
    engine.denote atom first = engine.denote atom second := by
  rw [denote_eq, denote_eq, h]

/-- A type keyword sets the flag for the case of names, whatever it was. -/
theorem preserveCase_noteType_eq (kind : Option TypeOperator) (keyword : Text) :
    (first.noteType kind keyword).preserveCase = (second.noteType kind keyword).preserveCase := by
  unfold Environment.noteType
  split <;> rfl

theorem panda_denote (atom : Atom) :
    (engine.denote atom first).panda = (engine.denote atom second).panda :=
  engine.graph.denoted_entities_subjectOf engine.language _ _ atom (Or.inl rfl)

theorem zoo_denote (atom : Atom) :
    (engine.denote atom first).zoo = (engine.denote atom second).zoo :=
  engine.graph.denoted_entities_subjectOf engine.language _ _ atom (Or.inr rfl)

theorem preferred_denote (atom : Atom) :
    (engine.denote atom first).preferred = (engine.denote atom second).preferred := by
  unfold DenotedSubject.preferred
  rw [engine.panda_denote first second, engine.zoo_denote first second]

theorem nameOf_text_denote (atom : Atom) :
    engine.language.nameOf (engine.denote atom first).subject.text =
      engine.language.nameOf (engine.denote atom second).subject.text :=
  (engine.graph.nameOf_subjectOf engine.language _ atom).trans
    (engine.graph.nameOf_subjectOf engine.language _ atom).symm

theorem tagResult_sameFinds (tag : Text) (atom : Atom) :
    (engine.tagResult tag (engine.denote atom first)).SameFinds engine.language
      (engine.tagResult tag (engine.denote atom second)) := by
  have hpreferred := engine.preferred_denote first second atom
  refine ⟨rfl, ?_, rfl, ?_, rfl, rfl, ?_, ?_⟩
  · simp only [tagResult, tagResultBy, hpreferred]
  · simp only [tagResult, tagResultBy, hpreferred]
  · exact engine.language.nameOf_unwords_pair tag (engine.nameOf_text_denote first second atom)
  · simp [tagResult, tagResultBy]

theorem bareResult_sameFinds (atom : Atom) :
    (engine.bareResult (engine.denote atom first)).SameFinds engine.language
      (engine.bareResult (engine.denote atom second)) := by
  have hpreferred := engine.preferred_denote first second atom
  obtain ⟨hresolved, hhits⟩ := bareResult_preferred engine atom first
  obtain ⟨hresolved', hhits'⟩ := bareResult_preferred engine atom second
  refine ⟨rfl, ?_, rfl, ?_, ?_, ?_, engine.nameOf_text_denote first second atom, ?_⟩
  · rw [hhits, hhits', hpreferred]
  · rw [hresolved, hresolved', hpreferred]
  · exact congrArg some (engine.panda_denote first second atom)
  · exact congrArg some (engine.zoo_denote first second atom)
  · simp [bareResult, bareResultBy]

/-- What is found does not depend on the notes, and nothing at all depends on any of them but
the flag for the case of names. -/
theorem reduce_sameFinds (expression : Expression) :
    (engine.reduce expression first).1.SameFinds engine.language
        (engine.reduce expression second).1 ∧
      (first.preserveCase = second.preserveCase →
        (engine.reduce expression first).1 = (engine.reduce expression second).1) := by
  cases expression with
  | zeroary keyword => exact ⟨SearchResult.SameFinds.rfl, fun _ => rfl⟩
  | typed keyword atom =>
    have hdenote := engine.denote_congr atom
      (preserveCase_noteType_eq first second (engine.registry.typeOperator? keyword) keyword)
    have hresult : (engine.reduce (.typed keyword atom) first).1 =
        (engine.reduce (.typed keyword atom) second).1 :=
      congrArg (engine.typeResult keyword) hdenote
    rw [hresult]
    exact ⟨SearchResult.SameFinds.rfl, fun _ => rfl⟩
  | tagged tag atom =>
    refine ⟨engine.tagResult_sameFinds _ _ tag atom, fun hcase => ?_⟩
    have hnoted : (first.noteTag tag).preserveCase = (second.noteTag tag).preserveCase := hcase
    exact congrArg (engine.tagResult tag) (engine.denote_congr atom hnoted)
  | bare atom =>
    exact ⟨engine.bareResult_sameFinds _ _ atom, fun hcase =>
      congrArg engine.bareResult (engine.denote_congr atom hcase)⟩

/-- **Notes of earlier searches never change what is found.**  Two searches for one text are
both refused, or find the same; where the notes agree on the case of names, the results are one
and the same. -/
theorem searchIn_sameFinds (input : Text) :
    ((engine.searchIn input first).1 = .error .emptyQuery ∧
        (engine.searchIn input second).1 = .error .emptyQuery) ∨
      ∃ found again, (engine.searchIn input first).1 = .ok found ∧
        (engine.searchIn input second).1 = .ok again ∧ found.SameFinds engine.language again ∧
        (first.preserveCase = second.preserveCase → found = again) := by
  unfold searchIn
  cases engine.grammar.expression? input with
  | none => exact Or.inl ⟨rfl, rfl⟩
  | some expression =>
    exact Or.inr ⟨_, _, rfl, rfl, engine.reduce_sameFinds first second expression⟩

end Engine

end LineageSearch
