import LineageSearch.Proofs.Query.LeadingKeywords
import LineageSearch.Proofs.Query.Resolvers
import LineageSearch.Proofs.Query.Scan

/-!
# Bare subjects and typed ones

A subject without a keyword is looked for as a panda and as a zoo.  This file shows that it is
found as it is behind the keywords `panda` and `zoo` (`search_bare_eq_typed`): its candidates
are the hits of the two typed searches, and its own hits are those of the first of them that has
any.

## Strategy

The texts of the three searches are read as expressions over one and the same atom: the bare one
since it was read so (`subjectAtom?_of_expression?_bare`), and the typed ones since the name of a
type operator takes whatever stands behind it (`expression?_keyword`).  What an expression denotes
is then a matter of the atom alone, as a fresh environment and the keywords `panda` and `zoo`
agree not to keep the case of names (`search_name`).
-/

namespace LineageSearch

open Text

/-! ## Reading -/

/-- A text that is read as a bare subject denotes that subject. -/
theorem Grammar.subjectAtom?_of_expression?_bare {grammar : Grammar} {input : Text} {atom : Atom}
    (hread : grammar.expression? input = some (.bare atom)) :
    isBlankText input = false ∧ subjectAtom? input = some atom := by
  obtain ⟨hblank, alternative, hsome⟩ := exists_readAs?_of_expression? hread
  refine ⟨hblank, ?_⟩
  cases alternative with
  | zeroaryExpression =>
    obtain ⟨_, -, hwrong⟩ := Option.map_eq_some_iff.mp hsome
    cases hwrong
  | typeExpression =>
    obtain ⟨_, _, _, -, -, hwrong⟩ := bind_subject_eq_some_iff.mp hsome
    cases hwrong
  | tagExpression =>
    obtain ⟨_, _, _, -, -, hwrong⟩ := bind_subject_eq_some_iff.mp hsome
    cases hwrong
  | subjectTerm =>
    obtain ⟨other, hother, hbare⟩ := Option.map_eq_some_iff.mp hsome
    obtain rfl := Expression.bare.inj hbare
    rw [← hother, subjectAtom?_trim hblank]

namespace Engine

variable {engine : Engine} {input : Text}

/-- A search that comes out as one for a subject was read as one. -/
theorem exists_atom_of_parsed {result : SearchResult} {env : Environment}
    (hsearch : engine.search input = .ok (result, env)) (hparsed : result.parsed = .subjectTerm) :
    ∃ atom, engine.grammar.expression? input = some (.bare atom) ∧
      result = engine.bareResult (engine.denote atom .fresh) := by
  rw [search_eq] at hsearch
  cases hread : engine.grammar.expression? input with
  | none => simp [hread] at hsearch
  | some expression =>
    simp only [hread, Except.ok.injEq] at hsearch
    obtain rfl : (engine.reduce expression .fresh).1 = result := congrArg Prod.fst hsearch
    cases expression with
    | zeroary keyword => cases hparsed
    | typed keyword atom => cases hparsed
    | tagged tag atom => cases hparsed
    | bare atom => exact ⟨atom, rfl, rfl⟩

/-! ## The same subject behind a keyword -/

/-- Whether a text is found behind a type operator, and then these are its hits. -/
def FindsTyped (engine : Engine) (kind : TypeOperator) (input : Text) (hits : List Hit) : Prop :=
  ∃ result env, engine.search (kind.name ++ ' ' :: input) = .ok (result, env) ∧
    result.parsed = .typeExpression ∧ result.resolved = some kind ∧ result.hits = hits

variable {graph : Graph} {strict : Bool} {language : Language} {atom : Atom}

/-- Behind the name of a type operator, a text is a subject of that type. -/
theorem findsTyped_of_bare
    (hbuild : build graph .builtin Tags.builtin strict language = .ok engine)
    (hread : engine.grammar.expression? input = some (.bare atom)) (kind : TypeOperator) :
    engine.FindsTyped kind input (graph.denoted language
      (graph.subjectOf language (decide (kind = .credit)) atom) (some kind)) := by
  obtain ⟨hregistry, hgraph, hgrammar, hlanguage⟩ := of_build hbuild
  have hdrawn := Registry.drawnFrom_of_ofDictionary hregistry
  have hkind := typeOperator?_name hdrawn kind
  obtain ⟨hblank, hatom⟩ := Grammar.subjectAtom?_of_expression?_bare hread
  have htyped : engine.grammar.expression? (kind.name ++ ' ' :: input) =
      some (.typed kind.name atom) := by
    rw [hgrammar, (standsFirst_name hdrawn kind).expression?_keyword hdrawn hblank, hatom,
      Option.map_some]
  have hsearch : engine.search (kind.name ++ ' ' :: input) =
      .ok (engine.reduce (.typed kind.name atom) .fresh) := by
    rw [search_eq, htyped]
  refine ⟨_, _, hsearch, rfl, hkind, ?_⟩
  show (engine.typeResult kind.name (engine.denote atom (Environment.fresh.noteType
    (engine.registry.typeOperator? kind.name) kind.name))).hits = _
  rw [typeResult_hits, hkind, preserveCase_noteType, hgraph, hlanguage, Option.map_some,
    Option.getD_some]

end Engine

/-- Whether a bare result is made up of what two typed results found: they are its candidates, and
it takes the pandas, or else the zoos. -/
structure SearchResult.TakenFrom (bare : SearchResult) (pandas zoos : List Hit) : Prop where
  candidates : ∃ credit, bare.candidates = some ⟨pandas, zoos, credit⟩
  hits : bare.hits = if pandas = [] then zoos else pandas
  resolved : bare.resolved =
    if pandas ≠ [] then some .panda else if zoos ≠ [] then some .zoo else none

namespace Engine

theorem bareResult_takenFrom (engine : Engine) (atom : Atom) (env : Environment) :
    (engine.bareResult (engine.denote atom env)).TakenFrom (engine.denote atom env).panda
      (engine.denote atom env).zoo := by
  obtain ⟨hresolved, hhits⟩ := bareResult_preferred engine atom env
  refine ⟨⟨_, rfl⟩, ?_, ?_⟩
  · rw [hhits, DenotedSubject.preferred_hits]
    simp only [List.isEmpty_iff]
  · rw [hresolved, DenotedSubject.preferred]
    cases (engine.denote atom env).panda <;> cases (engine.denote atom env).zoo <;> rfl

/-- **A bare subject is found as it is behind `panda` and `zoo`.**  For every graph, both
languages and every text that is searched as a subject, its candidates are what the two typed
searches find, its hits are the pandas or else the zoos, and its type tells which. -/
theorem search_bare_eq_typed {graph : Graph} {strict : Bool} {language : Language}
    {engine : Engine} {input : Text} {bare : SearchResult} {env : Environment}
    (hbuild : build graph .builtin Tags.builtin strict language = .ok engine)
    (hsearch : engine.search input = .ok (bare, env)) (hparsed : bare.parsed = .subjectTerm) :
    ∃ pandas zoos, engine.FindsTyped .panda input pandas ∧ engine.FindsTyped .zoo input zoos ∧
      bare.TakenFrom pandas zoos := by
  obtain ⟨atom, hread, rfl⟩ := exists_atom_of_parsed hsearch hparsed
  obtain ⟨-, rfl, -, rfl⟩ := of_build hbuild
  exact ⟨_, _, findsTyped_of_bare hbuild hread .panda, findsTyped_of_bare hbuild hread .zoo,
    engine.bareResult_takenFrom atom .fresh⟩

/-- A keyword further on in the text is part of the name. -/
theorem search_bare_eq_typed_house_of_pandas :
    let records : Export := { zoos :=
      [{ id := 14, names := { en := some "House Of Pandas".toList } }] }
    let input := "house of pandas".toList
    ∃ engine bare env pandas zoos,
      build (.ofExport records) .builtin Tags.builtin false .en = .ok engine ∧
      engine.search input = .ok (bare, env) ∧ bare.parsed = .subjectTerm ∧
      engine.FindsTyped .panda input pandas ∧ engine.FindsTyped .zoo input zoos ∧
      bare.TakenFrom pandas zoos ∧ bare.hits = [.zoo 14] := by
  intro records input
  have hrun : (build (.ofExport records) .builtin Tags.builtin false .en).toOption.map
      (fun engine => (engine.search input).toOption.map
        fun found => (found.1.parsed, found.1.hits)) =
      some (some (.subjectTerm, [.zoo 14])) := by
    decide +kernel
  obtain ⟨engine, hbuild, hrun⟩ := exists_ok_of_map_toOption hrun
  obtain ⟨⟨bare, env⟩, hsearch, hseen⟩ := exists_ok_of_map_toOption hrun
  obtain ⟨hparsed, hhits⟩ := Prod.mk.inj hseen
  obtain ⟨pandas, zoos, hpandas, hzoos, htaken⟩ :=
    search_bare_eq_typed hbuild hsearch hparsed
  exact ⟨engine, bare, env, pandas, zoos, hbuild, hsearch, hparsed, hpandas, hzoos, htaken, hhits⟩

end Engine

end LineageSearch
