import LineageSearch.Proofs.Lineage.RecordSource
import LineageSearch.Proofs.Query.Notes
import LineageSearch.Proofs.Query.ReadSubjects

/-!
# Searching in another language

The language says how names are cased, and nothing else.  A text is read in the same way in every
language, and where no name is looked up the same is found (`search_languages_agree`):

```text
                       result and notes     hits and type
lone keyword           equal                equal
id, behind anything    equal                equal
credit                 equal                equal
baby, dead, no type    cased subject        equal
any other name         cased subject        may differ
```

## Strategy

The language enters at two places: a name is cased when it is read, and once more when it is looked
up as a panda or a zoo.

* An id is not cased when it is read.  One that no entity has is looked up as a name, but digits are
  their own capitals (`nameOf_of_isDigits`), so that is the same name in every language.
* Behind a credit keyword a name keeps its case, and authors are looked up as they stand.
* Births and deaths depend on the year of the subject, and no casing makes a year of a name
  (`yearAtom?_text_subjectOf`).

None of this depends on what the records say, so it is true of every `RecordSource`.
-/

namespace LineageSearch

open Text

/-! ## Expressions by what they ask -/

/-- Whether a subject is an id, of an entity or not. -/
def Atom.IsId : Atom → Prop
  | .id _ => True
  | .name _ => False

namespace Expression

/-- Whether the subject of an expression is an id. -/
def HasId : Expression → Prop
  | .zeroary _ => False
  | .typed _ subject => subject.IsId
  | .tagged _ subject => subject.IsId
  | .bare subject => subject.IsId

/-- Whether an expression has no name looked up: a keyword alone, the subject of a keyword that
names no pandas and zoos, or an id. -/
def AsksNoName (registry : Registry) : Expression → Prop
  | .zeroary _ => True
  | .typed keyword subject =>
    registry.typeOperator? keyword ∈ [none, some .credit, some .baby, some .dead] ∨ subject.IsId
  | .tagged _ subject => subject.IsId
  | .bare subject => subject.IsId

/-- Whether an expression has no name cased: a keyword alone, the subject of a credit keyword, or an
id. -/
def CasesNoName (registry : Registry) : Expression → Prop
  | .zeroary _ => True
  | .typed keyword subject => registry.typeOperator? keyword = some .credit ∨ subject.IsId
  | .tagged _ subject => subject.IsId
  | .bare subject => subject.IsId

/-- Whether two outcomes of an expression agree as far as casing lets them. -/
structure AgreeBut (expression : Expression) (registry : Registry)
    (first second : SearchResult × Environment) : Prop where
  parsed : first.1.parsed = second.1.parsed
  keyword : first.1.keyword = second.1.keyword
  hits : expression.AsksNoName registry → first.1.hits = second.1.hits
  resolved : expression.AsksNoName registry → first.1.resolved = second.1.resolved
  whole : expression.CasesNoName registry → first = second

end Expression

/-! ## Subjects in two languages -/

namespace RecordSource

variable (source : RecordSource) (first second : Language) {atom : Atom}

/-- What digits denote does not depend on the language, whether or not an entity has that id. -/
theorem denoted_of_isDigits {subject : Subject} (h : isDigits subject.text = true)
    (kind : Option TypeOperator) :
    source.denoted first subject kind = source.denoted second subject kind := by
  have hname : first.nameOf subject.text = second.nameOf subject.text := by
    rw [first.nameOf_of_isDigits h, second.nameOf_of_isDigits h]
  cases kind with
  | none => rfl
  | some kind =>
    cases kind with
    | panda => simp only [denoted, hname]
    | zoo => simp only [denoted, hname]
    | baby => rfl
    | credit => rfl
    | dead => rfl

/-- An id is the same subject in every language, and denotes the same. -/
theorem denote_id (hatom : atom.IsRead) (hid : atom.IsId) (env : Environment) :
    (source.resolver first).denote atom env = (source.resolver second).denote atom env := by
  cases atom with
  | name words => exact absurd hid id
  | id digits =>
    have hdenoted : ∀ kind, (source.resolver first).denoted ⟨digits, source.knownId? digits⟩ kind =
        (source.resolver second).denoted ⟨digits, source.knownId? digits⟩ kind :=
      source.denoted_of_isDigits first second hatom.isDigits
    show DenotedSubject.mk _ ((source.resolver first).denoted ⟨digits, source.knownId? digits⟩ _)
      ((source.resolver first).denoted ⟨digits, source.knownId? digits⟩ _)
      ((source.resolver first).denoted ⟨digits, source.knownId? digits⟩ _) = _
    rw [hdenoted, hdenoted, hdenoted]
    rfl

/-- Where the case of names is kept, the subject is the same and so are the photos of the author. -/
theorem denote_kept (atom : Atom) {env : Environment} (hkeep : env.preserveCase = true) :
    ((source.resolver first).denote atom env).subject =
        ((source.resolver second).denote atom env).subject ∧
      ((source.resolver first).denote atom env).credit =
        ((source.resolver second).denote atom env).credit := by
  have hsubject : (source.resolver first).subjectOf true atom =
      (source.resolver second).subjectOf true atom := by
    cases atom <;> rfl
  constructor
  · show (source.resolver first).subjectOf env.preserveCase atom =
      (source.resolver second).subjectOf env.preserveCase atom
    rw [hkeep, hsubject]
  · show source.photosBy ((source.resolver first).subjectOf env.preserveCase atom).text =
      source.photosBy ((source.resolver second).subjectOf env.preserveCase atom).text
    rw [hkeep, hsubject]

/-- The year of a subject does not depend on the language. -/
theorem yearAtom?_denote (hatom : atom.IsRead) {env : Environment}
    (hkeep : env.preserveCase = false) :
    yearAtom? ((source.resolver first).denote atom env).subject.text =
      yearAtom? ((source.resolver second).denote atom env).subject.text := by
  show yearAtom? ((source.resolver first).subjectOf env.preserveCase atom).text =
    yearAtom? ((source.resolver second).subjectOf env.preserveCase atom).text
  rw [hkeep, (source.resolver first).yearAtom?_text_subjectOf rfl hatom,
    (source.resolver second).yearAtom?_text_subjectOf rfl hatom]

end RecordSource

/-! ## Outcomes in two languages -/

namespace Engine

variable (engine : Engine) (source : RecordSource) (first second : Language) {atom : Atom}

/-- A result asks for no name beyond those that its subject denotes. -/
theorem resultsBy_language :
    engine.typeResultBy (source.resolver first) = engine.typeResultBy (source.resolver second) ∧
      engine.tagResultBy (source.resolver first) = engine.tagResultBy (source.resolver second) ∧
      bareResultBy (source.resolver first) = bareResultBy (source.resolver second) :=
  ⟨rfl, rfl, rfl⟩

/-- Behind a credit keyword a subject has one outcome in all languages. -/
theorem reduceBy_credit {keyword : Text}
    (hkind : engine.registry.typeOperator? keyword = some .credit) (atom : Atom)
    (env : Environment) :
    engine.reduceBy (source.resolver first) (.typed keyword atom) env =
      engine.reduceBy (source.resolver second) (.typed keyword atom) env := by
  have hkeep : (env.noteType (engine.registry.typeOperator? keyword) keyword).preserveCase =
      true := by
    simp [Environment.preserveCase_noteType_eq_decide, hkind]
  obtain ⟨hsubject, hcredit⟩ := source.denote_kept first second atom hkeep
  have hresult : ∀ resolver reduced, engine.typeResultBy resolver keyword reduced =
      { query := unwords [keyword, reduced.subject.text], parsed := .typeExpression
        hits := reduced.credit, keyword := some keyword, resolved := some .credit } := by
    intro resolver reduced
    simp only [typeResultBy, hkind]
  simp only [reduceBy, hresult, hsubject, hcredit]

/-- The subject of a keyword that names no pandas and zoos has the same hits in all languages. -/
theorem hits_reduceBy_unnamed {keyword : Text} {kind : Option TypeOperator}
    (hkind : engine.registry.typeOperator? keyword = kind)
    (hunnamed : kind ∈ [none, some .credit, some .baby, some .dead]) (hatom : atom.IsRead)
    (env : Environment) :
    (engine.reduceBy (source.resolver first) (.typed keyword atom) env).1.hits =
      (engine.reduceBy (source.resolver second) (.typed keyword atom) env).1.hits := by
  have hyear : ∀ kind, kind ≠ some .credit →
      yearAtom? ((source.resolver first).denote atom (env.noteType kind keyword)).subject.text =
        yearAtom?
          ((source.resolver second).denote atom (env.noteType kind keyword)).subject.text := by
    intro kind hne
    have hkeep : (env.noteType kind keyword).preserveCase = false := by
      simp [Environment.preserveCase_noteType_eq_decide, hne]
    exact source.yearAtom?_denote first second hatom hkeep
  simp only [List.mem_cons, List.not_mem_nil, or_false] at hunnamed
  rcases hunnamed with rfl | rfl | rfl | rfl
  · simp only [reduceBy, typeResultBy, hkind]
  · rw [engine.reduceBy_credit source first second hkind]
  · simp only [reduceBy, typeResultBy, hkind]
    exact congrArg source.births (hyear _ (by decide))
  · simp only [reduceBy, typeResultBy, hkind]
    exact congrArg source.deaths (hyear _ (by decide))

/-- An expression over an id has one outcome in all languages. -/
theorem reduceBy_id {expression : Expression} (hread : expression.IsRead)
    (hid : expression.HasId) (env : Environment) :
    engine.reduceBy (source.resolver first) expression env =
      engine.reduceBy (source.resolver second) expression env := by
  obtain ⟨htyped, htagged, hbare⟩ := engine.resultsBy_language source first second
  cases expression with
  | zeroary keyword => exact absurd hid id
  | typed keyword atom =>
    simp only [reduceBy, htyped, source.denote_id first second hread.2 hid]
  | tagged tag atom =>
    simp only [reduceBy, htagged, source.denote_id first second hread.2 hid]
  | bare atom =>
    simp only [reduceBy, hbare, source.denote_id first second hread hid]

/-- **Two languages agree on an expression** as far as casing lets them. -/
theorem reduceBy_agreeBut {expression : Expression} (hread : expression.IsRead)
    (env : Environment) :
    expression.AgreeBut engine.registry (engine.reduceBy (source.resolver first) expression env)
      (engine.reduceBy (source.resolver second) expression env) := by
  have hequal : expression.HasId → engine.reduceBy (source.resolver first) expression env =
      engine.reduceBy (source.resolver second) expression env :=
    fun hid => engine.reduceBy_id source first second hread hid env
  cases expression with
  | zeroary keyword => exact ⟨rfl, rfl, fun _ => rfl, fun _ => rfl, fun _ => rfl⟩
  | typed keyword atom =>
    refine ⟨rfl, rfl, ?_, fun _ => rfl, ?_⟩
    · rintro (hunnamed | hid)
      · exact engine.hits_reduceBy_unnamed source first second rfl hunnamed hread.2 env
      · rw [hequal hid]
    · rintro (hcredit | hid)
      · exact engine.reduceBy_credit source first second hcredit atom env
      · exact hequal hid
  | tagged tag atom =>
    exact ⟨rfl, rfl, fun hid => by rw [hequal hid], fun hid => by rw [hequal hid], hequal⟩
  | bare atom =>
    exact ⟨rfl, rfl, fun hid => by rw [hequal hid], fun hid => by rw [hequal hid], hequal⟩

/-- Whether two outcomes for one text agree: both are refusals, or both come from one expression and
agree as far as casing lets them. -/
def OutcomesAgree (input : Text)
    (first second : Except QueryError (SearchResult × Environment)) : Prop :=
  match engine.grammar.expression? input with
  | none => first = .error .emptyQuery ∧ second = .error .emptyQuery
  | some expression => ∃ found other, first = .ok found ∧ second = .ok other ∧
      expression.AgreeBut engine.registry found other

/-- Engines with the same keywords, one in English and one in Japanese, agree over any records. -/
theorem searchBy_languages_agree {english japanese : Engine} {tags : Tags}
    (hregistry : japanese.registry = english.registry)
    (hgrammar : english.grammar = .ofVocabulary english.registry tags)
    (hsame : japanese.grammar = english.grammar) (input : Text) :
    english.OutcomesAgree input (english.searchBy (source.resolver .en) input)
      (japanese.searchBy (source.resolver .jp) input) := by
  have hreduce : ∀ expression env, japanese.reduceBy (source.resolver .jp) expression env =
      english.reduceBy (source.resolver .jp) expression env := by
    intro expression env
    cases expression with
    | zeroary keyword => simp only [reduceBy, zeroaryResultBy, hregistry]
    | typed keyword atom => simp only [reduceBy, typeResultBy, hregistry]
    | tagged tag atom => simp only [reduceBy, tagResultBy, hsame]
    | bare atom => rfl
  unfold OutcomesAgree
  rw [searchBy_eq, searchBy_eq, hsame]
  cases hread : english.grammar.expression? input with
  | none => exact ⟨rfl, rfl⟩
  | some expression =>
    rw [hgrammar] at hread
    refine ⟨_, _, rfl, rfl, ?_⟩
    rw [hreduce]
    exact english.reduceBy_agreeBut source .en .jp (Grammar.isRead_of_expression? hread) .fresh

/-- **The language affects lookups of names only.**  For all keywords, tags and records and every
text, the English and the Japanese engine refuse the text, or they read it as one expression and
have outcomes that agree.  The second part says so of every source of records. -/
theorem search_languages_agree {graph : Graph} {dictionary : Dictionary} {tags : Tags}
    {strict : Bool} {english japanese : Engine}
    (henglish : build graph dictionary tags strict .en = .ok english)
    (hjapanese : build graph dictionary tags strict .jp = .ok japanese) (input : Text) :
    english.OutcomesAgree input (english.search input) (japanese.search input) ∧
      ∀ source : RecordSource, english.OutcomesAgree input
        (english.searchBy (source.resolver .en) input)
        (japanese.searchBy (source.resolver .jp) input) := by
  obtain ⟨hdrawn, hgraph, hgrammar, hen⟩ := of_build henglish
  obtain ⟨hdrawn', hgraph', hgrammar', hjp⟩ := of_build hjapanese
  have hregistry : japanese.registry = english.registry :=
    Except.ok.inj (hdrawn'.symm.trans hdrawn)
  have hsame : japanese.grammar = english.grammar := by
    rw [hgrammar, hgrammar', hregistry]
  have hall : ∀ source : RecordSource, english.OutcomesAgree input
      (english.searchBy (source.resolver .en) input)
      (japanese.searchBy (source.resolver .jp) input) :=
    fun source => searchBy_languages_agree source hregistry hgrammar hsame input
  have hresolver : english.resolver = graph.source.resolver .en := by
    rw [graph.resolver_source, resolver, hgraph, hen]
  have hresolver' : japanese.resolver = graph.source.resolver .jp := by
    rw [graph.resolver_source, resolver, hgraph', hjp]
  refine ⟨?_, hall⟩
  rw [← searchBy_resolver, ← searchBy_resolver, hresolver, hresolver']
  exact hall graph.source

/-- No entity has the id, which is taken for a name then: one that a panda has. -/
theorem search_languages_agree_unknown_id :
    let records : Export := { pandas := [{ id := 3, names := { jp := some "77".toList } }] }
    let input := "panda 77".toList
    ∃ english japanese found,
      build (.ofExport records) .builtin Tags.builtin false .en = .ok english ∧
        build (.ofExport records) .builtin Tags.builtin false .jp = .ok japanese ∧
        english.search input = .ok found ∧ found.1.hits = [.panda 3] ∧
        english.OutcomesAgree input (english.search input) (japanese.search input) ∧
        japanese.search input = .ok found := by
  intro records input
  have hrun : (build (.ofExport records) .builtin Tags.builtin false .en).toOption.map
      (fun engine => (engine.grammar.expression? input,
        (engine.search input).toOption.map (·.1.hits))) =
      some (some (.typed "panda".toList (.id "77".toList)), some [.panda 3]) := by
    decide +kernel
  obtain ⟨english, henglish, hseen⟩ := exists_ok_of_map_toOption hrun
  obtain ⟨hread, hsearch⟩ := Prod.mk.inj hseen
  obtain ⟨found, hfound, hhits⟩ := exists_ok_of_map_toOption hsearch
  have hother : (build (.ofExport records) .builtin Tags.builtin false .jp).toOption.map
      Engine.language = some .jp := by
    decide +kernel
  obtain ⟨japanese, hjapanese, -⟩ := exists_ok_of_map_toOption hother
  have hagree := (search_languages_agree henglish hjapanese input).1
  refine ⟨english, japanese, found, henglish, hjapanese, hfound, hhits, hagree, ?_⟩
  unfold OutcomesAgree at hagree
  simp only [hread] at hagree
  obtain ⟨first, second, hfirst, hsecond, hbut⟩ := hagree
  have hequal : first = second := hbut.whole (Or.inr trivial)
  rw [hsecond, ← hequal, ← hfirst, hfound]

end Engine

end LineageSearch
