import LineageSearch.Proofs.Query.LeadingKeywords
import LineageSearch.Proofs.Query.Resolvers
import LineageSearch.Proofs.Query.ReadSubjects

/-!
# Normal queries are searched as they are

The result of a search carries its query in a normal form: the keyword as typed, one blank, and the
subject in the casing under which it was looked up.  With the built-in keywords, searching for the
normal form of an operator search gives the same result and the same notes again
(`search_query_eq`).

## Strategy

Three things might go wrong when the normal form is read.

* The blank behind the keyword may be one that was not typed, and another keyword could go on
  behind it.  In a vocabulary where no keyword does (`ClearCut`), the same keyword is found again.
* A tag must not give way to a type keyword.  One that leads the normal form is not longer than the
  tag, so it led the typed text already (`tagStandsFirst_of_found`).
* The subject has other letters now.  It denotes the same (`subjectOf_ofText_subjectOf`).
-/

namespace LineageSearch

open Text

/-! ## Where keywords end -/

/-- Whether it is clear where each keyword ends: it has no blanks at its ends, and no keyword begins
with another one and a blank. -/
structure ClearCut (words : List Text) : Prop where
  tight : ∀ w ∈ words, IsTight w
  unextended : ∀ w ∈ words, ∀ longer ∈ words, ¬ (w ++ [' ']).map fold <+: longer.map fold

/-- The only built-in keyword with a blank is `red panda`, and `red` is none. -/
theorem clearCut_builtin : ClearCut (Dictionary.builtin.types.words ++ Tags.builtin.words) := by
  have htight : ((Dictionary.builtin.types.words ++ Tags.builtin.words).all isNameAtom) = true := by
    decide +kernel
  have hunextended : ((Dictionary.builtin.types.words ++ Tags.builtin.words).all fun w =>
      (Dictionary.builtin.types.words ++ Tags.builtin.words).all fun longer =>
        !((w ++ [' ']).map fold).isPrefixOf (longer.map fold)) = true := by
    decide +kernel
  constructor
  · intro w hw
    exact isNameAtom_iff.mp (List.all_eq_true.mp htight w hw)
  · intro w hw longer hlonger
    have hpair := List.all_eq_true.mp (List.all_eq_true.mp hunextended w hw) longer hlonger
    rw [Bool.not_eq_true'] at hpair
    rw [← List.isPrefixOf_iff_prefix, hpair]
    simp

/-- A keyword as it is typed ends where the declared one does. -/
theorem ClearCut.of_find? {words chosen : List Text} {text : Text} {found : Found}
    (hcut : ClearCut words) (hchosen : ∀ w ∈ chosen, w ∈ words)
    (hfound : (Pattern.ofKeywords .portion chosen).find? text = some found) :
    IsTight found.keyword ∧ (∃ w ∈ chosen, sameFolded w found.keyword = true) ∧
      ∀ longer ∈ words, ¬ (found.keyword ++ [' ']).map fold <+: longer.map fold := by
  obtain ⟨w, hw, -, hlead⟩ := Pattern.exists_of_find?_portion hfound
  obtain ⟨-, hfolded, -⟩ := leadingKeyword?_eq_some_iff.mp hlead
  refine ⟨isTight_of_sameFolded hfolded (hcut.tight w (hchosen w hw)), ⟨w, hw, hfolded⟩, ?_⟩
  intro longer hlonger
  rw [List.map_append, ← sameFolded_iff.mp hfolded, ← List.map_append]
  exact hcut.unextended w (hchosen w hw) longer hlonger

/-! ## What the readings found -/

namespace Grammar

variable {registry : Registry} {tags : Tags} {dictionary : Dictionary}
  {input keyword subject : Text} {atom : Atom}

/-- Blanks at its ends are no part of a search text. -/
theorem expression?_trim (grammar : Grammar) (input : Text) :
    grammar.expression? (trim input) = grammar.expression? input := by
  have htrim : trim (trim input) = trim input := by
    by_cases hblank : isBlankText input = true
    · rw [trim_eq_nil_iff.mpr hblank]
      rfl
    · exact (isTight_trim (by simpa using hblank)).trim_eq
  dsimp only [expression?]
  rw [htrim]

theorem exists_found_of_typed
    (hread : (ofVocabulary registry tags).expression? input = some (.typed keyword atom)) :
    ∃ found, (Pattern.ofKeywords .portion registry.types).find? (trim input) = some found ∧
      keyword = trim found.keyword := by
  rw [expression?_eq_ofFound registry tags (exists_readAs?_of_expression? hread).1,
    Option.some_inj, Expression.ofFound_eq_typed_iff] at hread
  obtain ⟨-, found, hfound, hkeyword, -⟩ := hread
  exact ⟨found, hfound, hkeyword.symm⟩

theorem exists_found_of_tagged
    (hread : (ofVocabulary registry tags).expression? input = some (.tagged keyword atom)) :
    (Pattern.ofKeywords .portion registry.types).find? (trim input) = none ∧
      ∃ found, (Pattern.ofKeywords .portion tags.words).find? (trim input) = some found ∧
        keyword = trim found.keyword := by
  rw [expression?_eq_ofFound registry tags (exists_readAs?_of_expression? hread).1,
    Option.some_inj, Expression.ofFound_eq_tagged_iff] at hread
  obtain ⟨-, htypes, found, hfound, htag, -⟩ := hread
  exact ⟨htypes, found, hfound, htag.symm⟩

/-! ## The normal form is read in the same way -/

variable (hcut : ClearCut (registry.types ++ tags.words))

include hcut

/-- A type keyword takes what stands behind it and one blank. -/
theorem expression?_typed_again (hdrawn : registry.DrawnFrom dictionary)
    (hread : (ofVocabulary registry tags).expression? input = some (.typed keyword atom))
    (hsubject : IsTight subject) :
    (ofVocabulary registry tags).expression? (keyword ++ ' ' :: subject) =
      some (.typed keyword (.ofText subject)) := by
  obtain ⟨found, hfound, rfl⟩ := exists_found_of_typed hread
  obtain ⟨htight, hknown, hunextended⟩ :=
    hcut.of_find? (fun w hw => List.mem_append_left _ hw) hfound
  have hfirst : registry.StandsFirst found.keyword :=
    ⟨htight, hknown, fun w hw => hunextended w (List.mem_append_left _ hw)⟩
  obtain ⟨c, hhead, hc⟩ := hsubject.1
  rw [htight.trim_eq,
    hfirst.expression?_keyword hdrawn (isBlankText_eq_false_of_head hhead hc) tags,
    subjectAtom?_eq_ofText hsubject, Option.map_some]

/-- A tag that is found where no type keyword is stands first: a type keyword that leads the tag
would lead what stands behind it too. -/
theorem tagStandsFirst_of_found {text : Text} {found : Found}
    (hnone : (Pattern.ofKeywords .portion registry.types).find? text = none)
    (hfound : (Pattern.ofKeywords .portion tags.words).find? text = some found) :
    registry.TagStandsFirst tags found.keyword := by
  obtain ⟨htight, hknown, hunextended⟩ :=
    hcut.of_find? (fun w hw => List.mem_append_right _ hw) hfound
  obtain ⟨tag, -, -, htag⟩ := Pattern.exists_of_find?_portion hfound
  obtain ⟨behind, htext, -, hbehind⟩ := exists_append_of_leadingKeyword? htag
  refine ⟨htight, hknown, hunextended, ?_⟩
  intro w hw hne hleads
  obtain ⟨rest, hrest⟩ := hleads
  obtain ⟨piece, inner, hkeyword, hfolded, -⟩ := List.append_eq_map_iff.mp hrest
  rw [Pattern.find?_portion_eq_none_iff] at hnone
  have hled : leadingKeyword? (piece ++ (inner ++ behind)) w ≠ none := by
    rw [leadingKeyword?_append _ (sameFolded_iff.mpr hfolded.symm)]
    simp [hbehind]
  rw [← List.append_assoc, ← hkeyword, ← htext] at hled
  exact hled (hnone w hw hne)

/-- A tag takes what stands behind it and one blank, if no type keyword led it before. -/
theorem expression?_tagged_again (hdrawn : registry.DrawnFrom dictionary)
    (hread : (ofVocabulary registry tags).expression? input = some (.tagged keyword atom))
    (hsubject : IsTight subject) :
    (ofVocabulary registry tags).expression? (keyword ++ ' ' :: subject) =
      some (.tagged keyword (.ofText subject)) := by
  obtain ⟨htypes, found, hfound, rfl⟩ := exists_found_of_tagged hread
  have hfirst := tagStandsFirst_of_found hcut htypes hfound
  obtain ⟨c, hhead, hc⟩ := hsubject.1
  rw [hfirst.tight.trim_eq,
    hfirst.expression?_tag hdrawn (isBlankText_eq_false_of_head hhead hc),
    subjectAtom?_eq_ofText hsubject, Option.map_some]

end Grammar

/-! ## The normal form has the same result -/

namespace Engine

variable {engine : Engine}

/-- An expression whose subject is in its normal form. -/
def normalIn (engine : Engine) (env : Environment) : Expression → Expression
  | .zeroary keyword => .zeroary keyword
  | .typed keyword atom =>
    let typed := env.noteType (engine.registry.typeOperator? keyword) keyword
    .typed keyword (.ofText (engine.denote atom typed).subject.text)
  | .tagged tag atom => .tagged tag (.ofText (engine.denote atom (env.noteTag tag)).subject.text)
  | .bare atom => .bare (.ofText (engine.denote atom env).subject.text)

theorem denote_ofText (engine : Engine) {atom : Atom} (hatom : atom.IsRead) (env : Environment) :
    engine.denote (.ofText (engine.denote atom env).subject.text) env = engine.denote atom env := by
  have hsubject : engine.graph.subjectOf engine.language env.preserveCase
      (.ofText (engine.denote atom env).subject.text) =
        engine.graph.subjectOf engine.language env.preserveCase atom :=
    engine.graph.subjectOf_ofText_subjectOf engine.language env.preserveCase hatom
  rw [denote_eq, hsubject, ← denote_eq]

/-- Reducing the normal form finds and notes the same. -/
theorem reduce_normalIn {expression : Expression} (hread : expression.IsRead) (env : Environment) :
    engine.reduce (engine.normalIn env expression) env = engine.reduce expression env := by
  cases expression with
  | zeroary keyword => rfl
  | typed keyword atom =>
    unfold reduce normalIn reduceBy
    simp only [resolver_denote, engine.denote_ofText hread.2]
  | tagged tag atom =>
    unfold reduce normalIn reduceBy
    simp only [resolver_denote, engine.denote_ofText hread.2]
  | bare atom =>
    unfold reduce normalIn reduceBy
    simp only [resolver_denote, engine.denote_ofText hread]

/-- The query of an expression with a keyword is read as the normal form of the expression. -/
theorem expression?_query {dictionary : Dictionary} {tags : Tags} {input : Text}
    {expression : Expression} (hgrammar : engine.grammar = .ofVocabulary engine.registry tags)
    (hdrawn : engine.registry.DrawnFrom dictionary)
    (hcut : ClearCut (engine.registry.types ++ tags.words))
    (hread : engine.grammar.expression? input = some expression)
    (hkeyword : expression.kind ≠ .subjectTerm) (env : Environment) :
    engine.grammar.expression? (engine.reduce expression env).1.query =
      some (engine.normalIn env expression) := by
  rw [hgrammar] at hread ⊢
  have hall := Grammar.isRead_of_expression? hread
  cases expression with
  | zeroary keyword =>
    obtain rfl : keyword = trim input := Grammar.spells_of_expression? hread
    exact (Grammar.expression?_trim _ input).trans hread
  | typed keyword atom =>
    show (Grammar.ofVocabulary engine.registry tags).expression? (unwords [keyword, _]) = _
    rw [unwords_pair]
    exact Grammar.expression?_typed_again hcut hdrawn hread
      (engine.resolver.isTight_text_denote rfl hall.2 _)
  | tagged tag atom =>
    show (Grammar.ofVocabulary engine.registry tags).expression? (unwords [tag, _]) = _
    rw [unwords_pair]
    exact Grammar.expression?_tagged_again hcut hdrawn hread
      (engine.resolver.isTight_text_denote rfl hall.2 _)
  | bare atom => exact absurd rfl hkeyword

/-- The result of an expression says how the text was read. -/
theorem parsed_reduce (expression : Expression) (env : Environment) :
    (engine.reduce expression env).1.parsed = expression.kind := by
  cases expression <;> rfl

/-- **The normal query of an operator search is searched as it is.**  For every graph and both
languages, a search that is read as a lone keyword, a type expression or a tag expression and the
search for its query have one result and leave one environment. -/
theorem search_query_eq {graph : Graph} {strict : Bool} {language : Language} {input : Text}
    {result : SearchResult} {env : Environment}
    (hbuild : build graph .builtin Tags.builtin strict language = .ok engine)
    (hsearch : engine.search input = .ok (result, env)) (hparsed : result.parsed ≠ .subjectTerm) :
    engine.search result.query = .ok (result, env) := by
  obtain ⟨hregistry, -, hgrammar, -⟩ := of_build hbuild
  have hdrawn := Registry.drawnFrom_of_ofDictionary hregistry
  have hcut : ClearCut (engine.registry.types ++ Tags.builtin.words) := by
    rw [hdrawn.types]
    exact clearCut_builtin
  rw [search_eq] at hsearch
  cases hread : engine.grammar.expression? input with
  | none => simp [hread] at hsearch
  | some expression =>
    simp only [hread, Except.ok.injEq] at hsearch
    have hkeyword : expression.kind ≠ .subjectTerm := by
      rw [← parsed_reduce, hsearch]
      exact hparsed
    have hquery := expression?_query hgrammar hdrawn hcut hread hkeyword .fresh
    have hall : expression.IsRead := by
      rw [hgrammar] at hread
      exact Grammar.isRead_of_expression? hread
    rw [hsearch] at hquery
    rw [search_eq, hquery]
    exact congrArg Except.ok ((reduce_normalIn hall .fresh).trans hsearch)

/-- A tag that gives way to a shorter one cuts a word in two.  The query has a blank there, and is
read as it was. -/
theorem search_query_eq_yawning :
    let records : Export := { pandas :=
      [{ id := 3, names := { en := some "Ing".toList },
         photos := [{ url := "i".toList, tags := ["yawn".toList] }] }] }
    ∃ engine result env,
      build (.ofExport records) .builtin Tags.builtin false .en = .ok engine ∧
        engine.search "yawning".toList = .ok (result, env) ∧ result.parsed = .tagExpression ∧
        result.query = "yawn Ing".toList ∧ result.hits = [.photo (.panda 3) 0] ∧
        engine.search result.query = .ok (result, env) := by
  intro records
  have hrun : (build (.ofExport records) .builtin Tags.builtin false .en).toOption.map
      (fun engine => (engine.search "yawning".toList).toOption.map
        fun found => (found.1.parsed, found.1.query, found.1.hits)) =
      some (some (.tagExpression, "yawn Ing".toList, [.photo (.panda 3) 0])) := by
    decide +kernel
  obtain ⟨engine, hbuild, hrun⟩ := exists_ok_of_map_toOption hrun
  obtain ⟨⟨result, env⟩, hsearch, hseen⟩ := exists_ok_of_map_toOption hrun
  simp only [Prod.mk.injEq] at hseen
  obtain ⟨hparsed, hquery, hhits⟩ := hseen
  exact ⟨engine, result, env, hbuild, hsearch, hparsed, hquery, hhits,
    search_query_eq hbuild hsearch (by rw [hparsed]; decide)⟩

end Engine

end LineageSearch
