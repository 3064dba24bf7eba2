import LineageSearch.Proofs.Query.NormalQueries
import LineageSearch.Proofs.Query.Notes

/-!
# Surface forms of one keyword

An operator or a tag is declared with several surface forms, in two languages and in several cases.
Behind each of them a text is searched with the same outcome.  Only the name of the form itself
differs, in the keyword and the query of the result and as the first term of the environment
(`search_surface_forms`).

## Strategy

The text may say anything, so a form has to take whatever stands behind it.  Then the two searches
are read as one expression but for the form, which is asked for two things: which keyword it is, and
which operator or tag it names.  Two forms of one group name the same where no other group has a
word that is looked up alike (`Entries.KeysApart`).

A vocabulary in which all this is so has clear forms (`ClearForms`), and the built-in one has.
-/

namespace LineageSearch

open Text

/-! ## Groups whose words are looked up apart -/

namespace Entries

variable {α : Type}

/-- Whether no word of a group is looked up as a word of an earlier group. -/
def KeysApart (groups : List (α × List Text)) : Prop :=
  groups.Pairwise fun earlier later => ∀ w ∈ later.2, ¬ HasKey (indexKey w) earlier.2

instance (groups : List (α × List Text)) : Decidable (KeysApart groups) :=
  inferInstanceAs (Decidable (groups.Pairwise _))

/-- Where groups are looked up apart, a word leads to its own group. -/
theorem get?_indexOf_of_keysApart {groups : List (α × List Text)} {group : α × List Text}
    {w : Text} (hapart : KeysApart groups) (hgroup : group ∈ groups) (hw : w ∈ group.2) :
    get? (indexKey w) (indexOf groups) = some group.1 := by
  obtain ⟨before, after, rfl⟩ := List.append_of_mem hgroup
  refine get?_indexOf_eq_some_iff.mpr ⟨before, group.2, after, rfl, ?_, ⟨w, hw, rfl⟩⟩
  intro earlier hearlier
  obtain ⟨-, -, hacross⟩ := List.pairwise_append.mp hapart
  exact hacross earlier hearlier group List.mem_cons_self w hw

end Entries

/-- Whether two words are surface forms of one and the same group. -/
def Vocabulary.AreForms (vocabulary : Vocabulary) (a b : Text) : Prop :=
  ∃ group ∈ vocabulary.groups, a ∈ group.2 ∧ b ∈ group.2

instance (vocabulary : Vocabulary) (a b : Text) : Decidable (vocabulary.AreForms a b) :=
  inferInstanceAs (Decidable (∃ group ∈ vocabulary.groups, a ∈ group.2 ∧ b ∈ group.2))

theorem Vocabulary.AreForms.mem_words {vocabulary : Vocabulary} {a b : Text}
    (h : vocabulary.AreForms a b) : a ∈ vocabulary.words ∧ b ∈ vocabulary.words := by
  obtain ⟨group, hgroup, ha, hb⟩ := h
  exact ⟨Vocabulary.mem_words_iff.mpr ⟨group, hgroup, ha⟩,
    Vocabulary.mem_words_iff.mpr ⟨group, hgroup, hb⟩⟩

/-- Whether the forms of a vocabulary are clear: where each of them ends, that the tags are no type
keywords with more behind them, and which group each form belongs to. -/
structure ClearForms (dictionary : Dictionary) (tags : Tags) : Prop where
  clearCut : ClearCut (dictionary.types.words ++ tags.words)
  unled : ∀ tag ∈ tags.words, ∀ w ∈ dictionary.types.words, ¬ w.map fold <+: tag.map fold
  typesApart : Entries.KeysApart dictionary.types.groups
  tagsApart : Entries.KeysApart tags.groups

theorem clearForms_builtin : ClearForms .builtin Tags.builtin where
  clearCut := clearCut_builtin
  unled := by
    have hunled : (Tags.builtin.words.all fun tag => Dictionary.builtin.types.words.all fun w =>
        !(w.map fold).isPrefixOf (tag.map fold)) = true := by
      decide +kernel
    intro tag htag w hw hprefix
    have hpair := List.all_eq_true.mp (List.all_eq_true.mp hunled tag htag) w hw
    rw [List.isPrefixOf_iff_prefix.mpr hprefix] at hpair
    cases hpair
  typesApart := by decide +kernel
  tagsApart := by decide +kernel

/-! ## What clear forms name, and what they take -/

namespace ClearForms

variable {dictionary : Dictionary} {tags : Tags} {registry : Registry} {a b w input : Text}
  (hclear : ClearForms dictionary tags)

include hclear

theorem tagOf_eq (hforms : tags.AreForms a b) :
    (Grammar.ofVocabulary registry tags).tagOf a =
      (Grammar.ofVocabulary registry tags).tagOf b := by
  obtain ⟨group, hgroup, ha, hb⟩ := hforms
  have hnamed : ∀ form ∈ group.2,
      (Grammar.ofVocabulary registry tags).tagOf form = group.1 := by
    intro form hform
    have hget := Entries.get?_indexOf_of_keysApart hclear.tagsApart hgroup hform
    exact (congrArg (Option.getD · (indexKey form)) hget).trans (Option.getD_some ..)
  rw [hnamed a ha, hnamed b hb]

variable (hdrawn : registry.DrawnFrom dictionary)

include hdrawn

theorem typeOperator?_eq (hforms : dictionary.types.AreForms a b) :
    registry.typeOperator? a = registry.typeOperator? b := by
  obtain ⟨declared, hdeclared, ha, hb⟩ := hforms
  have hapart := hclear.typesApart
  rw [hdrawn.groups] at hdeclared hapart
  obtain ⟨group, hgroup, rfl⟩ := List.mem_map.mp hdeclared
  have hsynonyms : Entries.KeysApart registry.typeSynonyms := List.pairwise_map.mp hapart
  have hnamed : ∀ form ∈ group.2, registry.typeOperator? form = some group.1 := by
    intro form hform
    rw [Registry.typeOperator?, hdrawn.typeIndex]
    exact Entries.get?_indexOf_of_keysApart hsynonyms hgroup hform
  rw [hnamed a ha, hnamed b hb]

theorem standsFirst (hw : w ∈ dictionary.types.words) : registry.StandsFirst w where
  tight := hclear.clearCut.tight w (List.mem_append_left _ hw)
  known := ⟨w, by rwa [hdrawn.types], sameFolded_iff.mpr rfl⟩
  unextended := by
    intro longer hlonger
    rw [hdrawn.types] at hlonger
    exact hclear.clearCut.unextended w (List.mem_append_left _ hw) longer
      (List.mem_append_left _ hlonger)

theorem tagStandsFirst (hw : w ∈ tags.words) : registry.TagStandsFirst tags w where
  tight := hclear.clearCut.tight w (List.mem_append_right _ hw)
  known := ⟨w, hw, sameFolded_iff.mpr rfl⟩
  unextended := by
    rw [hdrawn.types]
    exact hclear.clearCut.unextended w (List.mem_append_right _ hw)
  unled := by
    intro keyword hkeyword _
    rw [hdrawn.types] at hkeyword
    exact hclear.unled w hw keyword hkeyword

/-- Every type keyword takes what stands behind it. -/
theorem expression?_typed (hw : w ∈ dictionary.types.words) (hblank : isBlankText input = false) :
    (Grammar.ofVocabulary registry tags).expression? (w ++ ' ' :: input) =
      some (.typed w (.ofText (trim input))) := by
  rw [(hclear.standsFirst hdrawn hw).expression?_keyword hdrawn hblank tags,
    subjectAtom?_of_not_blank hblank, Option.map_some]

/-- Every tag takes what stands behind it. -/
theorem expression?_tagged (hw : w ∈ tags.words) (hblank : isBlankText input = false) :
    (Grammar.ofVocabulary registry tags).expression? (w ++ ' ' :: input) =
      some (.tagged w (.ofText (trim input))) := by
  rw [(hclear.tagStandsFirst hdrawn hw).expression?_tag hdrawn hblank,
    subjectAtom?_of_not_blank hblank, Option.map_some]

end ClearForms

/-! ## Outcomes but for the form -/

/-- Whether two results are the same but for their keyword, with which their queries begin. -/
structure SearchResult.DifferByKeyword (a b : Text) (first second : SearchResult) : Prop where
  parsed : first.parsed = second.parsed
  hits : first.hits = second.hits
  resolved : first.resolved = second.resolved
  candidates : first.candidates = second.candidates
  keywords : first.keyword = some a ∧ second.keyword = some b
  queries : ∃ subject, first.query = unwords [a, subject] ∧ second.query = unwords [b, subject]

/-- Whether two environments are the same but for their first terms. -/
structure Environment.DifferByTerm (a b : Text) (first second : Environment) : Prop where
  output : first.output = second.output
  credit : first.credit = second.credit
  preserveCase : first.preserveCase = second.preserveCase
  specific : first.specific = second.specific
  terms : ∃ rest, first.terms = a :: rest ∧ second.terms = b :: rest

/-- Whether two outcomes, each a result with the environment it leaves, are the same but for the
keywords that were typed. -/
def DifferByForm (a b : Text) (first second : SearchResult × Environment) : Prop :=
  first.1.DifferByKeyword a b second.1 ∧ first.2.DifferByTerm a b second.2

/-- The first of two notes tells the keyword, and the second one does not depend on it. -/
theorem Environment.differByTerm_noteType (kind : Option TypeOperator) (a b subject : Text) :
    ((fresh.noteType kind a).noteSubject subject).DifferByTerm a b
      ((fresh.noteType kind b).noteSubject subject) where
  output := by simp [output_noteType]
  credit := by simp [credit_noteSubject, output_noteType]
  preserveCase := by simp [preserveCase_noteType_eq_decide]
  specific := by simp
  terms := ⟨[subject], by simp [fresh], by simp [fresh]⟩

theorem Environment.differByTerm_noteTag (a b subject : Text) :
    ((fresh.noteTag a).noteSubject subject).DifferByTerm a b
      ((fresh.noteTag b).noteSubject subject) where
  output := by simp
  credit := by simp [credit_noteSubject]
  preserveCase := by simp
  specific := by simp
  terms := ⟨[subject], by simp [fresh], by simp [fresh]⟩

namespace Engine

variable {engine : Engine} {a b input : Text}

/-- Type keywords of one operator have the same outcome, whatever a resolver answers. -/
theorem differByForm_typed
    (hkind : engine.registry.typeOperator? a = engine.registry.typeOperator? b)
    (resolver : Resolver) (atom : Atom) :
    DifferByForm a b (engine.reduceBy resolver (.typed a atom) .fresh)
      (engine.reduceBy resolver (.typed b atom) .fresh) := by
  -- of the notes only the flag for the case of names is read, and the operator sets it
  have hdenote : ∀ kind, resolver.denote atom (Environment.fresh.noteType kind a) =
      resolver.denote atom (Environment.fresh.noteType kind b) := by
    intro kind
    unfold Resolver.denote
    rw [Environment.preserveCase_noteType_eq_decide, Environment.preserveCase_noteType_eq_decide]
  have hresult : ∀ reduced, (engine.typeResultBy resolver a reduced).DifferByKeyword a b
      (engine.typeResultBy resolver b reduced) := by
    intro reduced
    unfold typeResultBy
    rw [hkind]
    exact ⟨rfl, rfl, rfl, rfl, ⟨rfl, rfl⟩, reduced.subject.text, rfl, rfl⟩
  simp only [reduceBy, hkind, hdenote]
  exact ⟨hresult _, Environment.differByTerm_noteType _ a b _⟩

/-- Surface forms of one tag have the same outcome, whatever a resolver answers. -/
theorem differByForm_tagged (htag : engine.grammar.tagOf a = engine.grammar.tagOf b)
    (resolver : Resolver) (atom : Atom) :
    DifferByForm a b (engine.reduceBy resolver (.tagged a atom) .fresh)
      (engine.reduceBy resolver (.tagged b atom) .fresh) := by
  have hdenote : resolver.denote atom (Environment.fresh.noteTag a) =
      resolver.denote atom (Environment.fresh.noteTag b) := rfl
  have hresult : ∀ reduced, (engine.tagResultBy resolver a reduced).DifferByKeyword a b
      (engine.tagResultBy resolver b reduced) := by
    intro reduced
    unfold tagResultBy
    rw [htag]
    exact ⟨rfl, rfl, rfl, rfl, ⟨rfl, rfl⟩, reduced.subject.text, rfl, rfl⟩
  simp only [reduceBy, hdenote]
  exact ⟨hresult _, Environment.differByTerm_noteTag a b _⟩

/-- Where forms are clear, those of one group are searched alike. -/
theorem searchBy_differByForm {graph : Graph} {dictionary : Dictionary} {tags : Tags}
    {strict : Bool} {language : Language} (hclear : ClearForms dictionary tags)
    (hbuild : build graph dictionary tags strict language = .ok engine)
    (hforms : dictionary.types.AreForms a b ∨ tags.AreForms a b)
    (hblank : isBlankText input = false) (resolver : Resolver) :
    ∃ first second, engine.searchBy resolver (a ++ ' ' :: input) = .ok first ∧
      engine.searchBy resolver (b ++ ' ' :: input) = .ok second ∧
      DifferByForm a b first second := by
  obtain ⟨hregistry, -, hgrammar, -⟩ := of_build hbuild
  have hdrawn := Registry.drawnFrom_of_ofDictionary hregistry
  rw [searchBy_eq, searchBy_eq]
  rcases hforms with htypes | htags
  · obtain ⟨ha, hb⟩ := htypes.mem_words
    have hkind := hclear.typeOperator?_eq hdrawn htypes
    rw [hgrammar, hclear.expression?_typed hdrawn ha hblank,
      hclear.expression?_typed hdrawn hb hblank]
    exact ⟨_, _, rfl, rfl, differByForm_typed hkind resolver _⟩
  · obtain ⟨ha, hb⟩ := htags.mem_words
    have htag : engine.grammar.tagOf a = engine.grammar.tagOf b := by
      rw [hgrammar]
      exact hclear.tagOf_eq htags
    rw [hgrammar, hclear.expression?_tagged hdrawn ha hblank,
      hclear.expression?_tagged hdrawn hb hblank]
    exact ⟨_, _, rfl, rfl, differByForm_tagged htag resolver _⟩

/-- **All surface forms of an operator or a tag are interchangeable.**  With the built-in keywords,
for every graph, both languages and every text that is not blank, the searches of the text behind
two forms of one type operator, or of one tag, have the same outcome but for the form. -/
theorem search_surface_forms {graph : Graph} {strict : Bool} {language : Language}
    (hbuild : build graph .builtin Tags.builtin strict language = .ok engine)
    (hforms : Dictionary.builtin.types.AreForms a b ∨ Tags.builtin.AreForms a b)
    (hblank : isBlankText input = false) :
    ∃ first second, engine.search (a ++ ' ' :: input) = .ok first ∧
      engine.search (b ++ ' ' :: input) = .ok second ∧ DifferByForm a b first second :=
  searchBy_differByForm clearForms_builtin hbuild hforms hblank engine.resolver

/-- One form has a blank in it, and the other is in another script. -/
theorem search_surface_forms_red_panda :
    let records : Export := { pandas := [{ id := 3, names := { en := some "Gin".toList } }] }
    ∃ engine first second,
      build (.ofExport records) .builtin Tags.builtin false .en = .ok engine ∧
        engine.search "red panda gin".toList = .ok first ∧
        engine.search "パンダ gin".toList = .ok second ∧
        DifferByForm "red panda".toList "パンダ".toList first second ∧
        first.1.hits = [.panda 3] := by
  intro records
  have hrun : (build (.ofExport records) .builtin Tags.builtin false .en).toOption.map
      (fun engine => (engine.search "red panda gin".toList).toOption.map (·.1.hits)) =
      some (some [.panda 3]) := by
    decide +kernel
  obtain ⟨engine, hbuild, hrun⟩ := exists_ok_of_map_toOption hrun
  obtain ⟨found, hsearch, hhits⟩ := exists_ok_of_map_toOption hrun
  have hforms : Dictionary.builtin.types.AreForms "red panda".toList "パンダ".toList := by
    decide +kernel
  have hblank : isBlankText "gin".toList = false := by decide
  obtain ⟨first, second, hfirst, hsecond, hdiffer⟩ :=
    search_surface_forms hbuild (.inl hforms) hblank
  obtain rfl : found = first := Except.ok.inj (hsearch.symm.trans hfirst)
  exact ⟨engine, found, second, hbuild, hsearch, hsecond, hdiffer, hhits⟩

end Engine

end LineageSearch
