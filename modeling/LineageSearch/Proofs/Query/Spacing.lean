import LineageSearch.Proofs.Query.KnownKeywords
import LineageSearch.Proofs.Query.Resolvers
import LineageSearch.Proofs.Query.ReadSubjects

/-!
# Spacing between words

Two texts of the same words are searched alike as far as they are read alike: their searches come
out the same exactly if the same rule reads them, with the same keyword (`search_respaced_iff`).  In
subjects only the words count, and so do they in front of, behind and between keyword and subject.

Keywords however are looked for as they are declared, blanks included.  Of the built-in ones it
is `red panda` that has a blank, and a second blank in it makes a name of it
(`search_red_panda_ne`).  Texts that begin with the same of the keywords with blanks are read alike.

## Strategy

* A keyword without blanks is part of the first word, so it begins both texts or neither
  (`beginsWith_of_clear`).
* A keyword that begins both of them is typed alike in both, and the same words stand behind it
  (`leadingKeyword?_keyword_eq`).  So each of the three look-ups finds the same keyword.
* What stands behind the same keyword are subjects of the same words (`respaced_of_spells`), and
  these denote the same, whatever the records and the casing of names (`denote_respaced`).
-/

namespace LineageSearch

open Text

/-! ## How a text is read -/

/-- The rule and the keyword of an expression. -/
def Expression.reading (expression : Expression) : Alternative × Option Text :=
  (expression.kind, expression.keyword?)

/-- The rule and the keyword by which a search text is read. -/
def Grammar.reading? (grammar : Grammar) (input : Text) : Option (Alternative × Option Text) :=
  (grammar.expression? input).map Expression.reading

/-- The rule and the keyword by the keywords that are found: a lone one, one of a type, and a
tag. -/
def readingOf : Option Text → Option Text → Option Text → Alternative × Option Text
  | some keyword, _, _ => (.zeroaryExpression, some keyword)
  | none, some keyword, _ => (.typeExpression, some (trim keyword))
  | none, none, some tag => (.tagExpression, some (trim tag))
  | none, none, none => (.subjectTerm, none)

theorem reading_ofFound (text : Text) (lone typed tagged : Option Found) :
    (Expression.ofFound text lone typed tagged).reading =
      readingOf (lone.map fun _ => text) (typed.map Found.keyword) (tagged.map Found.keyword) := by
  cases lone with
  | some found => rfl
  | none =>
    cases typed with
    | some found => rfl
    | none => cases tagged <;> rfl

/-! ## Keywords at the beginning of a text -/

/-- Whether a text begins with a keyword, whatever their case. -/
def Text.BeginsWith (t keyword : Text) : Prop := keyword.map fold <+: t.map fold

instance (t keyword : Text) : Decidable (BeginsWith t keyword) :=
  inferInstanceAs (Decidable (keyword.map fold <+: t.map fold))

theorem Text.beginsWith_iff {t keyword : Text} :
    BeginsWith t keyword ↔
      ∃ piece behind, t = piece ++ behind ∧ sameFolded keyword piece = true := by
  constructor
  · intro h
    obtain ⟨rest, hrest⟩ := h
    obtain ⟨piece, behind, hsplit, hpiece, -⟩ := List.map_eq_append_iff.mp hrest.symm
    exact ⟨piece, behind, hsplit, sameFolded_iff.mpr hpiece.symm⟩
  · rintro ⟨piece, behind, rfl, hfolded⟩
    refine ⟨behind.map fold, ?_⟩
    rw [sameFolded_iff.mp hfolded, List.map_append]

section SameWords

variable {first second keyword : Text}

/-- A keyword without blanks does not reach behind the first word. -/
theorem beginsWith_of_clear (hsecond : IsTight second) (hwords : words first = words second)
    (hclear : ∀ c ∈ keyword, isBlank c = false) (h : BeginsWith first keyword) :
    BeginsWith second keyword := by
  obtain ⟨piece, behind, rfl, hfolded⟩ := beginsWith_iff.mp h
  have hpiece : ∀ c ∈ piece, isBlank c = false := by
    intro c hc
    have hmem : fold c ∈ keyword.map fold := by
      rw [sameFolded_iff.mp hfolded]
      exact List.mem_map_of_mem hc
    obtain ⟨d, hd, hfold⟩ := List.mem_map.mp hmem
    rw [← isBlank_fold, ← hfold, isBlank_fold]
    exact hclear d hd
  obtain ⟨beyond, rfl⟩ := exists_append_of_words_eq hsecond hpiece hwords
  exact beginsWith_iff.mpr ⟨piece, beyond, rfl, hfolded⟩

/-- A keyword that begins two texts of the same words is found in both or in neither, and typed
alike in both. -/
theorem leadingKeyword?_keyword_eq (hwords : words first = words second)
    (hbegins : BeginsWith first keyword ↔ BeginsWith second keyword) :
    (leadingKeyword? first keyword).map Found.keyword =
      (leadingKeyword? second keyword).map Found.keyword := by
  by_cases hfirst : BeginsWith first keyword
  · obtain ⟨other, beyond, rfl, hother⟩ := beginsWith_iff.mp (hbegins.mp hfirst)
    obtain ⟨piece, behind, rfl, hpiece⟩ := beginsWith_iff.mp hfirst
    have hfold : piece.map fold = other.map fold := by
      rw [← sameFolded_iff.mp hpiece, sameFolded_iff.mp hother]
    obtain ⟨rfl, hbehind⟩ := eq_and_words_eq_of_append hfold hwords
    rw [leadingKeyword?_append behind hpiece, leadingKeyword?_append beyond hother,
      isBlankText_eq_of_words_eq hbehind]
    cases isBlankText beyond <;> rfl
  · have hnone : ∀ {t : Text}, ¬ BeginsWith t keyword → leadingKeyword? t keyword = none :=
      fun ht => Option.eq_none_iff_forall_ne_some.mpr fun found hfound =>
        ht (prefix_of_leadingKeyword? hfound)
    rw [hnone hfirst, hnone (hbegins.not.mp hfirst)]

/-- A text that is a keyword is no other text of the same words that begins with the keyword. -/
theorem eq_of_lone (hfirst : IsTight first) (hsecond : IsTight second)
    (hwords : words first = words second)
    (hfolded : sameFolded keyword first = true) (hbegins : BeginsWith second keyword) :
    first = second := by
  obtain ⟨piece, behind, rfl, hpiece⟩ := beginsWith_iff.mp hbegins
  have hfold : first.map fold = piece.map fold := by
    rw [← sameFolded_iff.mp hfolded, sameFolded_iff.mp hpiece]
  have hpadded : words (first ++ []) = words (piece ++ behind) := by rw [List.append_nil, hwords]
  obtain ⟨rfl, hbehind⟩ := eq_and_words_eq_of_append hfold hpadded
  have hblank : isBlankText behind = true := words_eq_nil_iff.mp hbehind.symm
  calc first
      = trim (first ++ behind) := (hfirst.trim_append hblank).symm
    _ = first ++ behind := hsecond.trim_eq

/-! ## What the patterns find -/

theorem findSome?_congr {α β : Type} {f g : α → Option β} {l : List α} (h : ∀ a ∈ l, f a = g a) :
    l.findSome? f = l.findSome? g := by
  induction l with
  | nil => rfl
  | cons a rest ih =>
    rw [List.findSome?_cons, List.findSome?_cons, h a (List.mem_cons_self ..),
      ih fun b hb => h b (List.mem_cons_of_mem _ hb)]

namespace Pattern

variable {keywords : List Text}
  (hbegins : ∀ w ∈ keywords, BeginsWith first w ↔ BeginsWith second w)

include hbegins

theorem find?_portion_keyword_eq (hwords : words first = words second) :
    ((ofKeywords .portion keywords).find? first).map Found.keyword =
      ((ofKeywords .portion keywords).find? second).map Found.keyword := by
  show ((ofKeywords .portion keywords).keywords.findSome? (leadingKeyword? first)).map _ =
    ((ofKeywords .portion keywords).keywords.findSome? (leadingKeyword? second)).map _
  rw [List.map_findSome?, List.map_findSome?]
  refine findSome?_congr fun w hw => ?_
  exact leadingKeyword?_keyword_eq hwords (hbegins w (mem_keywords_ofKeywords.mp hw).1)

/-- A text that is a keyword is the same text in both. -/
theorem find?_single_eq (hfirst : IsTight first) (hsecond : IsTight second)
    (hwords : words first = words second) :
    (((ofKeywords .single keywords).find? first).map fun _ => first) =
      ((ofKeywords .single keywords).find? second).map fun _ => second := by
  have hself : ∀ {t w : Text}, sameFolded w t = true → BeginsWith t w := fun hfolded =>
    beginsWith_iff.mpr ⟨_, [], (List.append_nil _).symm, hfolded⟩
  cases hone : (ofKeywords .single keywords).find? first with
  | some found =>
    obtain ⟨-, w, hw, -, hfolded⟩ := find?_single_eq_some_iff.mp hone
    obtain rfl := eq_of_lone hfirst hsecond hwords hfolded ((hbegins w hw).mp (hself hfolded))
    rw [hone]
  | none =>
    cases htwo : (ofKeywords .single keywords).find? second with
    | none => rfl
    | some found =>
      obtain ⟨-, w, hw, -, hfolded⟩ := find?_single_eq_some_iff.mp htwo
      obtain rfl := eq_of_lone hsecond hfirst hwords.symm hfolded
        ((hbegins w hw).mpr (hself hfolded))
      rw [hone] at htwo
      cases htwo

end Pattern

end SameWords

/-! ## Reading texts of the same words -/

/-- Whether two texts begin with the same of those keywords that have blanks in them. -/
def SpacedKeywordsAgree (registry : Registry) (tags : Tags) (first second : Text) : Prop :=
  ∀ w ∈ registry.types ++ registry.zeroary ++ tags.words, (∃ c ∈ w, isBlank c = true) →
    (BeginsWith (trim first) w ↔ BeginsWith (trim second) w)

/-- Of the built-in keywords only `red panda` has a blank. -/
theorem spacedKeywordsAgree_builtin {registry : Registry} (hdrawn : registry.DrawnFrom .builtin)
    {first second : Text}
    (h : BeginsWith (trim first) "red panda".toList ↔ BeginsWith (trim second) "red panda".toList) :
    SpacedKeywordsAgree registry Tags.builtin first second := by
  have hwords : ((Dictionary.builtin.types.words ++ Tags.builtin.words).all fun w =>
      w == "red panda".toList || w.all (!isBlank ·)) = true := by
    decide +kernel
  intro w hw hspaced
  have hmem : w ∈ Dictionary.builtin.types.words ++ Tags.builtin.words := by
    rw [← hdrawn.types]
    simp only [List.mem_append] at hw ⊢
    rcases hw with (htype | hlone) | htag
    · exact Or.inl htype
    · exact Or.inl (hdrawn.mem_types_of_mem_zeroary hlone)
    · exact Or.inr htag
  obtain ⟨c, hc, hblank⟩ := hspaced
  rcases Bool.or_eq_true_iff.mp (List.all_eq_true.mp hwords w hmem) with hred | hclear
  · rw [beq_iff_eq.mp hred]
    exact h
  · have hnot := List.all_eq_true.mp hclear c hc
    simp [hblank] at hnot

section Reading

variable {registry : Registry} {tags : Tags} {first second : Text}

theorem beginsWith_iff_of_agree (hfirst : IsTight (trim first)) (hsecond : IsTight (trim second))
    (hwords : words first = words second)
    (hagree : SpacedKeywordsAgree registry tags first second) :
    ∀ w ∈ registry.types ++ registry.zeroary ++ tags.words,
      (BeginsWith (trim first) w ↔ BeginsWith (trim second) w) := by
  intro w hw
  by_cases hspaced : ∃ c ∈ w, isBlank c = true
  · exact hagree w hw hspaced
  · have hclear : ∀ c ∈ w, isBlank c = false := by
      intro c hc
      by_contra hblank
      exact hspaced ⟨c, hc, by simpa using hblank⟩
    have htrim := words_trim_eq hwords
    exact ⟨beginsWith_of_clear hsecond htrim hclear, beginsWith_of_clear hfirst htrim.symm hclear⟩

/-- **Texts of the same words that begin with the same spaced keywords are read alike.** -/
theorem reading?_eq_of_agree (hwords : words first = words second)
    (hagree : SpacedKeywordsAgree registry tags first second) :
    (Grammar.ofVocabulary registry tags).reading? first =
      (Grammar.ofVocabulary registry tags).reading? second := by
  have hsame : isBlankText first = isBlankText second := isBlankText_eq_of_words_eq hwords
  by_cases hblank : isBlankText second = true
  · rw [Grammar.reading?, Grammar.reading?, Grammar.expression?_eq_none_iff.mpr hblank,
      Grammar.expression?_eq_none_iff.mpr (hsame.trans hblank)]
  · rw [Bool.not_eq_true] at hblank
    have hfirst : IsTight (trim first) := isTight_trim (hsame.trans hblank)
    have hsecond : IsTight (trim second) := isTight_trim hblank
    have htrim := words_trim_eq hwords
    have hbegins := beginsWith_iff_of_agree hfirst hsecond hwords hagree
    have hlone := Pattern.find?_single_eq
      (fun w (hw : w ∈ registry.zeroary) => hbegins w (by simp [hw])) hfirst hsecond htrim
    have htype := Pattern.find?_portion_keyword_eq
      (fun w (hw : w ∈ registry.types) => hbegins w (by simp [hw])) htrim
    have htag := Pattern.find?_portion_keyword_eq
      (fun w (hw : w ∈ tags.words) => hbegins w (by simp [hw])) htrim
    rw [Grammar.reading?, Grammar.reading?, Grammar.expression?_eq_ofFound registry tags hblank,
      Grammar.expression?_eq_ofFound registry tags (hsame.trans hblank), Option.map_some,
      Option.map_some, reading_ofFound, reading_ofFound, hlone, htype, htag]

end Reading

/-! ## Expressions that differ in their blanks only -/

/-- Whether two subjects are one id, or names of the same words. -/
inductive Atom.Respaced : Atom → Atom → Prop
  | id (digits : Text) : Respaced (.id digits) (.id digits)
  | name {first second : Text} (hwords : words first = words second) :
      Respaced (.name first) (.name second)

/-- Whether two expressions have the same keyword, and subjects of the same words. -/
inductive Expression.Respaced : Expression → Expression → Prop
  | zeroary (keyword : Text) : Respaced (.zeroary keyword) (.zeroary keyword)
  | typed (keyword : Text) {first second : Atom} (hatom : first.Respaced second) :
      Respaced (.typed keyword first) (.typed keyword second)
  | tagged (tag : Text) {first second : Atom} (hatom : first.Respaced second) :
      Respaced (.tagged tag first) (.tagged tag second)
  | bare {first second : Atom} (hatom : first.Respaced second) :
      Respaced (.bare first) (.bare second)

/-- An id is one word, so a subject of the same words is the same id. -/
theorem Atom.IsRead.eq_id {digits : Text} {other : Atom} (h : (Atom.id digits).IsRead)
    (hother : other.IsRead) (hwords : words digits = words other.text) : other = .id digits := by
  have hshort : IsShortNumber digits := h.2.mp ⟨digits, rfl⟩
  have hword : words digits = [digits] :=
    words_eq_singleton h.1.ne_nil fun c hc => isBlank_of_isDigit (hshort.2.2 c hc)
  have htext : other.text = digits := hother.1.eq_of_words (hwords.symm.trans hword)
  obtain ⟨same, rfl⟩ := hother.2.mpr (htext ▸ hshort)
  exact congrArg Atom.id htext

theorem Atom.IsRead.respaced {first second : Atom} (hfirst : first.IsRead) (hsecond : second.IsRead)
    (hwords : words first.text = words second.text) : first.Respaced second := by
  cases first with
  | id digits =>
    rw [hfirst.eq_id hsecond hwords]
    exact .id digits
  | name text =>
    cases second with
    | id digits =>
      rw [hsecond.eq_id hfirst hwords.symm]
      exact .id digits
    | name other => exact .name hwords

/-- Behind one keyword stand subjects of the same words. -/
theorem Atom.StandsBehind.respaced {first second : Atom} {keyword text other : Text}
    (hfirst : first.StandsBehind keyword text) (hsecond : second.StandsBehind keyword other)
    (hwords : words text = words other) : first.Respaced second := by
  obtain ⟨-, htight, hkind, gap, hgap, rfl⟩ := hfirst
  obtain ⟨-, htightOther, hkindOther, gapOther, hgapOther, rfl⟩ := hsecond
  rw [List.append_assoc, List.append_assoc] at hwords
  obtain ⟨-, hbehind⟩ := eq_and_words_eq_of_append rfl hwords
  rw [words_append_of_blank_left hgap, words_append_of_blank_left hgapOther] at hbehind
  exact Atom.IsRead.respaced ⟨htight, hkind⟩ ⟨htightOther, hkindOther⟩ hbehind

/-- Texts of the same words that are read by one rule and keyword differ in their blanks only. -/
theorem respaced_of_spells {first second : Expression} {text other : Text}
    (hfirst : first.Spells text) (hsecond : second.Spells other) (htext : IsTight text)
    (hother : IsTight other) (hwords : words text = words other)
    (hreading : first.reading = second.reading) : first.Respaced second := by
  obtain ⟨hkind, hkeyword⟩ := Prod.mk.inj hreading
  cases first with
  | zeroary keyword =>
    cases second with
    | zeroary other =>
      obtain rfl := Option.some_inj.mp hkeyword
      exact .zeroary keyword
    | _ => cases hkind
  | typed keyword atom =>
    cases second with
    | typed other behind =>
      obtain rfl := Option.some_inj.mp hkeyword
      exact .typed keyword (hfirst.respaced hsecond hwords)
    | _ => cases hkind
  | tagged tag atom =>
    cases second with
    | tagged other behind =>
      obtain rfl := Option.some_inj.mp hkeyword
      exact .tagged tag (hfirst.respaced hsecond hwords)
    | _ => cases hkind
  | bare atom =>
    cases second with
    | bare behind =>
      obtain ⟨rfl, hkindFirst⟩ := hfirst
      obtain ⟨rfl, hkindSecond⟩ := hsecond
      exact .bare (Atom.IsRead.respaced ⟨htext, hkindFirst⟩ ⟨hother, hkindSecond⟩ hwords)
    | _ => cases hkind

/-! ## Searching texts of the same words -/

/-- Names are looked at word by word, however they are cased. -/
theorem Resolver.denote_respaced (resolver : Resolver) {first second : Atom}
    (h : first.Respaced second) (env : Environment) :
    resolver.denote first env = resolver.denote second env := by
  have hsubject : resolver.subjectOf env.preserveCase first =
      resolver.subjectOf env.preserveCase second := by
    cases h with
    | id digits => rfl
    | name hwords =>
      unfold subjectOf
      simp only [hwords]
  unfold denote
  rw [hsubject]

namespace Engine

variable {engine : Engine}

theorem reduceBy_respaced (resolver : Resolver) {first second : Expression}
    (h : first.Respaced second) (env : Environment) :
    engine.reduceBy resolver first env = engine.reduceBy resolver second env := by
  cases h with
  | zeroary keyword => rfl
  | typed keyword hatom =>
    unfold reduceBy
    simp only [resolver.denote_respaced hatom]
  | tagged tag hatom =>
    unfold reduceBy
    simp only [resolver.denote_respaced hatom]
  | bare hatom =>
    unfold reduceBy
    simp only [resolver.denote_respaced hatom]

/-- A result tells the rule and the keyword by which its text was read. -/
theorem reading_reduceBy (engine : Engine) (resolver : Resolver) (expression : Expression)
    (env : Environment) :
    ((engine.reduceBy resolver expression env).1.parsed,
      (engine.reduceBy resolver expression env).1.keyword) = expression.reading := by
  cases expression <;> rfl

/-- **Texts of the same words are searched alike exactly if they are read alike.** -/
theorem searchBy_respaced_iff {registry : Registry} {tags : Tags} {first second : Text}
    (hgrammar : engine.grammar = .ofVocabulary registry tags) (hwords : words first = words second)
    (resolver : Resolver) :
    engine.searchBy resolver first = engine.searchBy resolver second ↔
      engine.grammar.reading? first = engine.grammar.reading? second := by
  rw [searchBy_eq, searchBy_eq, Grammar.reading?, Grammar.reading?]
  cases hone : engine.grammar.expression? first with
  | none =>
    cases htwo : engine.grammar.expression? second with
    | none => simp
    | some other => simp
  | some expression =>
    cases htwo : engine.grammar.expression? second with
    | none => simp
    | some other =>
      simp only [Option.map_some, Option.some_inj, Except.ok.injEq]
      constructor
      · intro hsame
        rw [← reading_reduceBy engine resolver expression .fresh, hsame, reading_reduceBy]
      · intro hreading
        rw [hgrammar] at hone htwo
        have hrespaced := respaced_of_spells (Grammar.spells_of_expression? hone)
          (Grammar.spells_of_expression? htwo)
          (isTight_trim (Grammar.exists_readAs?_of_expression? hone).1)
          (isTight_trim (Grammar.exists_readAs?_of_expression? htwo).1) (words_trim_eq hwords)
          hreading
        exact reduceBy_respaced resolver hrespaced .fresh

/-- **Spacing between words matters in keywords only.**  Texts of the same words are searched alike
exactly if they are read by the same rule with the same keyword, whatever records are searched and
however names are cased; and they are read so if they begin with the same of the keywords that have
blanks. -/
theorem search_respaced_iff {registry : Registry} {tags : Tags} {first second : Text}
    (hgrammar : engine.grammar = .ofVocabulary registry tags)
    (hwords : words first = words second) :
    (engine.search first = engine.search second ↔
        engine.grammar.reading? first = engine.grammar.reading? second) ∧
      (∀ resolver, engine.searchBy resolver first = engine.searchBy resolver second ↔
        engine.grammar.reading? first = engine.grammar.reading? second) ∧
      (SpacedKeywordsAgree registry tags first second →
        engine.grammar.reading? first = engine.grammar.reading? second) := by
  refine ⟨?_, searchBy_respaced_iff hgrammar hwords, fun hagree => ?_⟩
  · rw [← searchBy_resolver]
    exact searchBy_respaced_iff hgrammar hwords engine.resolver
  · rw [hgrammar]
    exact reading?_eq_of_agree hwords hagree

/-- Around `red panda`, and in the name behind it, any blanks do. -/
theorem search_respaced_iff_red_panda :
    let records : Export := { pandas :=
      [{ id := 7, names := { en := some "Gin Chan".toList } }] }
    let first := " Red Panda\tgin   chan\n".toList
    let second := "Red Panda gin chan".toList
    ∃ engine, build (.ofExport records) .builtin Tags.builtin false .en = .ok engine ∧
      words first = words second ∧ engine.search first = engine.search second ∧
      ∃ result env, engine.search first = .ok (result, env) ∧ result.hits = [.panda 7] := by
  intro records first second
  have hrun : (build (.ofExport records) .builtin Tags.builtin false .en).toOption.map
      (fun engine => (engine.search first).toOption.map fun found => found.1.hits) =
      some (some [.panda 7]) := by
    decide +kernel
  have hwords : words first = words second := by decide +kernel
  obtain ⟨engine, hbuild, hfound⟩ := exists_ok_of_map_toOption hrun
  obtain ⟨⟨result, env⟩, hsearch, hhits⟩ := exists_ok_of_map_toOption hfound
  obtain ⟨hregistry, -, hgrammar, -⟩ := of_build hbuild
  have hagree : SpacedKeywordsAgree engine.registry Tags.builtin first second :=
    spacedKeywordsAgree_builtin (Registry.drawnFrom_of_ofDictionary hregistry) (by decide +kernel)
  obtain ⟨hiff, -, hread⟩ := search_respaced_iff hgrammar hwords
  exact ⟨engine, hbuild, hwords, hiff.mpr (hread hagree), result, env, hsearch, hhits⟩

/-- A second blank in `red panda` makes a name of it. -/
theorem search_red_panda_ne :
    let records : Export := { pandas :=
      [{ id := 7, names := { en := some "Gin".toList } }] }
    ∃ engine, build (.ofExport records) .builtin Tags.builtin false .en = .ok engine ∧
      words "red panda gin".toList = words "red  panda gin".toList ∧
      engine.search "red panda gin".toList ≠ engine.search "red  panda gin".toList := by
  intro records
  have hrun : (build (.ofExport records) .builtin Tags.builtin false .en).toOption.map
      (fun engine =>
        decide (engine.search "red panda gin".toList = engine.search "red  panda gin".toList)) =
      some false := by
    decide +kernel
  obtain ⟨engine, hbuild, hdiffer⟩ := exists_ok_of_map_toOption hrun
  exact ⟨engine, hbuild, by decide +kernel, of_decide_eq_false hdiffer⟩

end Engine

end LineageSearch
