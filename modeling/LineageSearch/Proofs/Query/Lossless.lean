import LineageSearch.Proofs.Query.PlainTexts

/-!
# Reading loses nothing

A search text is read as an expression unless it is blank, and nothing of it is lost but
blanks: the trimmed text is the keyword, then blanks, then the subject
(`Expression.Spells`).  This holds for every dictionary, also one whose words have blanks at
their ends or are blank altogether.

The reason is that a trimmed text is tight.  A keyword that leads it begins where the text
begins, and what stands behind the keyword ends where the text ends; so trimming the keyword
moves blanks from its end into the gap, and what is left behind is always a subject
(`exists_subject_of_term?`).  So no keyword that leads a text is dropped for want of a subject:
unless a keyword of higher priority is found, the text is read as that keyword with its subject
(`expression?_of_typeTerm`, `expression?_of_tagTerm`).  A keyword that stands alone comes first of
all (`expression?_of_zeroaryTerm`).

How much of a text a keyword takes is counted in bytes.  The count is that of the text in
front of the rest, so it always falls on the boundary of a character
(`isCutBefore_of_find?`), whatever the width of the letters that fold alike.
-/

namespace LineageSearch

open Text

/-! ## Subjects -/

/-- One to five ASCII digits. -/
def IsShortNumber (t : Text) : Prop := 1 ≤ t.length ∧ t.length ≤ 5 ∧ ∀ c ∈ t, c.isDigit = true

theorem isIdAtom_iff {t : Text} : isIdAtom t = true ↔ IsShortNumber t := by
  have hne : t.isEmpty = false ↔ 1 ≤ t.length := by
    rw [List.isEmpty_eq_false_iff, ← List.length_pos_iff, Nat.succ_le_iff]
  simp only [isIdAtom, isDigits, Bool.and_eq_true, Bool.not_eq_true', hne, List.all_eq_true,
    decide_eq_true_eq, IsShortNumber]
  tauto

theorem isNameAtom_iff {t : Text} : isNameAtom t = true ↔ IsTight t := by
  simp only [isNameAtom, IsTight, Bool.and_eq_true, Option.any_eq_true, Bool.not_eq_true',
    Option.mem_def]

/-- Whether an atom is an id exactly if its text is a short number, and a name otherwise. -/
def Atom.KindFits (atom : Atom) : Prop := (∃ digits, atom = .id digits) ↔ IsShortNumber atom.text

/-- A tight text is a subject, and all of it is the text of the subject. -/
theorem subjectAtom?_of_tight {t : Text} (h : IsTight t) :
    ∃ atom, subjectAtom? t = some atom ∧ atom.text = t ∧ atom.KindFits := by
  rw [subjectAtom?, h.trim_eq]
  by_cases hid : isIdAtom t = true
  · refine ⟨.id t, by simp [hid], rfl, ?_⟩
    exact iff_of_true ⟨t, rfl⟩ (isIdAtom_iff.mp hid)
  · refine ⟨.name t, by simp [hid, isNameAtom_iff.mpr h], rfl, ?_⟩
    exact iff_of_false (by simp) fun hshort => hid (isIdAtom_iff.mpr hshort)

/-- Blanks at its ends are no part of a subject. -/
theorem subjectAtom?_trim {t : Text} (h : isBlankText t = false) :
    subjectAtom? (trim t) = subjectAtom? t := by
  rw [subjectAtom?, subjectAtom?, (isTight_trim h).trim_eq]

/-! ## Terms -/

/-- How a keyword that leads a tight text divides it.  The keyword may have blanks at its
end; they go to the gap. -/
theorem split_of_find?_portion {words : List Text} {text : Text} {found : Found}
    (htext : IsTight text)
    (hfound : (Pattern.ofKeywords .portion words).find? text = some found) :
    IsTight (trim found.keyword) ∧ IsTight found.rest ∧
      ∃ gap, isBlankText gap = true ∧ text = trim found.keyword ++ gap ++ found.rest := by
  obtain ⟨w, -, hne, hlead⟩ := Pattern.exists_of_find?_portion hfound
  obtain ⟨hsplit, hfolded, hgap, c, hhead, hc⟩ := leadingKeyword?_eq_some_iff.mp hlead
  obtain ⟨⟨first, hfirst, hstart⟩, last, hlast, hend⟩ := htext
  -- the keyword is not empty, so it begins where the text begins
  have hpiece : found.keyword ≠ [] := by
    intro hnil
    have hlength := length_eq_of_sameFolded hfolded
    rw [hnil, List.length_nil, List.length_eq_zero_iff] at hlength
    exact hne hlength
  have hkeyword : first ∈ found.keyword.head? := by
    rw [hsplit, List.append_assoc, List.head?_append_of_ne_nil _ hpiece] at hfirst
    exact hfirst
  -- the rest is not empty, so it ends where the text ends
  have hrest : found.rest ≠ [] := by
    rintro hnil
    simp [hnil] at hhead
  have hbehind : last ∈ found.rest.getLast? := by
    rw [hsplit, List.getLast?_append_of_ne_nil _ hrest] at hlast
    exact hlast
  obtain ⟨after, hafter, hpadded⟩ := exists_trim_of_head hkeyword hstart
  refine ⟨isTight_trim (isBlankText_eq_false_of_head hkeyword hstart),
    ⟨⟨c, hhead, hc⟩, last, hbehind, hend⟩, after ++ found.gap, by simp [hafter, hgap], ?_⟩
  rw [← List.append_assoc, ← hpadded]
  exact hsplit

/-- Whether a text is a keyword, then blanks, then a subject.  Keyword and subject are not
empty and have no blanks at their ends. -/
def Atom.StandsBehind (subject : Atom) (keyword text : Text) : Prop :=
  IsTight keyword ∧ IsTight subject.text ∧ subject.KindFits ∧
    ∃ gap, isBlankText gap = true ∧ text = keyword ++ gap ++ subject.text

/-- A keyword that leads a tight text is never left without a subject. -/
theorem exists_subject_of_term? {words : List Text} {text keyword rest : Text}
    (htext : IsTight text)
    (hterm : Grammar.term? (.ofKeywords .portion words) text = some (keyword, rest)) :
    ∃ subject, subjectAtom? rest = some subject ∧ subject.StandsBehind keyword text := by
  obtain ⟨found, hfound, hpair⟩ := Option.map_eq_some_iff.mp hterm
  obtain ⟨rfl, rfl⟩ := Prod.mk.inj hpair
  obtain ⟨hkeyword, hrest, gap, hgap, hsplit⟩ := split_of_find?_portion htext hfound
  obtain ⟨c, hhead, hc⟩ := hrest.1
  rw [trimStart_eq_self hhead hc]
  obtain ⟨subject, hsubject, hall, hkind⟩ := subjectAtom?_of_tight hrest
  refine ⟨subject, hsubject, hkeyword, ?_, hkind, gap, hgap, ?_⟩
  · rw [hall]
    exact hrest
  · rw [hall]
    exact hsplit

theorem term?_portion_nil (words : List Text) :
    Grammar.term? (.ofKeywords .portion words) [] = none := by
  rw [Grammar.term?, Option.map_eq_none_iff, Option.eq_none_iff_forall_ne_some]
  intro found hfound
  obtain ⟨w, -, -, hlead⟩ := Pattern.exists_of_find?_portion hfound
  obtain ⟨hsplit, -, -, c, hhead, -⟩ := leadingKeyword?_eq_some_iff.mp hlead
  obtain ⟨-, hrest⟩ := List.append_eq_nil_iff.mp hsplit.symm
  simp [hrest] at hhead

theorem exists_subject_of_term?_trim {words : List Text} {input keyword rest : Text}
    (hterm : Grammar.term? (.ofKeywords .portion words) (trim input) = some (keyword, rest)) :
    isBlankText input = false ∧ ∃ subject, subjectAtom? rest = some subject := by
  have hblank : isBlankText input = false := by
    by_contra hblank
    rw [Bool.not_eq_false, ← trim_eq_nil_iff] at hblank
    rw [hblank, term?_portion_nil] at hterm
    simp at hterm
  obtain ⟨subject, hsubject, -⟩ := exists_subject_of_term? (isTight_trim hblank) hterm
  exact ⟨hblank, subject, hsubject⟩

/-! ## Expressions -/

/-- Whether the parts of an expression make up a text, blanks between them aside. -/
def Expression.Spells : Expression → Text → Prop
  | .zeroary keyword, text => keyword = text
  | .typed keyword subject, text => subject.StandsBehind keyword text
  | .tagged tag subject, text => subject.StandsBehind tag text
  | .bare subject, text => subject.text = text ∧ subject.KindFits

namespace Grammar

variable {registry : Registry} {tags : Tags} {text input : Text} {expression : Expression}

/-- A term is read with the subject behind it, or not at all. -/
theorem bind_subject_eq_some_iff {term : Option (Text × Text)}
    {wrap : Text → Atom → Expression} :
    (term.bind fun (keyword, rest) => (subjectAtom? rest).map (wrap keyword)) =
        some expression ↔
      ∃ keyword rest subject, term = some (keyword, rest) ∧ subjectAtom? rest = some subject ∧
        wrap keyword subject = expression := by
  simp only [Option.bind_eq_some_iff, Option.map_eq_some_iff, Prod.exists]
  tauto

theorem spells_of_readAs? {alternative : Alternative} (htext : IsTight text)
    (hread : (ofVocabulary registry tags).readAs? text alternative = some expression) :
    expression.Spells text := by
  cases alternative with
  | zeroaryExpression =>
    obtain ⟨pair, hterm, rfl⟩ := Option.map_eq_some_iff.mp hread
    obtain ⟨found, hfound, rfl⟩ := Option.map_eq_some_iff.mp hterm
    obtain ⟨rfl, -⟩ := Pattern.find?_single_eq_some_iff.mp hfound
    exact htext.trim_eq
  | typeExpression =>
    obtain ⟨keyword, rest, subject, hterm, hsubject, rfl⟩ := bind_subject_eq_some_iff.mp hread
    obtain ⟨other, hother, hbehind⟩ := exists_subject_of_term? htext hterm
    obtain rfl : other = subject := Option.some_inj.mp (hother.symm.trans hsubject)
    exact hbehind
  | tagExpression =>
    obtain ⟨tag, rest, subject, hterm, hsubject, rfl⟩ := bind_subject_eq_some_iff.mp hread
    obtain ⟨other, hother, hbehind⟩ := exists_subject_of_term? htext hterm
    obtain rfl : other = subject := Option.some_inj.mp (hother.symm.trans hsubject)
    exact hbehind
  | subjectTerm =>
    obtain ⟨subject, hsome, hall, hkind⟩ := subjectAtom?_of_tight htext
    rw [readAs?, hsome, Option.map_some, Option.some_inj] at hread
    subst hread
    exact ⟨hall, hkind⟩

theorem exists_readAs?_of_expression? {grammar : Grammar}
    (hread : grammar.expression? input = some expression) :
    isBlankText input = false ∧
      ∃ alternative, grammar.readAs? (trim input) alternative = some expression := by
  dsimp only [expression?] at hread
  split at hread
  · simp at hread
  · next hne =>
    constructor
    · rw [List.isEmpty_iff, trim_eq_nil_iff] at hne
      simpa using hne
    · split at hread
      · exact ⟨.subjectTerm, hread⟩
      · obtain ⟨alternative, -, hsome⟩ := List.exists_of_findSome?_eq_some hread
        exact ⟨alternative, hsome⟩

/-- Only a blank text is no expression: any other is at least a bare subject. -/
theorem expression?_eq_none_iff {grammar : Grammar} :
    grammar.expression? input = none ↔ isBlankText input = true := by
  constructor
  · intro hnone
    by_contra hblank
    rw [Bool.not_eq_true] at hblank
    have htight := isTight_trim hblank
    obtain ⟨subject, hsome, -⟩ := subjectAtom?_of_tight htight
    have hbare : grammar.readAs? (trim input) .subjectTerm = some (.bare subject) := by
      rw [readAs?, hsome, Option.map_some]
    dsimp only [expression?] at hnone
    rw [if_neg (by simpa using htight.ne_nil)] at hnone
    split at hnone
    · rw [hsome] at hnone
      simp at hnone
    · rw [List.findSome?_eq_none_iff] at hnone
      rw [hnone .subjectTerm (by simp [Alternative.priority])] at hbare
      simp at hbare
  · intro hblank
    dsimp only [expression?]
    rw [if_pos (by simp [trim_eq_nil_iff.mpr hblank])]

/-- A keyword that stands alone takes the whole text, whatever else it might be read as. -/
theorem expression?_of_zeroaryTerm {keyword rest : Text} (hblank : isBlankText input = false)
    (hzeroary :
      term? (ofVocabulary registry tags).zeroaryTerm (trim input) = some (keyword, rest)) :
    (ofVocabulary registry tags).expression? input = some (.zeroary keyword) := by
  rw [expression?_of_not_blank hblank]
  simp only [Alternative.priority, List.findSome?_cons, readAs?, hzeroary, Option.map_some]

/-- A type operator that leads a text takes it, unless the text is a keyword that stands alone. -/
theorem expression?_of_typeTerm {keyword rest : Text} {subject : Atom}
    (hblank : isBlankText input = false)
    (hzeroary : term? (ofVocabulary registry tags).zeroaryTerm (trim input) = none)
    (htype : term? (ofVocabulary registry tags).typeTerm (trim input) = some (keyword, rest))
    (hsubject : subjectAtom? rest = some subject) :
    (ofVocabulary registry tags).expression? input = some (.typed keyword subject) := by
  rw [expression?_of_not_blank hblank]
  simp only [Alternative.priority, List.findSome?_cons, readAs?, hzeroary, htype, hsubject,
    Option.map_none, Option.bind_some, Option.map_some]

/-- A tag that leads a text takes it, unless a keyword that stands alone or a type operator does. -/
theorem expression?_of_tagTerm {tag rest : Text} {subject : Atom}
    (hblank : isBlankText input = false)
    (hzeroary : term? (ofVocabulary registry tags).zeroaryTerm (trim input) = none)
    (htype : term? (ofVocabulary registry tags).typeTerm (trim input) = none)
    (htag : term? (ofVocabulary registry tags).tagTerm (trim input) = some (tag, rest))
    (hsubject : subjectAtom? rest = some subject) :
    (ofVocabulary registry tags).expression? input = some (.tagged tag subject) := by
  rw [expression?_of_not_blank hblank]
  simp only [Alternative.priority, List.findSome?_cons, readAs?, hzeroary, htype, htag, hsubject,
    Option.map_none, Option.bind_none, Option.bind_some, Option.map_some]

/-! ## Bytes -/

theorem utf8ByteSize_ofList (t : Text) : (String.ofList t).utf8ByteSize = byteLength t := by
  induction t with
  | nil => rfl
  | cons c rest ih =>
    rw [← List.singleton_append, String.ofList_append, String.utf8ByteSize_append, ih,
      byteLength_append, ← String.singleton_eq_ofList, String.utf8ByteSize_singleton]
    simp [byteLength]

/-- Whether a number of bytes of a text is that of its beginning up to a rest. -/
def IsCutBefore (consumed : Nat) (text rest : Text) : Prop :=
  String.Pos.Raw.IsValid (String.ofList text) ⟨consumed⟩ ∧
    ∃ front, text = front ++ rest ∧ consumed = byteLength front

theorem isCutBefore_of_split {found : Found} {text : Text}
    (hsplit : text = found.keyword ++ found.gap ++ found.rest) :
    IsCutBefore found.consumed text found.rest := by
  refine ⟨?_, found.keyword ++ found.gap, hsplit, rfl⟩
  rw [String.Pos.Raw.isValid_ofList]
  refine ⟨(found.keyword ++ found.gap).length, ?_⟩
  rw [hsplit, List.take_left, utf8ByteSize_ofList]
  rfl

/-- What a pattern takes of a text ends on the boundary of a character. -/
theorem isCutBefore_of_find? {kind : PatternKind} {words : List Text} {text : Text}
    {found : Found} (hfound : (Pattern.ofKeywords kind words).find? text = some found) :
    IsCutBefore found.consumed text found.rest := by
  cases kind with
  | portion =>
    obtain ⟨w, -, -, hlead⟩ := Pattern.exists_of_find?_portion hfound
    exact isCutBefore_of_split (leadingKeyword?_eq_some_iff.mp hlead).1
  | single =>
    obtain ⟨rfl, -⟩ := Pattern.find?_single_eq_some_iff.mp hfound
    exact isCutBefore_of_split (by simp)
  | none =>
    obtain rfl := Pattern.eq_of_find?_none hfound
    exact isCutBefore_of_split (by simp)

/-- **Reading is total and loses nothing.**  A text is read unless it is blank, and the
expression spells the trimmed text.  A keyword that stands alone is read as one.  A type operator
or a tag that is found is followed by a subject, and where no keyword of higher priority is found,
the text is read as that expression.  What is found ends on the boundary of a character. -/
theorem expression?_total_lossless (registry : Registry) (tags : Tags) (input : Text) :
    let grammar := ofVocabulary registry tags
    (grammar.expression? input = none ↔ isBlankText input = true) ∧
      (∀ expression, grammar.expression? input = some expression →
        expression.Spells (trim input)) ∧
      (isBlankText input = false → ∀ keyword rest,
        term? grammar.zeroaryTerm (trim input) = some (keyword, rest) →
          grammar.expression? input = some (.zeroary keyword)) ∧
      (∀ keyword rest, term? grammar.typeTerm (trim input) = some (keyword, rest) →
        ∃ subject, subjectAtom? rest = some subject ∧
          (term? grammar.zeroaryTerm (trim input) = none →
            grammar.expression? input = some (.typed keyword subject))) ∧
      (∀ tag rest, term? grammar.tagTerm (trim input) = some (tag, rest) →
        ∃ subject, subjectAtom? rest = some subject ∧
          (term? grammar.zeroaryTerm (trim input) = none →
            term? grammar.typeTerm (trim input) = none →
              grammar.expression? input = some (.tagged tag subject))) ∧
      ∀ pattern ∈ [grammar.zeroaryTerm, grammar.typeTerm, grammar.tagTerm], ∀ found,
        pattern.find? (trim input) = some found →
          IsCutBefore found.consumed (trim input) found.rest := by
  intro grammar
  refine ⟨expression?_eq_none_iff, ?_, ?_, ?_, ?_, ?_⟩
  · intro expression hread
    obtain ⟨hblank, alternative, hsome⟩ := exists_readAs?_of_expression? hread
    exact spells_of_readAs? (isTight_trim hblank) hsome
  · exact fun hblank keyword rest hterm => expression?_of_zeroaryTerm hblank hterm
  · intro keyword rest hterm
    obtain ⟨hblank, subject, hsubject⟩ := exists_subject_of_term?_trim hterm
    exact ⟨subject, hsubject, fun hzeroary =>
      expression?_of_typeTerm hblank hzeroary hterm hsubject⟩
  · intro tag rest hterm
    obtain ⟨hblank, subject, hsubject⟩ := exists_subject_of_term?_trim hterm
    exact ⟨subject, hsubject, fun hzeroary htype =>
      expression?_of_tagTerm hblank hzeroary htype hterm hsubject⟩
  · intro pattern hpattern found hfound
    simp only [List.mem_cons, List.not_mem_nil, or_false] at hpattern
    rcases hpattern with rfl | rfl | rfl <;> exact isCutBefore_of_find? hfound

end Grammar

end LineageSearch
