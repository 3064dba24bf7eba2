import LineageSearch.Proofs.Query.Lossless
import LineageSearch.Proofs.Query.PlainTexts

/-!
# A text is read by what three patterns find

How a text is read follows from three look-ups alone: whether it is a lone keyword, which type
keyword leads it, and which tag leads it (`expression?_eq_ofFound`).  The first of them that finds
something decides, and what it leaves is the subject.  Later proofs compare readings by comparing
what is found.

A keyword is found where a piece of the text folds like it and something stands behind the piece
(`leadingKeyword?_append`, `exists_append_of_leadingKeyword?`); where its blanks end is of no
account.
-/

namespace LineageSearch

open Text

/-! ## Subjects -/

/-- A text as a subject: an id if it is a short number, and otherwise a name. -/
def Atom.ofText (t : Text) : Atom := if isIdAtom t then .id t else .name t

theorem Atom.KindFits.eq_ofText {atom : Atom} (h : atom.KindFits) : atom = .ofText atom.text := by
  unfold KindFits at h
  rw [← isIdAtom_iff] at h
  cases atom with
  | id digits =>
    have hid : isIdAtom digits = true := h.mp ⟨digits, rfl⟩
    rw [Atom.text, Atom.ofText, if_pos hid]
  | name words =>
    have hname : ¬ isIdAtom words = true := fun hid => by simpa using h.mpr hid
    rw [Atom.text, Atom.ofText, if_neg hname]

theorem subjectAtom?_eq_ofText {t : Text} (h : IsTight t) : subjectAtom? t = some (.ofText t) := by
  obtain ⟨atom, hatom, htext, hkind⟩ := subjectAtom?_of_tight h
  rw [hatom, hkind.eq_ofText, htext]

theorem subjectAtom?_of_not_blank {t : Text} (h : isBlankText t = false) :
    subjectAtom? t = some (.ofText (trim t)) := by
  rw [← subjectAtom?_trim h, subjectAtom?_eq_ofText (isTight_trim h)]

/-! ## Leading keywords -/

/-- A keyword that leads a text is found unless only blanks stand behind it. -/
theorem leadingKeyword?_append {keyword piece : Text} (behind : Text)
    (hfolded : sameFolded keyword piece = true) :
    leadingKeyword? (piece ++ behind) keyword =
      if isBlankText behind = true then none
      else some ⟨piece, behind.takeWhile isBlank, behind.dropWhile isBlank⟩ := by
  have hlength : keyword.length = piece.length := length_eq_of_sameFolded hfolded
  dsimp only [leadingKeyword?]
  rw [hlength, List.take_left, List.drop_left, hfolded]
  cases isBlankText behind <;> rfl

/-- What is found of a keyword is a piece that leads the text, and what stands behind it. -/
theorem exists_append_of_leadingKeyword? {text keyword : Text} {found : Found}
    (h : leadingKeyword? text keyword = some found) :
    ∃ behind, text = found.keyword ++ behind ∧ sameFolded keyword found.keyword = true ∧
      isBlankText behind = false := by
  obtain ⟨hsplit, hfolded, -, c, hhead, hc⟩ := leadingKeyword?_eq_some_iff.mp h
  refine ⟨found.gap ++ found.rest, ?_, hfolded, ?_⟩
  · rw [← List.append_assoc]
    exact hsplit
  · rw [isBlankText_append, isBlankText_eq_false_of_head hhead hc, Bool.and_false]

/-! ## Readings -/

/-- The expression of a text by what is found of a lone keyword, a type keyword and a tag. -/
def Expression.ofFound (text : Text) : Option Found → Option Found → Option Found → Expression
  | some _, _, _ => .zeroary text
  | none, some found, _ => .typed (trim found.keyword) (.ofText found.rest)
  | none, none, some found => .tagged (trim found.keyword) (.ofText found.rest)
  | none, none, none => .bare (.ofText text)

section OfFound

variable {text keyword : Text} {lone typed tagged : Option Found} {atom : Atom}

theorem Expression.ofFound_eq_typed_iff :
    ofFound text lone typed tagged = .typed keyword atom ↔
      lone = none ∧
        ∃ found, typed = some found ∧ trim found.keyword = keyword ∧ .ofText found.rest = atom := by
  cases lone <;> cases typed <;> cases tagged <;> simp [ofFound]

theorem Expression.ofFound_eq_tagged_iff :
    ofFound text lone typed tagged = .tagged keyword atom ↔
      lone = none ∧ typed = none ∧
        ∃ found, tagged = some found ∧ trim found.keyword = keyword ∧
          .ofText found.rest = atom := by
  cases lone <;> cases typed <;> cases tagged <;> simp [ofFound]

theorem Expression.ofFound_eq_bare_iff :
    ofFound text lone typed tagged = .bare atom ↔
      lone = none ∧ typed = none ∧ tagged = none ∧ .ofText text = atom := by
  cases lone <;> cases typed <;> cases tagged <;> simp [ofFound]

end OfFound

namespace Grammar

variable {registry : Registry} {tags : Tags} {input : Text}

/-- A term that is found is read with what it leaves, which is a subject. -/
theorem term?_bind_subject {words : List Text} {text : Text} (htext : IsTight text)
    (wrap : Text → Atom → Expression) :
    ((term? (.ofKeywords .portion words) text).bind fun (keyword, rest) =>
        (subjectAtom? rest).map (wrap keyword)) =
      ((Pattern.ofKeywords .portion words).find? text).map fun found =>
        wrap (trim found.keyword) (.ofText found.rest) := by
  cases hfound : (Pattern.ofKeywords .portion words).find? text with
  | none => simp [term?, hfound]
  | some found =>
    obtain ⟨-, hrest, -⟩ := split_of_find?_portion htext hfound
    obtain ⟨c, hhead, hc⟩ := hrest.1
    simp [term?, hfound, trimStart_eq_self hhead hc, subjectAtom?_eq_ofText hrest]

/-- A lone keyword is the whole text. -/
theorem readAs?_zeroary {text : Text} (htext : IsTight text) :
    (ofVocabulary registry tags).readAs? text .zeroaryExpression =
      ((Pattern.ofKeywords .single registry.zeroary).find? text).map fun _ => .zeroary text := by
  rw [readAs?, term?, Option.map_map]
  show ((Pattern.ofKeywords .single registry.zeroary).find? text).map _ = _
  cases hfound : (Pattern.ofKeywords .single registry.zeroary).find? text with
  | none => rfl
  | some found =>
    obtain ⟨rfl, -⟩ := Pattern.find?_single_eq_some_iff.mp hfound
    simp [htext.trim_eq]

/-- **A text that is not blank is read by what the three patterns find in it.** -/
theorem expression?_eq_ofFound (registry : Registry) (tags : Tags)
    (hblank : isBlankText input = false) :
    (ofVocabulary registry tags).expression? input = some (.ofFound (trim input)
      ((Pattern.ofKeywords .single registry.zeroary).find? (trim input))
      ((Pattern.ofKeywords .portion registry.types).find? (trim input))
      ((Pattern.ofKeywords .portion tags.words).find? (trim input))) := by
  have htight := isTight_trim hblank
  have hzeroary : (ofVocabulary registry tags).readAs? (trim input) .zeroaryExpression = _ :=
    readAs?_zeroary htight
  have htype : (ofVocabulary registry tags).readAs? (trim input) .typeExpression = _ :=
    term?_bind_subject htight .typed
  have htag : (ofVocabulary registry tags).readAs? (trim input) .tagExpression = _ :=
    term?_bind_subject htight .tagged
  have hbare : (ofVocabulary registry tags).readAs? (trim input) .subjectTerm =
      some (.bare (.ofText (trim input))) := by
    rw [readAs?, subjectAtom?_eq_ofText htight, Option.map_some]
  rw [expression?_of_not_blank hblank]
  simp only [Alternative.priority, List.findSome?_cons, hzeroary, htype, htag, hbare]
  cases (Pattern.ofKeywords .single registry.zeroary).find? (trim input) with
  | some found => rfl
  | none =>
    cases (Pattern.ofKeywords .portion registry.types).find? (trim input) with
    | some found => rfl
    | none =>
      cases (Pattern.ofKeywords .portion tags.words).find? (trim input) with
      | some found => rfl
      | none => rfl

end Grammar

end LineageSearch
