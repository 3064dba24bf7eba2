import LineageSearch.Proofs.Query.Backtracking

/-!
# Keywords as whole texts and as pieces of texts

* A single accepts a text exactly if the text is a keyword up to case, and then finds all of it.
* A none accepts a text exactly if no piece of the text is a keyword up to case.
* A portion and a single without keywords accept nothing, and a none without keywords everything.

So the three kinds never contradict each other (`Pattern.single_none_exact`).  The text that a
portion or a single accepts has a keyword as its beginning or as the whole of it, so no none accepts
it that was built from these keywords and perhaps more.  And the pieces of a piece are pieces of the
text: what is free of keywords has no piece that is not.
-/

namespace LineageSearch

open Text

namespace Pattern

variable {kind : PatternKind} {keywords others : List Text} {text piece : Text}

/-! ## The whole text -/

theorem accepts_single_iff :
    (ofKeywords .single keywords).accepts text = true ↔
      ∃ w ∈ keywords, w ≠ [] ∧ w.map fold = text.map fold := by
  simp only [accepts, Option.isSome_iff_exists, find?_single_eq_some_iff, exists_eq_left,
    sameFolded_iff]

theorem find?_single_of_accepts (h : (ofKeywords .single keywords).accepts text = true) :
    (ofKeywords .single keywords).find? text = some ⟨text, [], []⟩ := by
  obtain ⟨found, hfound⟩ := Option.isSome_iff_exists.mp h
  obtain ⟨rfl, -⟩ := find?_single_eq_some_iff.mp hfound
  exact hfound

/-! ## Pieces of the text -/

theorem accepts_none_iff_pieces :
    (ofKeywords .none keywords).accepts text = true ↔
      ∀ w ∈ keywords, w ≠ [] → ∀ piece, piece <:+: text → w.map fold ≠ piece.map fold := by
  rw [accepts_none_iff]
  refine forall₃_congr fun w _ _ => ?_
  rw [List.infix_map_iff]
  push Not
  rfl

/-- What is free of keywords has no piece that is not. -/
theorem accepts_none_of_isInfix (h : (ofKeywords .none keywords).accepts text = true)
    (hpiece : piece <:+: text) : (ofKeywords .none keywords).accepts piece = true := by
  rw [accepts_none_iff_pieces] at h ⊢
  intro w hw hne inner hinner
  exact h w hw hne inner (hinner.trans hpiece)

/-! ## The kinds together -/

/-- A text that a portion or a single accepts is not free of keywords. -/
theorem exists_occurrence_of_accepts (hkind : kind = .portion ∨ kind = .single)
    (h : (ofKeywords kind keywords).accepts text = true) :
    ∃ w ∈ keywords, w ≠ [] ∧ w.map fold <:+: text.map fold := by
  rcases hkind with rfl | rfl
  · obtain ⟨found, hfound⟩ := Option.isSome_iff_exists.mp h
    obtain ⟨w, hw, hne, hlead⟩ := exists_of_find?_portion hfound
    exact ⟨w, hw, hne, occurs_of_leadingKeyword? hlead⟩
  · obtain ⟨w, hw, hne, hsame⟩ := accepts_single_iff.mp h
    exact ⟨w, hw, hne, occurs_of_sameFolded (sameFolded_iff.mpr hsame)⟩

theorem accepts_none_eq_false (hsub : keywords ⊆ others)
    (h : ∃ w ∈ keywords, w ≠ [] ∧ w.map fold <:+: text.map fold) :
    (ofKeywords .none others).accepts text = false := by
  obtain ⟨w, hw, hne, hoccurs⟩ := h
  rw [← Bool.not_eq_true, accepts_none_iff]
  intro hfree
  exact hfree w (hsub hw) hne hoccurs

/-- Without a keyword that is not empty, a pattern says the same of every text. -/
theorem accepts_of_forall_eq_nil (hempty : ∀ w ∈ keywords, w = []) :
    (ofKeywords kind keywords).accepts text = decide (kind = .none) := by
  have hoccurs : ¬ ∃ w ∈ keywords, w ≠ [] ∧ w.map fold <:+: text.map fold := by
    rintro ⟨w, hw, hne, -⟩
    exact hne (hempty w hw)
  cases kind with
  | none =>
    rw [decide_eq_true rfl, accepts_none_iff]
    intro w hw hne
    exact absurd (hempty w hw) hne
  | portion =>
    rw [decide_eq_false (by decide), ← Bool.not_eq_true]
    exact fun h => hoccurs (exists_occurrence_of_accepts (Or.inl rfl) h)
  | single =>
    rw [decide_eq_false (by decide), ← Bool.not_eq_true]
    exact fun h => hoccurs (exists_occurrence_of_accepts (Or.inr rfl) h)

/-- **Singles and nones are exact, and the kinds agree with each other.**  All of them do what their
regular expressions do. -/
theorem single_none_exact (keywords : List Text) (text : Text) :
    (∀ kind, (ofKeywords kind keywords).find? text = search? kind keywords text ∧
      (ofKeywords kind keywords).accepts text = isMatch kind keywords text) ∧
    ((ofKeywords .single keywords).accepts text = true ↔
      ∃ w ∈ keywords, w ≠ [] ∧ w.map fold = text.map fold) ∧
    ((ofKeywords .single keywords).accepts text = true →
      ∃ found, (ofKeywords .single keywords).find? text = some found ∧
        found.keyword = text ∧ found.consumed = byteLength text) ∧
    ((ofKeywords .none keywords).accepts text = true ↔
      ∀ w ∈ keywords, w ≠ [] → ∀ piece, piece <:+: text → w.map fold ≠ piece.map fold) ∧
    ((∀ w ∈ keywords, w = []) →
      (ofKeywords .portion keywords).accepts text = false ∧
      (ofKeywords .single keywords).accepts text = false ∧
      (ofKeywords .none keywords).accepts text = true) ∧
    (∀ kind, kind = .portion ∨ kind = .single → (ofKeywords kind keywords).accepts text = true →
      ∀ others, keywords ⊆ others → (ofKeywords .none others).accepts text = false) ∧
    ((ofKeywords .none keywords).accepts text = true →
      ∀ piece, piece <:+: text → (ofKeywords .none keywords).accepts piece = true) := by
  refine ⟨fun kind => ⟨find?_eq_search? kind keywords text, accepts_eq_isMatch kind keywords text⟩,
    accepts_single_iff, ?_, accepts_none_iff_pieces, ?_, ?_, ?_⟩
  · intro hsingle
    refine ⟨_, find?_single_of_accepts hsingle, rfl, ?_⟩
    rw [Found.consumed, List.append_nil]
  · intro hempty
    exact ⟨accepts_of_forall_eq_nil hempty, accepts_of_forall_eq_nil hempty,
      accepts_of_forall_eq_nil hempty⟩
  · intro kind hkind haccepts others hsub
    exact accepts_none_eq_false hsub (exists_occurrence_of_accepts hkind haccepts)
  · intro hfree piece hpiece
    exact accepts_none_of_isInfix hfree hpiece

/-- "Red Panda" is a keyword as a whole, so it is not free of keywords; "Lark" is. -/
theorem single_none_exact_red_panda :
    (∃ found, (ofKeywords .single ["red".toList, "red panda".toList]).find?
        "Red Panda".toList = some found ∧
      found.keyword = "Red Panda".toList ∧ found.consumed = byteLength "Red Panda".toList) ∧
    (ofKeywords .none ["zoo".toList, "red".toList, "red panda".toList]).accepts
      "Red Panda".toList = false ∧
    (ofKeywords .none ["red".toList]).accepts "ark".toList = true := by
  have hwhole := single_none_exact ["red".toList, "red panda".toList] "Red Panda".toList
  have hfree := single_none_exact ["red".toList] "Lark".toList
  obtain ⟨-, -, hfound, -, -, hrejected, -⟩ := hwhole
  obtain ⟨-, -, -, -, -, -, hpieces⟩ := hfree
  refine ⟨hfound (by decide +kernel), ?_, ?_⟩
  · exact hrejected .single (Or.inr rfl) (by decide +kernel) _ (by decide +kernel)
  · exact hpieces (by decide +kernel) _ (by decide +kernel)

end Pattern

end LineageSearch
