import LineageSearch.Proofs.Query.Matches
import Mathlib.Data.List.Infix
import Mathlib.Data.List.Lemmas

/-!
# Patterns are regular expressions

A pattern stands for the search of a regular expression, whatever the case of its letters:

```text
portion   ^(a|b|…)(\s*)\S     is found at the beginning
single    ^(a|b|…)$           is found at the beginning
none      (a|b|…)             is found nowhere
```

The alternatives are the keywords with their marks escaped, the longest of these escaped forms
first.  An expression is matched by backtracking: alternatives are tried in their order, blanks are
taken as far as they go, and the first way to the end of the expression counts (`Regex.ways`).

A pattern finds what its expression finds (`Pattern.find?_eq_search?`).

## Strategy

Two things stand between a pattern and its expression.

* **Ways that are given up.**  A keyword matches in one way at most (`ways_literal`), and so do
  blanks with something behind them (`ways_gapped`): a blank that is given back would have to be
  that something.  What is left to backtracking is the choice of the keyword, so the expression
  finds the first alternative that leads the text.
* **Another order.**  The expression goes by the lengths of the escaped forms.  Of two keywords that
  lead one text, the shorter one is the beginning of the longer one up to case, and a mark has no
  case, so the escaped forms are ordered as the keywords are (`length_le_of_escaped`).
-/

namespace LineageSearch

open Text CaseRun

/-! ## Regular expressions -/

/-- The regular expressions that patterns are made of.  `one` and `many` ask for characters of some
class, `finish` for the end of the text, and `group` marks a piece that is asked for later. -/
inductive Regex where
  | empty
  | never
  | one (accepts : Char → Bool)
  | many (accepts : Char → Bool)
  | finish
  | group (inner : Regex)
  | sequence (first second : Regex)
  | choice (first second : Regex)

/-- A way to match the beginning of a text: the marked pieces, the whole piece, and the rest. -/
structure Way where
  groups : List Text := []
  piece : Text
  rest : Text

namespace Regex

/-- The ways to take characters of a class off a text, as many as possible first. -/
def rowWays (accepts : Char → Bool) : Text → List Way
  | [] => [{ piece := [], rest := [] }]
  | c :: behind =>
    (if accepts c then
      (rowWays accepts behind).map fun way => { way with piece := c :: way.piece }
    else []) ++ [{ piece := [], rest := c :: behind }]

/-- The ways in which an expression matches the beginning of a text, in the order in which they are
tried. -/
def ways : Regex → Text → List Way
  | empty, t => [{ piece := [], rest := t }]
  | never, _ => []
  | one _, [] => []
  | one accepts, c :: behind => if accepts c then [{ piece := [c], rest := behind }] else []
  | many accepts, t => rowWays accepts t
  | finish, t => if t.isEmpty then [{ piece := [], rest := [] }] else []
  | group inner, t => (inner.ways t).map fun way => { way with groups := way.piece :: way.groups }
  | sequence first second, t =>
    (first.ways t).flatMap fun way => (second.ways way.rest).map fun next =>
      { groups := way.groups ++ next.groups, piece := way.piece ++ next.piece, rest := next.rest }
  | choice first second, t => first.ways t ++ second.ways t

/-- Whether an expression matches a piece of a text, wherever that begins. -/
def matchesIn (expression : Regex) (t : Text) : Bool :=
  t.tails.any fun behind => !(expression.ways behind).isEmpty

/-- A keyword, letter by letter and whatever their case. -/
def literal (keyword : Text) : Regex :=
  keyword.foldr (fun letter => sequence (one fun c => fold letter == fold c)) empty

/-- Any of some keywords, earlier ones preferred. -/
def alternatives (keywords : List Text) : Regex :=
  keywords.foldr (fun keyword => choice (literal keyword)) never

/-- Blanks, as many as possible, and something behind them. -/
def gapped : Regex := sequence (group (many isBlank)) (one (!isBlank ·))

end Regex

/-! ## Escaped keywords -/

/-- The characters that mean something in the notation of regular expressions. -/
def regexMarks : Text := "\\.+*?()|[]\x7b\x7d^$#&-~".toList

/-- A keyword in the notation of regular expressions, where marks stand behind a backslash. -/
def escaped (keyword : Text) : Text :=
  keyword.flatMap fun c => if regexMarks.contains c then ['\\', c] else [c]

/-- The keywords that are not empty, those with the longest escaped forms first. -/
def longestEscapedFirst (keywords : List Text) : List Text :=
  (keywords.filter (!·.isEmpty)).mergeSort fun first second =>
    (escaped second).length ≤ (escaped first).length

theorem mem_longestEscapedFirst {keywords : List Text} {w : Text} :
    w ∈ longestEscapedFirst keywords ↔ w ∈ keywords ∧ w ≠ [] := by
  simp [longestEscapedFirst]

theorem pairwise_longestEscapedFirst (keywords : List Text) :
    (longestEscapedFirst keywords).Pairwise fun first second =>
      (escaped second).length ≤ (escaped first).length := by
  refine (List.pairwise_mergeSort ?_ ?_ _).imp of_decide_eq_true
  · intro first second third hfirst hsecond
    rw [decide_eq_true_eq] at hfirst hsecond ⊢
    exact hsecond.trans hfirst
  · intro first second
    rw [Bool.or_eq_true, decide_eq_true_eq, decide_eq_true_eq]
    exact Nat.le_total _ _

/-- Ranges that hold all marks and no letter. -/
def markRanges : List (Nat × Nat) := [(0x23, 0x3F), (0x5B, 0x5E), (0x7B, 0x7E)]

theorem exists_markRange {mark : Char} (h : mark ∈ regexMarks) :
    ∃ range ∈ markRanges, range.1 ≤ mark.toNat ∧ mark.toNat ≤ range.2 := by
  have hall : (regexMarks.all fun mark => markRanges.any fun range =>
      decide (range.1 ≤ mark.toNat) && decide (mark.toNat ≤ range.2)) = true := by decide +kernel
  obtain ⟨range, hrange, hin⟩ := List.any_eq_true.mp (List.all_eq_true.mp hall mark h)
  rw [Bool.and_eq_true, decide_eq_true_eq, decide_eq_true_eq] at hin
  exact ⟨range, hrange, hin⟩

/-- Marks have no case. -/
theorem fold_eq_self_of_mark {c : Char} (h : c ∈ regexMarks ∨ fold c ∈ regexMarks) :
    fold c = c := by
  have hclear : (markRanges.all fun range => foldRuns.all (clearOf range.1 range.2)) = true := by
    decide +kernel
  have hwithin : ∃ range ∈ markRanges, range.1 ≤ c.toNat ∧ c.toNat ≤ range.2 ∨
      range.1 ≤ (fold c).toNat ∧ (fold c).toNat ≤ range.2 := by
    rcases h with hmark | hmark
    · obtain ⟨range, hrange, hin⟩ := exists_markRange hmark
      exact ⟨range, hrange, Or.inl hin⟩
    · obtain ⟨range, hrange, hin⟩ := exists_markRange hmark
      exact ⟨range, hrange, Or.inr hin⟩
  obtain ⟨range, hrange, hin⟩ := hwithin
  exact apply_eq_self_of_clear range.1 range.2 foldRuns_leadsToScalars
    (List.all_eq_true.mp hclear range hrange) hin

theorem contains_regexMarks_fold (c : Char) :
    regexMarks.contains (fold c) = regexMarks.contains c := by
  by_cases h : c ∈ regexMarks ∨ fold c ∈ regexMarks
  · rw [fold_eq_self_of_mark h]
  · obtain ⟨hc, hfold⟩ := not_or.mp h
    rw [List.contains_eq_mem, List.contains_eq_mem, decide_eq_false hc, decide_eq_false hfold]

theorem length_escaped_cons (c : Char) (t : Text) :
    (escaped (c :: t)).length =
      (if regexMarks.contains c then 2 else 1) + (escaped t).length := by
  simp only [escaped, List.flatMap_cons, List.length_append]
  split <;> rfl

theorem length_escaped_map_fold (t : Text) :
    (escaped (t.map fold)).length = (escaped t).length := by
  induction t with
  | nil => rfl
  | cons c rest ih =>
    rw [List.map_cons, length_escaped_cons, length_escaped_cons, contains_regexMarks_fold, ih]

theorem length_le_length_escaped (t : Text) : t.length ≤ (escaped t).length := by
  induction t with
  | nil => exact Nat.le_refl _
  | cons c rest ih =>
    rw [length_escaped_cons, List.length_cons]
    split <;> omega

/-- Of two keywords that lead one text, the one with the longer escaped form is the longer one. -/
theorem length_le_of_escaped {text first second : Text} {found other : Found}
    (hfirst : leadingKeyword? text first = some found)
    (hsecond : leadingKeyword? text second = some other)
    (h : (escaped second).length ≤ (escaped first).length) : second.length ≤ first.length := by
  by_contra hlt
  -- the second one goes on where the first one ends
  obtain ⟨behind, hbehind⟩ : first.map fold <+: second.map fold :=
    List.prefix_of_prefix_length_le (prefix_of_leadingKeyword? hfirst)
      (prefix_of_leadingKeyword? hsecond) (by simp only [List.length_map]; omega)
  have hlength : first.length + behind.length = second.length := by
    simpa only [List.length_append, List.length_map] using congrArg List.length hbehind
  have hescaped : (escaped first).length + (escaped behind).length = (escaped second).length := by
    rw [← length_escaped_map_fold first, ← length_escaped_map_fold second, ← hbehind, escaped,
      escaped, escaped, List.flatMap_append, List.length_append]
  have hmore : behind.length ≤ (escaped behind).length := length_le_length_escaped behind
  omega

/-! ## The ways of keywords and blanks -/

namespace Regex

/-- A keyword matches in one way, or not at all. -/
theorem ways_literal (keyword t : Text) :
    (literal keyword).ways t =
      if sameFolded keyword (t.take keyword.length) then
        [{ piece := t.take keyword.length, rest := t.drop keyword.length }]
      else [] := by
  induction keyword generalizing t with
  | nil => simp [literal, ways, sameFolded]
  | cons letter others ih =>
    have hstep : literal (letter :: others) =
        sequence (one fun c => fold letter == fold c) (literal others) := rfl
    rw [hstep, ways]
    cases t with
    | nil => rfl
    | cons c behind =>
      rw [ways, List.length_cons, List.take_succ_cons, List.drop_succ_cons]
      by_cases hletter : (fold letter == fold c) = true
      · have hothers : sameFolded (letter :: others) (c :: behind.take others.length) =
            sameFolded others (behind.take others.length) := by
          show (fold letter == fold c && _) = _
          rw [hletter, Bool.true_and]
          rfl
        rw [if_pos hletter, hothers, List.flatMap_singleton, ih]
        split <;> rfl
      · have hdiffers : ¬ sameFolded (letter :: others) (c :: behind.take others.length) = true :=
          fun hsame => hletter (Bool.and_eq_true_iff.mp hsame).1
        rw [if_neg hletter, if_neg hdiffers, List.flatMap_nil]

theorem ways_alternatives (keywords : List Text) (t : Text) :
    (alternatives keywords).ways t = keywords.flatMap fun keyword => (literal keyword).ways t := by
  induction keywords with
  | nil => rfl
  | cons keyword others ih =>
    have hstep : alternatives (keyword :: others) =
        choice (literal keyword) (alternatives others) := rfl
    rw [hstep, ways, ih, List.flatMap_cons]

/-- Where something else has to stand behind a row of characters, no character of the row can be
given back. -/
theorem flatMap_rowWays {α : Type} {accepts : Char → Bool} (next : Way → List α)
    (hnext : ∀ way, (∀ c ∈ way.rest.head?, accepts c = true) → next way = []) (t : Text) :
    (rowWays accepts t).flatMap next =
      next { piece := t.takeWhile accepts, rest := t.dropWhile accepts } := by
  induction t generalizing next with
  | nil => simp [rowWays]
  | cons c behind ih =>
    rw [rowWays]
    by_cases hc : accepts c = true
    · have hlonger := ih (fun way => next { way with piece := c :: way.piece })
        fun way hway => hnext _ hway
      have hgiven : next { piece := [], rest := c :: behind } = [] :=
        hnext _ (by simpa using hc)
      rw [if_pos hc, List.flatMap_append, List.flatMap_map, hlonger, List.flatMap_singleton, hgiven,
        List.append_nil, List.takeWhile_cons_of_pos hc, List.dropWhile_cons_of_pos hc]
    · rw [if_neg hc, List.nil_append, List.flatMap_singleton, List.takeWhile_cons_of_neg hc,
        List.dropWhile_cons_of_neg hc]

/-- Blanks match in one way if something stands behind them, and not at all otherwise. -/
theorem ways_gapped (t : Text) :
    gapped.ways t = match t.dropWhile isBlank with
      | [] => []
      | c :: behind =>
        [{ groups := [t.takeWhile isBlank]
           piece := t.takeWhile isBlank ++ [c]
           rest := behind }] := by
  rw [gapped, ways, ways, List.flatMap_map, ways, flatMap_rowWays]
  · cases hrest : t.dropWhile isBlank with
    | nil => rfl
    | cons c behind =>
      have hc : isBlank c = false :=
        not_isBlank_of_mem_head?_dropWhile (t := t) (by rw [hrest]; rfl)
      simp [ways, hc]
  · intro way hway
    cases hrest : way.rest with
    | nil => rfl
    | cons c behind =>
      have hc : isBlank c = true := hway c (by rw [hrest]; rfl)
      simp [ways, hc]

end Regex

/-! ## Patterns and their expressions -/

namespace Pattern

/-- The expression of some keywords of a kind. -/
def expression (kind : PatternKind) (keywords : List Text) : Regex :=
  let keyword := Regex.group (.alternatives (longestEscapedFirst keywords))
  match kind with
  | .portion => .sequence keyword .gapped
  | .single => .sequence keyword .finish
  | .none => keyword

/-- What the expression of some keywords finds in a text.  A portion takes the keyword and the
blanks behind it, a single all of the text, and a none nothing. -/
def search? (kind : PatternKind) (keywords : List Text) (text : Text) : Option Found :=
  match kind, ((expression kind keywords).ways text).head?.map Way.groups with
  | .portion, some [keyword, gap] => some ⟨keyword, gap, text.drop (keyword ++ gap).length⟩
  | .single, some [keyword] => some ⟨keyword, text.drop keyword.length, []⟩
  | .none, _ => if (expression kind keywords).matchesIn text then none else some ⟨[], [], text⟩
  | _, _ => none

/-- The first keyword that leads a text is the one that its pattern finds, if among those that lead
it the longer ones come first. -/
theorem findSome?_leadingKeyword? {keywords ordered : List Text} {text : Text}
    (hmem : ∀ w, w ∈ ordered ↔ w ∈ keywords ∧ w ≠ [])
    (hsorted : ordered.Pairwise fun first second => ∀ found other,
      leadingKeyword? text first = some found → leadingKeyword? text second = some other →
        second.length ≤ first.length) :
    ordered.findSome? (leadingKeyword? text) = (ofKeywords .portion keywords).find? text := by
  cases hfound : ordered.findSome? (leadingKeyword? text) with
  | none =>
    rw [eq_comm, find?_portion_eq_none_iff]
    intro w hw hne
    exact List.findSome?_eq_none_iff.mp hfound w ((hmem w).mpr ⟨hw, hne⟩)
  | some found =>
    obtain ⟨keyword, hkeyword, hlead, hlongest⟩ := exists_longest_of_findSome? hsorted hfound
    obtain ⟨hkeyword, hne⟩ := (hmem keyword).mp hkeyword
    rw [eq_comm, find?_portion_eq_some_iff]
    refine ⟨keyword, hkeyword, hne, hlead, fun w hw hlt => hlongest w ?_ hlt⟩
    refine (hmem w).mpr ⟨hw, ?_⟩
    rintro rfl
    exact absurd hlt (Nat.not_lt_zero _)

theorem ways_sequence_group (keywords : List Text) (next : Regex) (text : Text) :
    (Regex.sequence (.group (.alternatives keywords)) next).ways text =
      keywords.flatMap fun keyword =>
        if sameFolded keyword (text.take keyword.length) then
          (next.ways (text.drop keyword.length)).map fun way =>
            { groups := text.take keyword.length :: way.groups,
              piece := text.take keyword.length ++ way.piece, rest := way.rest }
        else [] := by
  rw [Regex.ways, Regex.ways, Regex.ways_alternatives, List.map_flatMap, List.flatMap_assoc]
  refine List.flatMap_congr fun keyword _ => ?_
  rw [Regex.ways_literal]
  split
  · simp
  · simp

/-- A keyword with blanks and something else behind it is found as the one that leads the text. -/
theorem head?_ways_keyword (keyword text : Text) :
    (if sameFolded keyword (text.take keyword.length) then
      (Regex.gapped.ways (text.drop keyword.length)).map fun way =>
        { groups := text.take keyword.length :: way.groups,
          piece := text.take keyword.length ++ way.piece, rest := way.rest }
    else [] : List Way).head?.map Way.groups =
      (leadingKeyword? text keyword).map fun found => [found.keyword, found.gap] := by
  dsimp only [leadingKeyword?]
  rw [Regex.ways_gapped]
  cases hrest : (text.drop keyword.length).dropWhile isBlank with
  | nil =>
    have hblank : isBlankText (text.drop keyword.length) = true :=
      List.all_eq_true.mpr (List.dropWhile_eq_nil_iff.mp hrest)
    simp [hblank]
  | cons c behind =>
    have hblank : isBlankText (text.drop keyword.length) = false := by
      rw [Bool.eq_false_iff]
      intro hall
      rw [List.dropWhile_eq_nil_iff.mpr (List.all_eq_true.mp hall)] at hrest
      cases hrest
    rw [hblank, Bool.not_false, Bool.and_true]
    split <;> rfl

theorem head?_ways_portion (keywords : List Text) (text : Text) :
    ((expression .portion keywords).ways text).head?.map Way.groups =
      ((ofKeywords .portion keywords).find? text).map fun found => [found.keyword, found.gap] := by
  have hsorted : (longestEscapedFirst keywords).Pairwise fun first second => ∀ found other,
      leadingKeyword? text first = some found → leadingKeyword? text second = some other →
        second.length ≤ first.length :=
    (pairwise_longestEscapedFirst keywords).imp fun hle found other hfirst hsecond =>
      length_le_of_escaped hfirst hsecond hle
  rw [← findSome?_leadingKeyword? (fun _ => mem_longestEscapedFirst) hsorted, expression,
    ways_sequence_group, List.head?_flatMap, List.map_findSome?, List.map_findSome?]
  refine congrArg (fun f => List.findSome? f _) (funext fun keyword => ?_)
  exact head?_ways_keyword keyword text

/-- A keyword with the end of the text behind it is found as the whole text. -/
theorem head?_ways_whole (keyword text : Text) :
    (if sameFolded keyword (text.take keyword.length) then
      (Regex.finish.ways (text.drop keyword.length)).map fun way =>
        { groups := text.take keyword.length :: way.groups,
          piece := text.take keyword.length ++ way.piece, rest := way.rest }
    else [] : List Way).head?.map Way.groups =
      if sameFolded keyword text then some [text] else none := by
  cases hbehind : text.drop keyword.length with
  | nil =>
    rw [List.take_of_length_le (List.drop_eq_nil_iff.mp hbehind)]
    split <;> rfl
  | cons c behind =>
    have hdiffers : ¬ sameFolded keyword text = true := by
      intro hsame
      rw [length_eq_of_sameFolded hsame, List.drop_length] at hbehind
      cases hbehind
    rw [if_neg hdiffers]
    split <;> rfl

theorem head?_ways_single (keywords : List Text) (text : Text) :
    ((expression .single keywords).ways text).head?.map Way.groups =
      ((ofKeywords .single keywords).find? text).map fun found => [found.keyword] := by
  rw [expression, ways_sequence_group, List.head?_flatMap, List.map_findSome?]
  cases hfound : (ofKeywords .single keywords).find? text with
  | none =>
    refine List.findSome?_eq_none_iff.mpr fun keyword hkeyword => ?_
    obtain ⟨hmem, hne⟩ := mem_longestEscapedFirst.mp hkeyword
    refine (head?_ways_whole keyword text).trans (if_neg fun hsame => ?_)
    rw [find?_single_eq_some_iff.mpr ⟨rfl, keyword, hmem, hne, hsame⟩] at hfound
    cases hfound
  | some found =>
    obtain ⟨rfl, keyword, hmem, hne, hsame⟩ := find?_single_eq_some_iff.mp hfound
    -- whichever of the keywords comes first, the piece is the text
    cases hfirst : (longestEscapedFirst keywords).findSome? _ with
    | none =>
      have hnone := List.findSome?_eq_none_iff.mp hfirst keyword
        (mem_longestEscapedFirst.mpr ⟨hmem, hne⟩)
      rw [Function.comp_apply, head?_ways_whole, if_pos hsame] at hnone
      cases hnone
    | some groups =>
      obtain ⟨first, -, hgroups⟩ := List.exists_of_findSome?_eq_some hfirst
      rw [Function.comp_apply, head?_ways_whole] at hgroups
      split at hgroups
      · exact hgroups.symm
      · cases hgroups

theorem ways_group_eq_nil_iff {keywords : List Text} {text : Text} :
    (Regex.group (.alternatives keywords)).ways text = [] ↔
      ∀ keyword ∈ keywords, ¬ keyword.map fold <+: text.map fold := by
  rw [Regex.ways, List.map_eq_nil_iff, Regex.ways_alternatives, List.flatMap_eq_nil_iff]
  refine forall₂_congr fun keyword _ => ?_
  rw [Regex.ways_literal, List.prefix_iff_eq_take, List.length_map, ← List.map_take,
    ← sameFolded_iff]
  split
  · next hsame => simp [hsame]
  · next hdiffers => simp [hdiffers]

theorem occurs_iff_leads_behind {keyword text : Text} :
    keyword.map fold <:+: text.map fold ↔
      ∃ behind, behind <:+ text ∧ keyword.map fold <+: behind.map fold := by
  rw [List.infix_iff_prefix_suffix]
  constructor
  · rintro ⟨_, hleads, hsuffix⟩
    obtain ⟨behind, hbehind, rfl⟩ := List.suffix_map_iff.mp hsuffix
    exact ⟨behind, hbehind, hleads⟩
  · rintro ⟨behind, hbehind, hleads⟩
    exact ⟨behind.map fold, hleads, hbehind.map fold⟩

theorem matchesIn_none_iff {keywords : List Text} {text : Text} :
    (expression .none keywords).matchesIn text = true ↔
      ∃ w ∈ keywords, w ≠ [] ∧ w.map fold <:+: text.map fold := by
  simp only [Regex.matchesIn, List.any_eq_true, Bool.not_eq_true', List.isEmpty_eq_false_iff,
    List.mem_tails, expression, ne_eq, ways_group_eq_nil_iff, not_forall, not_not,
    mem_longestEscapedFirst, occurs_iff_leads_behind]
  constructor
  · rintro ⟨behind, hbehind, w, ⟨hw, hne⟩, hleads⟩
    exact ⟨w, hw, hne, behind, hbehind, hleads⟩
  · rintro ⟨w, hw, hne, behind, hbehind, hleads⟩
    exact ⟨behind, hbehind, w, ⟨hw, hne⟩, hleads⟩

theorem matchesIn_none (keywords : List Text) (text : Text) :
    (expression .none keywords).matchesIn text = !(ofKeywords .none keywords).accepts text := by
  have hfree : (ofKeywords .none keywords).accepts text = true ↔
      ¬ (expression .none keywords).matchesIn text = true := by
    rw [accepts_none_iff, matchesIn_none_iff]
    simp only [not_exists, not_and]
  rw [Bool.eq_iff_iff, Bool.not_eq_true', ← Bool.not_eq_true, hfree, not_not]

/-- Whether the expression of some keywords is found where its kind looks for it: at the beginning
of a text or, of a none, nowhere. -/
def isMatch (kind : PatternKind) (keywords : List Text) (text : Text) : Bool :=
  match kind with
  | .none => !(expression .none keywords).matchesIn text
  | kind => !((expression kind keywords).ways text).isEmpty

theorem accepts_eq_isMatch (kind : PatternKind) (keywords : List Text) (text : Text) :
    (ofKeywords kind keywords).accepts text = isMatch kind keywords text := by
  have hanchored : ∀ ways : List Way, (!ways.isEmpty) = (ways.head?.map Way.groups).isSome := by
    intro ways
    cases ways <;> rfl
  unfold isMatch
  cases kind with
  | portion =>
    show _ = !((expression .portion keywords).ways text).isEmpty
    rw [hanchored, head?_ways_portion, Option.isSome_map, accepts]
  | single =>
    show _ = !((expression .single keywords).ways text).isEmpty
    rw [hanchored, head?_ways_single, Option.isSome_map, accepts]
  | none =>
    show _ = !(expression .none keywords).matchesIn text
    rw [matchesIn_none, Bool.not_not]

/-- **A pattern finds what its expression finds.** -/
theorem find?_eq_search? (kind : PatternKind) (keywords : List Text) (text : Text) :
    (ofKeywords kind keywords).find? text = search? kind keywords text := by
  unfold search?
  cases kind with
  | portion =>
    rw [head?_ways_portion]
    cases hfound : (ofKeywords .portion keywords).find? text with
    | none => rfl
    | some found =>
      obtain ⟨w, -, -, hlead⟩ := exists_of_find?_portion hfound
      obtain ⟨hsplit, -⟩ := leadingKeyword?_eq_some_iff.mp hlead
      have hrest : text.drop (found.keyword ++ found.gap).length = found.rest := by
        rw [hsplit, List.drop_left]
      show _ = some (⟨found.keyword, found.gap, _⟩ : Found)
      rw [hrest]
  | single =>
    rw [head?_ways_single]
    cases hfound : (ofKeywords .single keywords).find? text with
    | none => rfl
    | some found =>
      obtain ⟨rfl, -⟩ := find?_single_eq_some_iff.mp hfound
      show _ = some (⟨text, text.drop text.length, []⟩ : Found)
      rw [List.drop_length]
  | none =>
    show _ = if (expression .none keywords).matchesIn text then none
      else some (⟨[], [], text⟩ : Found)
    rw [matchesIn_none, accepts]
    cases hfound : (ofKeywords .none keywords).find? text with
    | none => rfl
    | some found =>
      rw [eq_of_find?_none hfound]
      rfl

end Pattern

end LineageSearch
