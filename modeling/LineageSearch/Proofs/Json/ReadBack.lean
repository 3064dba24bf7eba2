import LineageSearch.Json.Reader
import LineageSearch.Proofs.Json.Scanning

/-!
# Written documents are read back

Whatever layout a document is written in, reading it gives the document itself, as long as the
layout adds nothing but blanks (`ofText?_write`).  Strings that denote no text cannot be written,
and the tool writes no numbers but natural ones, so that is all a document is to hold (`IsPlain`).

## Strategy

A document is read in two passes, and each of them is followed over the documents that stand inside
another one.  So both statements are about a document in any surroundings.

* The scanner cuts a document into its tokens at any depth, behind any tokens and in front of any
  text that begins with no letter or digit (`ScansAsTokens`).  Commas, brackets and blanks are such
  texts, so the items of an array may stand in front of each other.
* The tokens are put together to the document inside any open arrays and objects, wherever a value
  is awaited (`ReadsBack`).

Both go by induction on the document: parts before wholes, and in a whole the first item or field
apart from those that have a comma in front of them.
-/

namespace LineageSearch

/-! ## Documents -/

namespace Json

/-- Whether all numbers of a document are natural, and all its strings and names denote texts. -/
inductive IsPlain : Json → Prop
  | null : IsPlain null
  | bool (value : Bool) : IsPlain (bool value)
  | natural (n : Nat) : IsPlain (ofNat n)
  | text (text : Text) : IsPlain (ofText text)
  | array {items : List Json} (hitems : ∀ item ∈ items, IsPlain item) : IsPlain (array items)
  | object {fields : List (Option Text × Json)} (hnames : ∀ field ∈ fields, field.1.isSome)
      (hvalues : ∀ field ∈ fields, IsPlain field.2) : IsPlain (object fields)

open JsonToken

mutual

/-- The tokens of a document. -/
def tokens : Json → List JsonToken
  | array [] => [openArray, closeArray]
  | array (item :: items) => openArray :: tokens item ++ itemTokens items ++ [closeArray]
  | object [] => [openObject, closeObject]
  | object ((name, value) :: fields) =>
    openObject :: scalar (string name) :: colon :: tokens value ++ fieldTokens fields
      ++ [closeObject]
  | value => [scalar value]

/-- The tokens of items behind the first one. -/
def itemTokens : List Json → List JsonToken
  | [] => []
  | item :: items => comma :: tokens item ++ itemTokens items

/-- The tokens of fields behind the first one. -/
def fieldTokens : List (Option Text × Json) → List JsonToken
  | [] => []
  | (name, value) :: fields =>
    comma :: scalar (string name) :: colon :: tokens value ++ fieldTokens fields

end

/-- Whether a layout adds nothing but blanks, and a colon behind names. -/
structure Layout.OnlySpaces (layout : Layout) : Prop where
  newline : ∀ depth, ∀ c ∈ layout.newline depth, IsSpace c
  afterName : ∃ blanks, layout.afterName = ':' :: blanks ∧ ∀ c ∈ blanks, IsSpace c

theorem Layout.onlySpaces_spread : Layout.spread.OnlySpaces where
  newline depth c hc := by
    rcases List.mem_cons.mp hc with rfl | hc
    · exact Or.inr (Or.inr (Or.inl rfl))
    · exact Or.inl (List.eq_of_mem_replicate hc)
  afterName := ⟨[' '], rfl, fun _ hc => Or.inl (List.mem_singleton.mp hc)⟩

variable {layout : Layout}

/-- Whether a document is cut into its tokens wherever it is written. -/
def ScansAsTokens (layout : Layout) (document : Json) : Prop :=
  ∀ depth read rest, EndsWord rest →
    scanFrom? (.between, read) (document.write layout depth ++ rest) =
      scanFrom? (.between, document.tokens.reverse ++ read) rest

theorem endsWord_writeItems_append (layout : Layout) (depth : Nat) (items : List Json)
    {rest : Text} (hrest : EndsWord rest) : EndsWord (writeItems layout depth items ++ rest) := by
  cases items with
  | nil => exact hrest
  | cons item items =>
    rw [writeItems]
    exact endsWord_cons (by decide)

theorem endsWord_writeFields_append (layout : Layout) (depth : Nat)
    (fields : List (Option Text × Json)) {rest : Text} (hrest : EndsWord rest) :
    EndsWord (writeFields layout depth fields ++ rest) := by
  rcases fields with _ | ⟨⟨name, value⟩, fields⟩
  · exact hrest
  · rw [writeFields]
    exact endsWord_cons (by decide)

section Parts

variable (hlayout : layout.OnlySpaces) (depth : Nat) (read : List JsonToken) {rest : Text}

include hlayout

theorem scanFrom?_newline :
    scanFrom? (.between, read) (layout.newline depth ++ rest) = scanFrom? (.between, read) rest :=
  scanFrom?_spaces (hlayout.newline depth)

/-- A name is read with the colon behind it. -/
theorem scanFrom?_name (name : Text) :
    scanFrom? (.between, read) (quote name ++ (layout.afterName ++ rest)) =
      scanFrom? (.between, colon :: scalar (.ofText name) :: read) rest := by
  obtain ⟨blanks, hname, hblanks⟩ := hlayout.afterName
  rw [scanFrom?_quote, hname, List.cons_append, scanFrom?_mark rfl, scanFrom?_spaces hblanks]

theorem endsWord_newline_append (hrest : EndsWord rest) :
    EndsWord (layout.newline depth ++ rest) :=
  endsWord_spaces_append (hlayout.newline depth) hrest

theorem scanFrom?_writeItems {items : List Json}
    (hitems : ∀ item ∈ items, ScansAsTokens layout item) (hrest : EndsWord rest) :
    scanFrom? (.between, read) (writeItems layout depth items ++ rest) =
      scanFrom? (.between, (itemTokens items).reverse ++ read) rest := by
  induction items generalizing read with
  | nil => rfl
  | cons item items ih =>
    obtain ⟨hitem, hitems⟩ := List.forall_mem_cons.mp hitems
    have hbehind := endsWord_writeItems_append layout depth items hrest
    rw [writeItems, itemTokens]
    simp only [List.append_assoc, List.cons_append, List.reverse_cons, List.reverse_append,
      List.nil_append]
    rw [scanFrom?_mark rfl, scanFrom?_newline hlayout, hitem _ _ _ hbehind, ih _ hitems]

theorem scanFrom?_writeFields {fields : List (Option Text × Json)}
    (hnames : ∀ field ∈ fields, field.1.isSome)
    (hvalues : ∀ field ∈ fields, ScansAsTokens layout field.2) (hrest : EndsWord rest) :
    scanFrom? (.between, read) (writeFields layout depth fields ++ rest) =
      scanFrom? (.between, (fieldTokens fields).reverse ++ read) rest := by
  induction fields generalizing read with
  | nil => rfl
  | cons field fields ih =>
    obtain ⟨name, value⟩ := field
    obtain ⟨hname, hnamesBehind⟩ := List.forall_mem_cons.mp hnames
    obtain ⟨hvalue, hvaluesBehind⟩ := List.forall_mem_cons.mp hvalues
    obtain ⟨name, rfl⟩ := Option.isSome_iff_exists.mp hname
    have hbehind := endsWord_writeFields_append layout depth fields hrest
    rw [writeFields, fieldTokens]
    simp only [List.append_assoc, List.cons_append, List.reverse_cons, List.reverse_append,
      List.nil_append, Option.getD_some]
    rw [scanFrom?_mark rfl, scanFrom?_newline hlayout, scanFrom?_name hlayout,
      hvalue _ _ _ hbehind, ih _ hnamesBehind hvaluesBehind]
    rfl

end Parts

theorem scansAsTokens_word {document : Json} {word : Text}
    (hwrite : ∀ depth, document.write layout depth = word)
    (htokens : document.tokens = [scalar document]) (hne : word ≠ [])
    (hword : word.all isWordChar = true) (htoken : ofWord? word = some (scalar document)) :
    ScansAsTokens layout document := by
  intro depth read rest hrest
  rw [hwrite, htokens]
  exact scanFrom?_word hne (List.all_eq_true.mp hword) htoken hrest

theorem scansAsTokens_ofNat (n : Nat) : ScansAsTokens layout (ofNat n) := by
  intro depth read rest hrest
  have hwrite : (ofNat n).write layout depth = Text.ofNat n := by
    simp [ofNat, write, JsonNumber.toText, JsonNumber.ofNat]
  rw [hwrite]
  exact scanFrom?_ofNat n hrest

theorem scansAsTokens_array (hlayout : layout.OnlySpaces) {items : List Json}
    (hitems : ∀ item ∈ items, ScansAsTokens layout item) : ScansAsTokens layout (array items) := by
  intro depth read rest _
  cases items with
  | nil =>
    rw [write]
    show scanFrom? (.between, read) ('[' :: ']' :: rest) = _
    rw [scanFrom?_mark rfl, scanFrom?_mark rfl]
    rfl
  | cons item items =>
    have hend : EndsWord (layout.newline depth ++ (']' :: rest)) :=
      endsWord_newline_append hlayout depth (endsWord_cons (by decide))
    obtain ⟨hitem, hitems⟩ := List.forall_mem_cons.mp hitems
    rw [write, tokens]
    simp only [List.append_assoc, List.cons_append, List.reverse_cons, List.reverse_append,
      List.nil_append]
    rw [scanFrom?_mark rfl, scanFrom?_newline hlayout,
      hitem _ _ _ (endsWord_writeItems_append layout _ items hend),
      scanFrom?_writeItems hlayout _ _ hitems hend, scanFrom?_newline hlayout, scanFrom?_mark rfl]
    rfl

theorem scansAsTokens_object (hlayout : layout.OnlySpaces) {fields : List (Option Text × Json)}
    (hnames : ∀ field ∈ fields, field.1.isSome)
    (hvalues : ∀ field ∈ fields, ScansAsTokens layout field.2) :
    ScansAsTokens layout (object fields) := by
  intro depth read rest _
  rcases fields with _ | ⟨⟨name, value⟩, fields⟩
  · rw [write]
    show scanFrom? (.between, read) ('\x7b' :: '\x7d' :: rest) = _
    rw [scanFrom?_mark rfl, scanFrom?_mark rfl]
    rfl
  · obtain ⟨hname, hnamesBehind⟩ := List.forall_mem_cons.mp hnames
    obtain ⟨hvalue, hvaluesBehind⟩ := List.forall_mem_cons.mp hvalues
    obtain ⟨name, rfl⟩ := Option.isSome_iff_exists.mp hname
    have hend : EndsWord (layout.newline depth ++ ('\x7d' :: rest)) :=
      endsWord_newline_append hlayout depth (endsWord_cons (by decide))
    rw [write, tokens]
    simp only [List.append_assoc, List.cons_append, List.reverse_cons, List.reverse_append,
      List.nil_append, Option.getD_some]
    rw [scanFrom?_mark rfl, scanFrom?_newline hlayout, scanFrom?_name hlayout,
      hvalue _ _ _ (endsWord_writeFields_append layout _ fields hend),
      scanFrom?_writeFields hlayout _ _ hnamesBehind hvaluesBehind hend,
      scanFrom?_newline hlayout, scanFrom?_mark rfl]
    rfl

/-- **A written document is cut into its tokens**, at any depth and in front of any text that begins
with no letter or digit. -/
theorem scansAsTokens_of_isPlain (hlayout : layout.OnlySpaces) {document : Json}
    (h : document.IsPlain) : ScansAsTokens layout document := by
  induction h with
  | null => exact scansAsTokens_word (fun _ => rfl) rfl nofun (by decide) rfl
  | bool value =>
    cases value with
    | false => exact scansAsTokens_word (fun _ => rfl) rfl nofun (by decide) rfl
    | true => exact scansAsTokens_word (fun _ => rfl) rfl nofun (by decide) rfl
  | natural n => exact scansAsTokens_ofNat n
  | text text => exact fun depth read rest _ => scanFrom?_quote text
  | array hitems ih => exact scansAsTokens_array hlayout ih
  | object hnames hvalues ih => exact scansAsTokens_object hlayout hnames ih

end Json

/-! ## Tokens are put together -/

/-- Whether a value may come next. -/
def JsonPlace.AwaitsValue (place : JsonPlace) : Prop := place = .value ∨ place = .firstItem

/-- Whether a name may come next. -/
def JsonPlace.AwaitsName (place : JsonPlace) : Prop := place = .firstName ∨ place = .nextName

namespace JsonDraft

variable {place : JsonPlace} {frames : List JsonFrame} {rest : List JsonToken}

theorem foldlM_step_cons {draft next : JsonDraft} {token : JsonToken}
    (h : step draft token = some next) :
    (token :: rest).foldlM step draft = rest.foldlM step next := by
  rw [List.foldlM_cons, h]
  rfl

theorem step_eq_begin {token : JsonToken} (hplace : place.AwaitsValue)
    (htoken : token ≠ .closeArray) : step ⟨frames, place⟩ token = begin frames token := by
  rcases hplace with rfl | rfl
  · rfl
  · cases token with
    | closeArray => exact absurd rfl htoken
    | _ => rcases frames with _ | ⟨_ | _, outer⟩ <;> rfl

/-- Behind a comma another item is awaited. -/
theorem foldlM_step_comma_item (read : List Json) :
    (.comma :: rest).foldlM step ⟨.array read :: frames, .afterValue⟩ =
      rest.foldlM step ⟨.array read :: frames, .value⟩ :=
  foldlM_step_cons rfl

/-- Behind a comma another name is awaited. -/
theorem foldlM_step_comma_field (read : List (Option Text × Json)) (last : Option Text) :
    (.comma :: rest).foldlM step ⟨.object read last :: frames, .afterValue⟩ =
      rest.foldlM step ⟨.object read last :: frames, .nextName⟩ :=
  foldlM_step_cons rfl

/-- Behind a name and its colon the value is awaited. -/
theorem foldlM_step_name (hplace : place.AwaitsName) (read : List (Option Text × Json))
    (last name : Option Text) :
    (.scalar (.string name) :: .colon :: rest).foldlM step ⟨.object read last :: frames, place⟩ =
      rest.foldlM step ⟨.object read name :: frames, .value⟩ := by
  have hname : step ⟨.object read last :: frames, place⟩ (.scalar (.string name)) =
      some ⟨.object read name :: frames, .colon⟩ := by
    rcases hplace with rfl | rfl <;> rfl
  rw [foldlM_step_cons hname]
  exact foldlM_step_cons rfl

end JsonDraft

namespace Json

open JsonToken JsonDraft

/-- Whether the tokens of a document are put together to it wherever a value is awaited. -/
def ReadsBack (document : Json) : Prop :=
  ∀ frames place rest, place.AwaitsValue →
    (document.tokens ++ rest).foldlM step ⟨frames, place⟩ = rest.foldlM step (close frames document)

theorem readsBack_scalar {document : Json} (htokens : document.tokens = [scalar document]) :
    ReadsBack document := by
  intro frames place rest hplace
  rw [htokens, List.singleton_append]
  exact foldlM_step_cons (step_eq_begin hplace nofun)

/-- Items behind others are read up to the end of their array. -/
theorem foldlM_step_itemTokens {items : List Json} (hitems : ∀ item ∈ items, ReadsBack item)
    (read : List Json) (frames : List JsonFrame) (rest : List JsonToken) :
    (itemTokens items ++ closeArray :: rest).foldlM step ⟨.array read :: frames, .afterValue⟩ =
      rest.foldlM step (close frames (array (read.reverse ++ items))) := by
  induction items generalizing read with
  | nil =>
    rw [List.append_nil]
    exact foldlM_step_cons rfl
  | cons item items ih =>
    obtain ⟨hitem, hitems⟩ := List.forall_mem_cons.mp hitems
    rw [itemTokens, List.append_assoc, List.cons_append, foldlM_step_comma_item,
      hitem _ _ _ (Or.inl rfl), close, ih hitems, List.reverse_cons, List.append_assoc,
      List.singleton_append]

/-- Fields behind others are read up to the end of their object. -/
theorem foldlM_step_fieldTokens {fields : List (Option Text × Json)}
    (hvalues : ∀ field ∈ fields, ReadsBack field.2) (read : List (Option Text × Json))
    (last : Option Text) (frames : List JsonFrame) (rest : List JsonToken) :
    (fieldTokens fields ++ closeObject :: rest).foldlM step
        ⟨.object read last :: frames, .afterValue⟩ =
      rest.foldlM step (close frames (object (read.reverse ++ fields))) := by
  induction fields generalizing read last with
  | nil =>
    rw [List.append_nil]
    exact foldlM_step_cons rfl
  | cons field fields ih =>
    obtain ⟨name, value⟩ := field
    obtain ⟨hvalue, hvalues⟩ := List.forall_mem_cons.mp hvalues
    rw [fieldTokens]
    simp only [List.append_assoc, List.cons_append]
    rw [foldlM_step_comma_field, foldlM_step_name (Or.inr rfl), hvalue _ _ _ (Or.inl rfl), close,
      ih hvalues, List.reverse_cons, List.append_assoc, List.singleton_append]

theorem readsBack_array {items : List Json} (hitems : ∀ item ∈ items, ReadsBack item) :
    ReadsBack (array items) := by
  intro frames place rest hplace
  have hopen : step ⟨frames, place⟩ .openArray = some ⟨.array [] :: frames, .firstItem⟩ :=
    step_eq_begin hplace nofun
  cases items with
  | nil =>
    rw [tokens, List.cons_append, foldlM_step_cons hopen]
    exact foldlM_step_cons rfl
  | cons item items =>
    obtain ⟨hitem, hitems⟩ := List.forall_mem_cons.mp hitems
    rw [tokens]
    simp only [List.append_assoc, List.cons_append, List.nil_append]
    rw [foldlM_step_cons hopen, hitem _ _ _ (Or.inr rfl), close, foldlM_step_itemTokens hitems]
    rfl

theorem readsBack_object {fields : List (Option Text × Json)}
    (hvalues : ∀ field ∈ fields, ReadsBack field.2) : ReadsBack (object fields) := by
  intro frames place rest hplace
  have hopen : step ⟨frames, place⟩ .openObject = some ⟨.object [] none :: frames, .firstName⟩ :=
    step_eq_begin hplace nofun
  rcases fields with _ | ⟨⟨name, value⟩, fields⟩
  · rw [tokens, List.cons_append, foldlM_step_cons hopen]
    exact foldlM_step_cons rfl
  · obtain ⟨hvalue, hvalues⟩ := List.forall_mem_cons.mp hvalues
    rw [tokens]
    simp only [List.append_assoc, List.cons_append, List.nil_append]
    rw [foldlM_step_cons hopen, foldlM_step_name (Or.inl rfl), hvalue _ _ _ (Or.inl rfl), close,
      foldlM_step_fieldTokens hvalues]
    rfl

theorem readsBack_of_isPlain {document : Json} (h : document.IsPlain) : ReadsBack document := by
  induction h with
  | null => exact readsBack_scalar rfl
  | bool value => exact readsBack_scalar rfl
  | natural n => exact readsBack_scalar rfl
  | text text => exact readsBack_scalar rfl
  | array hitems ih => exact readsBack_array ih
  | object hnames hvalues ih => exact readsBack_object ih

/-- **A written document is read back**, also with blanks behind it. -/
theorem ofText?_write {layout : Layout} (hlayout : layout.OnlySpaces) {document : Json}
    (h : document.IsPlain) {blanks : Text} (hblanks : ∀ c ∈ blanks, IsSpace c) :
    ofText? (document.write layout 0 ++ blanks) = some document := by
  have hend : EndsWord (blanks ++ []) := endsWord_spaces_append hblanks endsWord_nil
  have hscan : scan? (document.write layout 0 ++ blanks) = some document.tokens := by
    have hdocument := scansAsTokens_of_isPlain hlayout h 0 [] _ hend
    rw [scan?_eq_scanFrom?, ← List.append_nil blanks, hdocument, scanFrom?_spaces hblanks,
      List.append_nil]
    exact congrArg some (List.reverse_reverse _)
  have hread : document.tokens.foldlM step {} = some (close [] document) := by
    have hvalue := readsBack_of_isPlain h [] .value [] (Or.inl rfl)
    rw [List.append_nil] at hvalue
    exact hvalue
  rw [ofText?, hscan, Option.bind_some, hread]
  rfl

/-- What the tool prints of a document is read back. -/
theorem ofText?_pretty_line {document : Json} (h : document.IsPlain) :
    ofText? (document.pretty ++ ['\n']) = some document := by
  refine ofText?_write Layout.onlySpaces_spread h fun c hc => ?_
  exact Or.inr (Or.inr (Or.inl (List.mem_singleton.mp hc)))

end Json

end LineageSearch
