import LineageSearch.Json.Printer
import LineageSearch.Json.Token
import LineageSearch.Proofs.Text.SpelledNumbers
import Mathlib.Data.List.TakeWhile

/-!
# Scanning what was written

A document is written as marks, words, numbers and strings, with blanks between them.  Here the
scanner is followed over one such part: it finds the token of the part, and then stands behind the
part as it stood before it.

The scanner reads character by character, so what it makes of one depends on what was read before
and on what stands behind.  Both are kept general.  In front, any tokens may have been read.
Behind, there may stand any text after a mark or a string, but after a word or a number only one
that begins with no letter or digit (`EndsWord`), for nothing else marks the end of these.

| part     | lemma              | why the token ends where the part ends               |
|----------|--------------------|------------------------------------------------------|
| blanks   | `scanFrom?_spaces` | they belong to no token                              |
| a mark   | `scanFrom?_mark`   | it is one character                                  |
| a word   | `scanFrom?_word`   | another character stands behind it                   |
| a number | `scanFrom?_ofNat`  | another character stands behind it                   |
| a string | `scanFrom?_quote`  | a quote inside is written with a backslash before it |
-/

namespace LineageSearch

namespace JsonToken

variable {state next : Scan × List JsonToken} {tokens : List JsonToken} {token : JsonToken}
  {c : Char} {text rest : Text}

/-! ## Scanning from where the reading stands -/

/-- The tokens of a document at whose end the reading stands. -/
def tokensAt? : Scan × List JsonToken → Option (List JsonToken)
  | (.between, tokens) => some tokens.reverse
  | (.word letters, tokens) =>
    (ofWord? letters.reverse).map fun token => (token :: tokens).reverse
  | _ => none

/-- The tokens of a document of which some has been read and a text is left. -/
def scanFrom? (state : Scan × List JsonToken) (text : Text) : Option (List JsonToken) :=
  (text.foldlM scanChar state).bind tokensAt?

theorem scan?_eq_scanFrom? (document : Text) :
    scan? document = scanFrom? (.between, []) document := by
  unfold scan? scanFrom?
  rcases document.foldlM scanChar (.between, []) with _ | ⟨_ | _ | _ | _ | _, tokens⟩ <;> rfl

theorem scanFrom?_cons (state : Scan × List JsonToken) (c : Char) (text : Text) :
    scanFrom? state (c :: text) = (scanChar state c).bind (scanFrom? · text) := by
  simp only [scanFrom?, List.foldlM_cons, Option.bind_eq_bind, Option.bind_assoc]

theorem scanFrom?_step (h : scanChar state c = some next) :
    scanFrom? state (c :: text) = scanFrom? next text := by
  rw [scanFrom?_cons, h, Option.bind_some]

/-! ## Blanks and marks -/

/-- The blanks of a document. -/
def IsSpace (c : Char) : Prop := c = ' ' ∨ c = '\t' ∨ c = '\n' ∨ c = '\r'

theorem scanBetween_of_isSpace (h : IsSpace c) :
    scanBetween tokens c = some (.between, tokens) := by
  rcases h with rfl | rfl | rfl | rfl <;> rfl

theorem scanFrom?_spaces {blanks : Text} (h : ∀ c ∈ blanks, IsSpace c) :
    scanFrom? (.between, tokens) (blanks ++ rest) = scanFrom? (.between, tokens) rest := by
  induction blanks with
  | nil => rfl
  | cons c blanks ih =>
    have hspace : scanChar (.between, tokens) c = some (.between, tokens) :=
      scanBetween_of_isSpace (h c (List.mem_cons_self ..))
    rw [List.cons_append, scanFrom?_step hspace]
    exact ih fun d hd => h d (List.mem_cons_of_mem _ hd)

theorem scanFrom?_mark (h : ofMark? c = some token) :
    scanFrom? (.between, tokens) (c :: rest) = scanFrom? (.between, token :: tokens) rest := by
  unfold ofMark? at h
  split at h <;> cases h <;> exact scanFrom?_step rfl

/-! ## Words and numbers -/

/-- Whether a text begins with nothing that a word or a number could go on with. -/
def EndsWord (text : Text) : Prop := ∀ c ∈ text.head?, isWordChar c = false

theorem endsWord_nil : EndsWord [] := fun _ h => absurd h (Option.not_mem_none _)

theorem endsWord_cons (h : isWordChar c = false) : EndsWord (c :: rest) := by
  intro d hd
  obtain rfl := Option.some_inj.mp hd
  exact h

theorem not_isWordChar_of_isSpace (h : IsSpace c) : isWordChar c = false := by
  rcases h with rfl | rfl | rfl | rfl <;> decide

theorem endsWord_spaces_append {blanks : Text} (h : ∀ c ∈ blanks, IsSpace c)
    (hrest : EndsWord rest) : EndsWord (blanks ++ rest) := by
  cases blanks with
  | nil => exact hrest
  | cons c blanks => exact endsWord_cons (not_isWordChar_of_isSpace (h c (List.mem_cons_self ..)))

theorem scanBetween_word (hc : isWordChar c = true) :
    scanBetween tokens c = some (.word [c], tokens) := by
  have hspace : ¬ IsSpace c := by
    intro hspace
    rw [not_isWordChar_of_isSpace hspace] at hc
    cases hc
  have hquote : c ≠ '"' := by
    rintro rfl
    revert hc
    decide
  rw [scanBetween, if_neg (by simpa [IsSpace, or_assoc] using hspace), if_neg hquote, if_pos hc]

/-- A word of which letters have been read takes all further ones, and then gives a token. -/
theorem scanFrom?_letters {letters : Text} (read : Text)
    (hletters : ∀ c ∈ letters, isWordChar c = true) (hrest : EndsWord rest) :
    scanFrom? (.word read, tokens) (letters ++ rest) =
      (ofWord? (read.reverse ++ letters)).bind
        fun token => scanFrom? (.between, token :: tokens) rest := by
  induction letters generalizing read with
  | nil =>
    rw [List.nil_append, List.append_nil]
    cases rest with
    | nil => exact Option.map_eq_bind
    | cons c rest =>
      -- the character behind the word is read twice
      have hend : scanChar (.word read, tokens) c =
          (ofWord? read.reverse).bind fun token => scanChar (.between, token :: tokens) c :=
        if_neg (Bool.eq_false_iff.mp (hrest c rfl))
      rw [scanFrom?_cons, hend, Option.bind_assoc]
      simp only [scanFrom?_cons]
  | cons c letters ih =>
    have hstep : scanChar (.word read, tokens) c = some (.word (c :: read), tokens) :=
      if_pos (hletters c (List.mem_cons_self ..))
    have hbehind := ih (c :: read) fun d hd => hletters d (List.mem_cons_of_mem _ hd)
    rw [List.cons_append, scanFrom?_step hstep, hbehind, List.reverse_cons, List.append_assoc,
      List.singleton_append]

theorem scanFrom?_word {word : Text} (hne : word ≠ []) (hword : ∀ c ∈ word, isWordChar c = true)
    (htoken : ofWord? word = some token) (hrest : EndsWord rest) :
    scanFrom? (.between, tokens) (word ++ rest) = scanFrom? (.between, token :: tokens) rest := by
  obtain ⟨c, letters, rfl⟩ := List.exists_cons_of_ne_nil hne
  have hfirst : scanChar (.between, tokens) c = some (.word [c], tokens) :=
    scanBetween_word (hword c (List.mem_cons_self ..))
  rw [List.cons_append, scanFrom?_step hfirst,
    scanFrom?_letters [c] (fun d hd => hword d (List.mem_cons_of_mem _ hd)) hrest]
  show (ofWord? (c :: letters)).bind _ = _
  rw [htoken, Option.bind_some]

/-! ## Strings -/

/-- The code point of a character is no half of a surrogate pair. -/
theorem not_isSurrogate_toNat (c : Char) :
    isHighSurrogate c.toNat = false ∧ isLowSurrogate c.toNat = false := by
  have hvalid : c.toNat < 0xD800 ∨ 0xDFFF < c.toNat ∧ c.toNat < 0x110000 := c.valid
  simp only [isHighSurrogate, isLowSurrogate, Bool.and_eq_false_iff, decide_eq_false_iff_not]
  omega

theorem textOfUnits?_map_toNat (text : Text) : textOfUnits? (text.map Char.toNat) = some text := by
  induction text with
  | nil => rfl
  | cons c rest ih =>
    obtain ⟨hhigh, hlow⟩ := not_isSurrogate_toNat c
    cases rest with
    | nil => simp [textOfUnits?, hhigh, hlow]
    | cons d rest =>
      simp only [List.map_cons] at ih ⊢
      rw [textOfUnits?, hhigh, hlow, ih]
      simp

theorem hexValue?_hexDigit : ∀ n < 16, Text.hexValue? (Json.hexDigit n) = some n := by decide

/-- A control character without a letter is read back from its code. -/
theorem scanFrom?_code (units : List Nat) {n : Nat} (hn : n < 256) :
    scanFrom? (.string units, tokens)
        ('\\' :: 'u' :: '0' :: '0' :: Json.hexDigit (n / 16) :: Json.hexDigit (n % 16) :: rest) =
      scanFrom? (.string (n :: units), tokens) rest := by
  have hhigh := hexValue?_hexDigit (n / 16) (by omega)
  have hlow := hexValue?_hexDigit (n % 16) (by omega)
  generalize Json.hexDigit (n / 16) = high at hhigh ⊢
  generalize Json.hexDigit (n % 16) = low at hlow ⊢
  calc scanFrom? (.string units, tokens) ('\\' :: 'u' :: '0' :: '0' :: high :: low :: rest)
      = scanFrom? (.escape units, tokens) ('u' :: '0' :: '0' :: high :: low :: rest) :=
        scanFrom?_step rfl
    _ = scanFrom? (.hex units 4 0, tokens) ('0' :: '0' :: high :: low :: rest) :=
        scanFrom?_step rfl
    _ = scanFrom? (.hex units 3 0, tokens) ('0' :: high :: low :: rest) := scanFrom?_step rfl
    _ = scanFrom? (.hex units 2 0, tokens) (high :: low :: rest) := scanFrom?_step rfl
    _ = scanFrom? (.hex units 1 (n / 16), tokens) (low :: rest) :=
        scanFrom?_step (by simp [scanChar, hhigh])
    _ = scanFrom? (.string (n :: units), tokens) rest :=
        scanFrom?_step (by simp [scanChar, hlow, Nat.div_add_mod])

/-- A character that has a letter is read back from it. -/
theorem scanFrom?_letter {units : List Nat} {letter : Char} (hletter : letter ≠ 'u')
    (h : escaped? letter = some c) :
    scanFrom? (.string units, tokens) ('\\' :: letter :: rest) =
      scanFrom? (.string (c.toNat :: units), tokens) rest := by
  calc scanFrom? (.string units, tokens) ('\\' :: letter :: rest)
      = scanFrom? (.escape units, tokens) (letter :: rest) := scanFrom?_step rfl
    _ = scanFrom? (.string (c.toNat :: units), tokens) rest :=
        scanFrom?_step (by simp [scanChar, hletter, h])

/-- Within a string a character is read back from what it is written as. -/
theorem scanFrom?_escape (units : List Nat) (c : Char) :
    scanFrom? (.string units, tokens) (Json.escape c ++ rest) =
      scanFrom? (.string (c.toNat :: units), tokens) rest := by
  unfold Json.escape
  split_ifs with hquote hbackslash hbackspace htab hnewline hfeed hreturn hcontrol
  · exact scanFrom?_letter (by decide) (congrArg some hquote.symm)
  · exact scanFrom?_letter (by decide) (congrArg some hbackslash.symm)
  · exact scanFrom?_letter (by decide) (congrArg some hbackspace.symm)
  · exact scanFrom?_letter (by decide) (congrArg some htab.symm)
  · exact scanFrom?_letter (by decide) (congrArg some hnewline.symm)
  · exact scanFrom?_letter (by decide) (congrArg some hfeed.symm)
  · exact scanFrom?_letter (by decide) (congrArg some hreturn.symm)
  · exact scanFrom?_code units (by omega)
  · refine scanFrom?_step ?_
    rw [scanChar, if_neg hquote, if_neg hbackslash, if_neg hcontrol]

theorem scanFrom?_escapes (units : List Nat) (text : Text) :
    scanFrom? (.string units, tokens) (text.flatMap Json.escape ++ rest) =
      scanFrom? (.string ((text.map Char.toNat).reverse ++ units), tokens) rest := by
  induction text generalizing units with
  | nil => rfl
  | cons c text ih =>
    rw [List.flatMap_cons, List.append_assoc, scanFrom?_escape, ih, List.map_cons,
      List.reverse_cons, List.append_assoc, List.singleton_append]

theorem scanFrom?_quote (text : Text) :
    scanFrom? (.between, tokens) (Json.quote text ++ rest) =
      scanFrom? (.between, scalar (.ofText text) :: tokens) rest := by
  have hopen : scanChar (.between, tokens) '"' = some (.string [], tokens) := rfl
  have hclose : scanChar (.string (text.map Char.toNat).reverse, tokens) '"' =
      some (.between, scalar (.ofText text) :: tokens) := by
    rw [scanChar, if_pos rfl, List.reverse_reverse, textOfUnits?_map_toNat]
    rfl
  rw [Json.quote, List.append_assoc, List.cons_append, scanFrom?_step hopen, scanFrom?_escapes,
    List.append_nil, List.singleton_append, scanFrom?_step hclose]

end JsonToken

/-! ## Numbers -/

/-- The digits of a number are read as that number. -/
theorem JsonNumber.ofText?_ofNat (n : Nat) :
    JsonNumber.ofText? (Text.ofNat n) = some (.ofNat n) := by
  have hdigits := Text.isDigits_ofNat n
  rw [Text.isDigits, Bool.and_eq_true, Bool.not_eq_true'] at hdigits
  obtain ⟨hne, hall⟩ := hdigits
  have htake : (Text.ofNat n).takeWhile Char.isDigit = Text.ofNat n :=
    List.takeWhile_eq_self_iff.mpr (List.all_eq_true.mp hall)
  have hzero : ((Text.ofNat n).head? == some '0' && 1 < (Text.ofNat n).length) = false := by
    cases hwritten : Text.ofNat n with
    | nil => rfl
    | cons c digits =>
      by_cases hc : c = '0'
      · subst hc
        simp [Text.eq_nil_of_ofNat_eq_zero_cons hwritten]
      · simp [hc]
  unfold ofText?
  split
  next negative unsigned hsign =>
  have hplain : negative = false ∧ unsigned = Text.ofNat n := by
    split at hsign
    · next rest hminus =>
      rw [hminus] at hall
      simp at hall
    · exact ⟨(Prod.mk.inj hsign).1.symm, (Prod.mk.inj hsign).2.symm⟩
  obtain ⟨rfl, rfl⟩ := hplain
  simp only [htake, hne, hzero, Bool.or_self, List.drop_length]
  rfl

namespace JsonToken

variable {tokens : List JsonToken} {rest : Text}

theorem ofWord?_ofNat (n : Nat) : ofWord? (Text.ofNat n) = some (scalar (.ofNat n)) := by
  have hne : ∀ word : Text, Text.isDigits word = false → Text.ofNat n ≠ word := by
    rintro word hword rfl
    rw [Text.isDigits_ofNat] at hword
    cases hword
  rw [ofWord?, if_neg (hne _ (by decide)), if_neg (hne _ (by decide)), if_neg (hne _ (by decide)),
    JsonNumber.ofText?_ofNat]
  rfl

theorem scanFrom?_ofNat (n : Nat) (hrest : EndsWord rest) :
    scanFrom? (.between, tokens) (Text.ofNat n ++ rest) =
      scanFrom? (.between, scalar (.ofNat n) :: tokens) rest := by
  obtain ⟨hne, hdigits⟩ := Text.isDigits_iff.mp (Text.isDigits_ofNat n)
  refine scanFrom?_word hne (fun c hc => ?_) (ofWord?_ofNat n) hrest
  have hdigit : c.isDigit = true := by
    simpa [Char.isDigit, Char.le_def] using hdigits c hc
  simp [isWordChar, Char.isAlphanum, hdigit]

end JsonToken

end LineageSearch
