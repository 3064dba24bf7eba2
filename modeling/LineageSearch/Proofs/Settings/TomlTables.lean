import LineageSearch.Proofs.Settings.NamesOnce
import LineageSearch.Toml.Document

/-!
# The tables of a TOML document

In the table that a document denotes no name stands twice, at any depth
(`namesOnce_of_tableOf?`).  The property is carried through the three stages of reading:

* the parser: what stands in a document as a plain value has no parts, so that only arrays and
  braces build values (`Value.Plain`, `readsPlain`);
* the statements: each way of writing to a document under construction puts its entries under new
  names or changes a value in its place (`Draft.NamesOnce`, with one lemma for each way);
* the finished table, in which tables that stand for times become texts
  (`namesOnce_of_withTimes?`).
-/

namespace LineageSearch.Toml

open Setting (NamesOnce IsScalar)

/-! ## Plain values -/

/-- What is read, if anything is, has no parts. -/
def ReadsScalar (read : Option Setting) : Prop := ∀ value, read = some value → value.IsScalar

theorem readsScalar_none : ReadsScalar none := by simp [ReadsScalar]

theorem readsScalar_some {value : Setting} (h : value.IsScalar) : ReadsScalar (some value) := by
  intro read hread
  exact Option.some.inj hread ▸ h

theorem readsScalar_bind {α : Type} {start : Option α} {read : α → Option Setting}
    (h : ∀ a, ReadsScalar (read a)) : ReadsScalar (start.bind read) := by
  intro value hvalue
  obtain ⟨a, _, ha⟩ := Option.bind_eq_some_iff.mp hvalue
  exact h a value ha

theorem readsScalar_orElse {first second : Option Setting} (hfirst : ReadsScalar first)
    (hsecond : ReadsScalar second) : ReadsScalar (first <|> second) := by
  cases first with
  | none => exact hsecond
  | some value => exact hfirst

theorem readsScalar_boundedInteger? (n : Int) : ReadsScalar (boundedInteger? n) := by
  unfold boundedInteger?
  split
  · exact readsScalar_some trivial
  · exact readsScalar_none

theorem readsScalar_integer? (t : Text) : ReadsScalar (integer? t) := by
  unfold integer?
  split <;> exact readsScalar_bind fun _ => readsScalar_boundedInteger? _

theorem readsScalar_boundedDecimal? (negative : Bool) (digits : Text) (places : Int) :
    ReadsScalar (boundedDecimal? negative digits places) := by
  unfold boundedDecimal?
  extract_lets bound number
  split
  · exact readsScalar_none
  · exact readsScalar_some trivial

theorem readsScalar_decimal? (t : Text) : ReadsScalar (decimal? t) := by
  unfold decimal?
  obtain ⟨negative, unsigned⟩ := splitSign t
  dsimp only
  split
  · exact readsScalar_some trivial
  split
  · exact readsScalar_some trivial
  refine readsScalar_bind fun digits => ?_
  split
  · exact readsScalar_bind fun _ => readsScalar_bind fun _ => readsScalar_boundedDecimal? _ _ _
  · exact readsScalar_none
  · exact readsScalar_bind fun _ => readsScalar_boundedDecimal? _ _ _

theorem readsScalar_dateTime? (t : Text) : ReadsScalar (dateTime? t) := by
  unfold dateTime?
  split
  · exact readsScalar_some trivial
  · split
    · exact readsScalar_bind fun _ => readsScalar_bind fun _ => readsScalar_some trivial
    · exact readsScalar_none
  · split
    · exact readsScalar_some trivial
    · exact readsScalar_none

theorem readsScalar_bareValue? (t : Text) : ReadsScalar (bareValue? t) := by
  unfold bareValue?
  split
  · exact readsScalar_some trivial
  split
  · exact readsScalar_some trivial
  · exact readsScalar_orElse (readsScalar_integer? t)
      (readsScalar_orElse (readsScalar_decimal? t) (readsScalar_dateTime? t))

theorem isScalar_of_bare? {t rest : Text} {value : Setting} (h : bare? t = some (value, rest)) :
    value.IsScalar := by
  obtain ⟨_, hvalue, heq⟩ := Option.map_eq_some_iff.mp h
  exact (Prod.mk.inj heq).1 ▸ readsScalar_bareValue? _ _ hvalue

/-! ## The parser -/

/-- A value as it is written, of which nothing but arrays and braces has parts. -/
inductive Value.Plain : Value → Prop
  | scalar {value : Setting} (h : value.IsScalar) : Plain (.scalar value)
  | array {items : List Value} (h : ∀ item ∈ items, Plain item) : Plain (.array items)
  | inlineTable {fields : List (List Text × Value)} (h : ∀ field ∈ fields, Plain field.2) :
    Plain (.inlineTable fields)

/-- What is read in so many steps is plain: a value, the items of an array and the fields in
braces. -/
structure ReadsPlain (fuel : Nat) : Prop where
  value : ∀ {depth t value rest}, value? depth fuel t = some (value, rest) → value.Plain
  items : ∀ {depth t items rest}, items? depth fuel t = some (items, rest) →
    ∀ item ∈ items, item.Plain
  fields : ∀ {depth t fields rest}, fields? depth fuel t = some (fields, rest) →
    ∀ field ∈ fields, field.2.Plain

section Parser

variable {depth fuel : Nat} {t rest : Text}

theorem ReadsPlain.value_succ (h : ReadsPlain fuel) {value : Value}
    (hread : value? depth (fuel + 1) t = some (value, rest)) : value.Plain := by
  unfold value? at hread
  split at hread
  -- an array
  · split at hread
    · obtain ⟨_, hitems, heq⟩ := Option.map_eq_some_iff.mp hread
      obtain ⟨rfl, rfl⟩ := Prod.mk.inj heq
      exact .array (h.items hitems)
    · cases hread
  -- braces
  · split at hread
    · obtain ⟨_, hfields, heq⟩ := Option.map_eq_some_iff.mp hread
      obtain ⟨rfl, rfl⟩ := Prod.mk.inj heq
      exact .inlineTable (h.fields hfields)
    · cases hread
  -- quotes, of both kinds
  · obtain ⟨_, _, heq⟩ := Option.map_eq_some_iff.mp hread
    obtain ⟨rfl, rfl⟩ := Prod.mk.inj heq
    exact .scalar trivial
  · obtain ⟨_, _, heq⟩ := Option.map_eq_some_iff.mp hread
    obtain ⟨rfl, rfl⟩ := Prod.mk.inj heq
    exact .scalar trivial
  -- no mark at all
  · obtain ⟨_, hbare, heq⟩ := Option.map_eq_some_iff.mp hread
    obtain ⟨rfl, rfl⟩ := Prod.mk.inj heq
    exact .scalar (isScalar_of_bare? hbare)

theorem ReadsPlain.items_succ (h : ReadsPlain fuel) {items : List Value}
    (hread : items? depth (fuel + 1) t = some (items, rest)) : ∀ item ∈ items, item.Plain := by
  unfold items? at hread
  obtain ⟨_, _, hread⟩ := Option.bind_eq_some_iff.mp hread
  split at hread
  · obtain ⟨rfl, rfl⟩ := Prod.mk.inj (Option.some.inj hread)
    simp
  · obtain ⟨_, hitem, hread⟩ := Option.bind_eq_some_iff.mp hread
    obtain ⟨_, _, hread⟩ := Option.bind_eq_some_iff.mp hread
    split at hread
    · obtain ⟨_, hothers, hread⟩ := Option.bind_eq_some_iff.mp hread
      obtain ⟨rfl, rfl⟩ := Prod.mk.inj (Option.some.inj hread)
      exact List.forall_mem_cons.mpr ⟨h.value hitem, h.items hothers⟩
    · obtain ⟨rfl, rfl⟩ := Prod.mk.inj (Option.some.inj hread)
      exact List.forall_mem_singleton.mpr (h.value hitem)
    · cases hread

theorem ReadsPlain.fields_succ (h : ReadsPlain fuel) {fields : List (List Text × Value)}
    (hread : fields? depth (fuel + 1) t = some (fields, rest)) :
    ∀ field ∈ fields, field.2.Plain := by
  unfold fields? at hread
  obtain ⟨_, _, hread⟩ := Option.bind_eq_some_iff.mp hread
  split at hread
  · obtain ⟨rfl, rfl⟩ := Prod.mk.inj (Option.some.inj hread)
    simp
  · obtain ⟨_, _, hread⟩ := Option.bind_eq_some_iff.mp hread
    obtain ⟨_, _, hread⟩ := Option.bind_eq_some_iff.mp hread
    split at hread
    · obtain ⟨_, _, hread⟩ := Option.bind_eq_some_iff.mp hread
      obtain ⟨_, hvalue, hread⟩ := Option.bind_eq_some_iff.mp hread
      obtain ⟨_, _, hread⟩ := Option.bind_eq_some_iff.mp hread
      split at hread
      · obtain ⟨_, hothers, hread⟩ := Option.bind_eq_some_iff.mp hread
        obtain ⟨rfl, rfl⟩ := Prod.mk.inj (Option.some.inj hread)
        exact List.forall_mem_cons.mpr ⟨h.value hvalue, h.fields hothers⟩
      · obtain ⟨rfl, rfl⟩ := Prod.mk.inj (Option.some.inj hread)
        exact List.forall_mem_singleton.mpr (h.value hvalue)
      · cases hread
    · cases hread

theorem readsPlain (fuel : Nat) : ReadsPlain fuel := by
  induction fuel with
  | zero => exact ⟨by simp [value?], by simp [items?], by simp [fields?]⟩
  | succ fuel ih => exact ⟨ih.value_succ, ih.items_succ, ih.fields_succ⟩

end Parser

/-- A statement that assigns nothing but plain values. -/
def Statement.Plain : Statement → Prop
  | .assign _ value => value.Plain
  | _ => True

theorem plain_of_statement? {t rest : Text} {statement : Statement}
    (h : statement? t = some (statement, rest)) : statement.Plain := by
  unfold statement? at h
  split at h
  · split at h
    · obtain ⟨rfl, rfl⟩ := Prod.mk.inj (Option.some.inj h)
      trivial
    · cases h
  · split at h
    · obtain ⟨rfl, rfl⟩ := Prod.mk.inj (Option.some.inj h)
      trivial
    · cases h
  · obtain ⟨⟨path, behindKey⟩, _, h⟩ := Option.bind_eq_some_iff.mp h
    dsimp only at h
    split at h
    · obtain ⟨_, hvalue, h⟩ := Option.bind_eq_some_iff.mp h
      obtain ⟨rfl, rfl⟩ := Prod.mk.inj (Option.some.inj h)
      exact (readsPlain _).value hvalue
    · cases h

theorem plain_of_statements? {fuel : Nat} {t : Text} {statements : List Statement}
    (h : statements? fuel t = some statements) : ∀ statement ∈ statements, statement.Plain := by
  induction fuel generalizing t statements with
  | zero => simp [statements?] at h
  | succ fuel ih =>
    unfold statements? at h
    obtain ⟨_, _, h⟩ := Option.bind_eq_some_iff.mp h
    split at h
    · obtain rfl := Option.some.inj h
      simp
    · obtain ⟨_, hstatement, h⟩ := Option.bind_eq_some_iff.mp h
      obtain ⟨_, _, h⟩ := Option.bind_eq_some_iff.mp h
      split at h
      · obtain rfl := Option.some.inj h
        exact List.forall_mem_singleton.mpr (plain_of_statement? hstatement)
      · obtain ⟨_, _, h⟩ := Option.bind_eq_some_iff.mp h
        obtain ⟨_, hothers, h⟩ := Option.bind_eq_some_iff.mp h
        obtain rfl := Option.some.inj h
        exact List.forall_mem_cons.mpr ⟨plain_of_statement? hstatement, ih hothers⟩

/-! ## Documents under construction -/

/-- A part of a document in whose tables no name stands twice. -/
inductive Node.NamesOnce : Node → Prop
  | value {value : Setting} (h : value.NamesOnce) : NamesOnce (.value value)
  | table {origin : Origin} {entries : List (Text × Node)}
    (nodup : (entries.map Prod.fst).Nodup) (h : ∀ entry ∈ entries, NamesOnce entry.2) :
    NamesOnce (.table origin entries)
  | tables {items : List (List (Text × Node))}
    (h : ∀ entries ∈ items, NamesOnce (.table .implied entries)) : NamesOnce (.tables items)

/-- A document under construction in whose tables no name stands twice. -/
abbrev Draft.NamesOnce (entries : Draft) : Prop := Entries.Once Node.NamesOnce entries

section Drafts

variable {node : Node} {entries inner changed last : Draft} {others : List Draft} {name : Text}
  {origin : Origin}

theorem Node.namesOnce_table_iff :
    (Node.table origin entries).NamesOnce ↔ Draft.NamesOnce entries := by
  constructor
  · intro h
    cases h with
    | table nodup h => exact ⟨nodup, h⟩
  · exact fun h => .table h.nodup h.values

theorem Node.namesOnce_tables_iff {items : List Draft} :
    (Node.tables items).NamesOnce ↔ ∀ entries ∈ items, Draft.NamesOnce entries := by
  constructor
  · intro h
    cases h with
    | tables h => exact fun entries hmem => namesOnce_table_iff.mp (h entries hmem)
  · exact fun h => .tables fun entries hmem => namesOnce_table_iff.mpr (h entries hmem)

namespace Draft.NamesOnce

theorem of_table (h : Draft.NamesOnce entries)
    (hget : Entries.get? name entries = some (.table origin inner)) : Draft.NamesOnce inner :=
  Node.namesOnce_table_iff.mp (h.of_get? hget)

theorem of_tables (h : Draft.NamesOnce entries)
    (hget : Entries.get? name entries = some (.tables (last :: others))) :
    Draft.NamesOnce last :=
  Node.namesOnce_tables_iff.mp (h.of_get? hget) _ List.mem_cons_self

theorem putTable (h : Draft.NamesOnce entries) (hinner : Draft.NamesOnce inner) :
    Draft.NamesOnce (Entries.put name (.table origin inner) entries) :=
  h.put (Node.namesOnce_table_iff.mpr hinner)

/-- The last table of an array of tables is changed, and the others stay. -/
theorem putLast (h : Draft.NamesOnce entries)
    (hget : Entries.get? name entries = some (.tables (last :: others)))
    (hchanged : Draft.NamesOnce changed) :
    Draft.NamesOnce (Entries.put name (.tables (changed :: others)) entries) := by
  refine h.put (Node.namesOnce_tables_iff.mpr (List.forall_mem_cons.mpr ⟨hchanged, ?_⟩))
  exact fun other hother =>
    Node.namesOnce_tables_iff.mp (h.of_get? hget) other (List.mem_cons_of_mem _ hother)

theorem assign {path : List Text} (h : Draft.NamesOnce entries) (hnode : node.NamesOnce)
    (hassign : Toml.assign node entries path = some changed) : Draft.NamesOnce changed := by
  fun_induction Toml.assign node entries path generalizing changed with
  | case1 | case3 | case5 | case7 | case9 => cases hassign
  | case2 =>
    obtain rfl := Option.some.inj hassign
    exact h.put hnode
  | case4 entries name path _ _ ih =>
    obtain ⟨inner, hinner, rfl⟩ := Option.map_eq_some_iff.mp hassign
    exact h.putTable (ih Entries.once_nil hinner)
  | case6 entries name path _ _ _ _ hget =>
    rename_i ih
    obtain ⟨inner, hinner, rfl⟩ := Option.map_eq_some_iff.mp hassign
    exact h.putTable (ih (h.of_table hget) hinner)
  | case8 entries name path _ last others hget _ ih =>
    obtain ⟨last, hlast, rfl⟩ := Option.map_eq_some_iff.mp hassign
    exact h.putLast hget (ih (h.of_tables hget) hlast)

theorem openTable {path : List Text} (h : Draft.NamesOnce entries)
    (hopen : Toml.openTable entries path = some changed) : Draft.NamesOnce changed := by
  fun_induction Toml.openTable entries path generalizing changed with
  | case1 | case4 | case8 => cases hopen
  | case2 =>
    obtain rfl := Option.some.inj hopen
    exact h.putTable Entries.once_nil
  | case3 entries name inner hget =>
    obtain rfl := Option.some.inj hopen
    exact putTable (h.erase name) (h.of_table hget)
  | case5 entries name path _ _ ih =>
    obtain ⟨inner, hinner, rfl⟩ := Option.map_eq_some_iff.mp hopen
    exact h.putTable (ih Entries.once_nil hinner)
  | case6 entries name path _ _ _ hget ih =>
    obtain ⟨inner, hinner, rfl⟩ := Option.map_eq_some_iff.mp hopen
    exact h.putTable (ih (h.of_table hget) hinner)
  | case7 entries name path _ _ _ hget ih =>
    obtain ⟨last, hlast, rfl⟩ := Option.map_eq_some_iff.mp hopen
    exact h.putLast hget (ih (h.of_tables hget) hlast)

theorem openArrayTable {path : List Text} (h : Draft.NamesOnce entries)
    (hopen : Toml.openArrayTable entries path = some changed) : Draft.NamesOnce changed := by
  fun_induction Toml.openArrayTable entries path generalizing changed with
  | case1 | case4 | case8 => cases hopen
  | case2 =>
    obtain rfl := Option.some.inj hopen
    exact h.put (Node.namesOnce_tables_iff.mpr (List.forall_mem_singleton.mpr Entries.once_nil))
  | case3 entries name items hget =>
    obtain rfl := Option.some.inj hopen
    have hitems := Node.namesOnce_tables_iff.mp (h.of_get? hget)
    exact h.put (Node.namesOnce_tables_iff.mpr
      (List.forall_mem_cons.mpr ⟨Entries.once_nil, hitems⟩))
  | case5 entries name path _ _ ih =>
    obtain ⟨inner, hinner, rfl⟩ := Option.map_eq_some_iff.mp hopen
    exact h.putTable (ih Entries.once_nil hinner)
  | case6 entries name path _ _ _ hget ih =>
    obtain ⟨inner, hinner, rfl⟩ := Option.map_eq_some_iff.mp hopen
    exact h.putTable (ih (h.of_table hget) hinner)
  | case7 entries name path _ _ _ hget ih =>
    obtain ⟨last, hlast, rfl⟩ := Option.map_eq_some_iff.mp hopen
    exact h.putLast hget (ih (h.of_tables hget) hlast)

theorem assignAt {key path : List Text} (h : Draft.NamesOnce entries) (hnode : node.NamesOnce)
    (hassign : Toml.assignAt key node entries path = some changed) : Draft.NamesOnce changed := by
  fun_induction Toml.assignAt key node entries path generalizing changed with
  | case1 => exact h.assign hnode hassign
  | case2 entries name path _ _ hget ih =>
    obtain ⟨inner, hinner, rfl⟩ := Option.map_eq_some_iff.mp hassign
    exact h.putTable (ih (h.of_table hget) hinner)
  | case3 entries name path _ _ hget ih =>
    obtain ⟨last, hlast, rfl⟩ := Option.map_eq_some_iff.mp hassign
    exact h.putLast hget (ih (h.of_tables hget) hlast)
  | case4 => cases hassign

end Draft.NamesOnce

end Drafts

/-! ## From documents to settings -/

theorem map_fst_settingsOf (entries : Draft) :
    (settingsOf entries).map Prod.fst = entries.map Prod.fst := by
  induction entries with
  | nil => rfl
  | cons entry rest ih => rw [settingsOf, List.map_cons, List.map_cons, ih]

theorem exists_of_mem_settingsOf {entries : Draft} {entry : Text × Setting}
    (h : entry ∈ settingsOf entries) : ∃ part ∈ entries, entry.2 = part.2.toSetting := by
  induction entries with
  | nil => simp [settingsOf] at h
  | cons part rest ih =>
    rw [settingsOf] at h
    rcases List.mem_cons.mp h with rfl | hrest
    · exact ⟨part, List.mem_cons_self, rfl⟩
    · obtain ⟨other, hother, hentry⟩ := ih hrest
      exact ⟨other, List.mem_cons_of_mem _ hother, hentry⟩

theorem tableSettings_eq (items : List Draft) :
    tableSettings items = items.map fun entries => .table (settingsOf entries) := by
  induction items with
  | nil => rfl
  | cons entries rest ih => rw [tableSettings, ih, List.map_cons]

theorem namesOnce_toSetting {node : Node} (h : node.NamesOnce) : node.toSetting.NamesOnce := by
  induction h with
  | value h => exact h
  | table nodup _ ih =>
    refine .table (by rwa [map_fst_settingsOf]) fun entry hentry => ?_
    obtain ⟨part, hpart, hvalue⟩ := exists_of_mem_settingsOf hentry
    exact hvalue ▸ ih part hpart
  | tables _ ih =>
    refine .list fun item hitem => ?_
    rw [List.mem_reverse, tableSettings_eq, List.mem_map] at hitem
    obtain ⟨entries, hentries, rfl⟩ := hitem
    exact ih entries hentries

theorem namesOnce_settingsOf {entries : Draft} (h : Draft.NamesOnce entries) :
    NamesOnce (.table (settingsOf entries)) :=
  namesOnce_toSetting (show (Node.table .implied entries).NamesOnce from
    Node.namesOnce_table_iff.mpr h)

mutual

theorem namesOnce_of_toSetting? : ∀ (written : Value) {value : Setting}, written.Plain →
    written.toSetting? = some value → value.NamesOnce
  | .scalar _, _, hplain, h => by
    rw [Value.toSetting?] at h
    obtain rfl := Option.some.inj h
    cases hplain with
    | scalar hscalar => exact .scalar hscalar
  | .array items, _, hplain, h => by
    rw [Value.toSetting?] at h
    obtain ⟨settings, hsettings, rfl⟩ := Option.map_eq_some_iff.mp h
    cases hplain with
    | array hitems => exact .list (namesOnce_of_itemSettings? items hitems hsettings)
  | .inlineTable fields, _, hplain, h => by
    rw [Value.toSetting?] at h
    obtain ⟨entries, hentries, rfl⟩ := Option.map_eq_some_iff.mp h
    cases hplain with
    | inlineTable hfields =>
      exact namesOnce_settingsOf (namesOnce_of_fieldDraft? fields hfields Entries.once_nil hentries)

theorem namesOnce_of_itemSettings? : ∀ (items : List Value) {settings : List Setting},
    (∀ item ∈ items, item.Plain) → itemSettings? items = some settings →
      ∀ value ∈ settings, value.NamesOnce
  | [], _, _, h => by
    rw [itemSettings?] at h
    obtain rfl := Option.some.inj h
    simp
  | item :: rest, _, hplain, h => by
    rw [itemSettings?] at h
    rw [List.forall_mem_cons] at hplain
    split at h
    · next hitem hrest =>
      obtain rfl := Option.some.inj h
      exact List.forall_mem_cons.mpr ⟨namesOnce_of_toSetting? item hplain.1 hitem,
        namesOnce_of_itemSettings? rest hplain.2 hrest⟩
    · cases h

theorem namesOnce_of_fieldDraft? : ∀ (fields : List (List Text × Value))
    {entries changed : Draft}, (∀ field ∈ fields, field.2.Plain) → Draft.NamesOnce entries →
      fieldDraft? entries fields = some changed → Draft.NamesOnce changed
  | [], _, _, _, hentries, h => by
    rw [fieldDraft?] at h
    obtain rfl := Option.some.inj h
    exact hentries
  | (path, written) :: rest, _, _, hplain, hentries, h => by
    rw [fieldDraft?] at h
    rw [List.forall_mem_cons] at hplain
    split at h
    · next hvalue =>
      split at h
      · next hassign =>
        have hnode := Node.NamesOnce.value (namesOnce_of_toSetting? written hplain.1 hvalue)
        exact namesOnce_of_fieldDraft? rest hplain.2 (hentries.assign hnode hassign) h
      · cases h
    · cases h

end

/-- One more statement repeats no name. -/
theorem namesOnce_of_addStatement {state next : Draft × List Text} {statement : Statement}
    (hstate : Draft.NamesOnce state.1) (hstatement : statement.Plain)
    (h : addStatement state statement = some next) : Draft.NamesOnce next.1 := by
  obtain ⟨entries, current⟩ := state
  cases statement with
  | header path =>
    obtain ⟨changed, hchanged, rfl⟩ := Option.map_eq_some_iff.mp h
    exact hstate.openTable hchanged
  | arrayHeader path =>
    obtain ⟨changed, hchanged, rfl⟩ := Option.map_eq_some_iff.mp h
    exact hstate.openArrayTable hchanged
  | assign key written =>
    obtain ⟨value, hvalue, h⟩ := Option.bind_eq_some_iff.mp h
    obtain ⟨changed, hchanged, h⟩ := Option.bind_eq_some_iff.mp h
    obtain rfl := Option.some.inj h
    exact hstate.assignAt (.value (namesOnce_of_toSetting? written hstatement hvalue)) hchanged

theorem namesOnce_of_statements {statements : List Statement} {state last : Draft × List Text}
    (hstate : Draft.NamesOnce state.1) (hstatements : ∀ statement ∈ statements, statement.Plain)
    (h : statements.foldlM addStatement state = some last) : Draft.NamesOnce last.1 := by
  induction statements generalizing state with
  | nil =>
    obtain rfl := Option.some.inj h
    exact hstate
  | cons statement rest ih =>
    rw [List.forall_mem_cons] at hstatements
    rw [List.foldlM_cons] at h
    obtain ⟨next, hnext, h⟩ := Option.bind_eq_some_iff.mp h
    exact ih (namesOnce_of_addStatement hstate hstatements.1 hnext) hstatements.2 h

theorem isScalar_of_timeOf? {entries : List (Text × Setting)} {value : Setting}
    (h : timeOf? entries = some value) : value.IsScalar := by
  unfold timeOf? at h
  split at h
  · exact readsScalar_dateTime? _ _ h
  · cases h

theorem map_fst_entriesWithTimes? {entries finished : List (Text × Setting)}
    (h : entriesWithTimes? entries = some finished) :
    finished.map Prod.fst = entries.map Prod.fst := by
  induction entries generalizing finished with
  | nil =>
    rw [entriesWithTimes?] at h
    obtain rfl := Option.some.inj h
    rfl
  | cons entry rest ih =>
    unfold entriesWithTimes? at h
    split at h
    · next hrest =>
      obtain rfl := Option.some.inj h
      rw [List.map_cons, List.map_cons, ih hrest]
    · cases h

mutual

/-- Tables that become times leave the others without repeated names. -/
theorem namesOnce_of_withTimes? : ∀ (value : Setting) {finished : Setting}, value.NamesOnce →
    withTimes? value = some finished → finished.NamesOnce
  | .list items, _, hvalue, h => by
    rw [withTimes?] at h
    obtain ⟨settings, hsettings, rfl⟩ := Option.map_eq_some_iff.mp h
    cases hvalue with
    | scalar hscalar => exact hscalar.elim
    | list hitems => exact .list (namesOnce_of_itemsWithTimes? items hitems hsettings)
  | .table entries, _, hvalue, h => by
    rw [withTimes?] at h
    split at h
    · exact .scalar (isScalar_of_timeOf? h)
    · obtain ⟨settings, hsettings, rfl⟩ := Option.map_eq_some_iff.mp h
      cases hvalue with
      | scalar hscalar => exact hscalar.elim
      | table nodup hentries =>
        exact .table (by rwa [map_fst_entriesWithTimes? hsettings])
          (namesOnce_of_entriesWithTimes? entries hentries hsettings)
  | .null, _, hvalue, h | .bool _, _, hvalue, h | .integer _, _, hvalue, h
  | .decimal _, _, hvalue, h | .text _, _, hvalue, h => by
    obtain rfl := Option.some.inj h
    exact hvalue

theorem namesOnce_of_itemsWithTimes? : ∀ (items : List Setting) {finished : List Setting},
    (∀ item ∈ items, item.NamesOnce) → itemsWithTimes? items = some finished →
      ∀ value ∈ finished, value.NamesOnce
  | [], _, _, h => by
    rw [itemsWithTimes?] at h
    obtain rfl := Option.some.inj h
    simp
  | item :: rest, _, hitems, h => by
    rw [itemsWithTimes?] at h
    rw [List.forall_mem_cons] at hitems
    split at h
    · next hitem hrest =>
      obtain rfl := Option.some.inj h
      exact List.forall_mem_cons.mpr ⟨namesOnce_of_withTimes? item hitems.1 hitem,
        namesOnce_of_itemsWithTimes? rest hitems.2 hrest⟩
    · cases h

theorem namesOnce_of_entriesWithTimes? : ∀ (entries : List (Text × Setting))
    {finished : List (Text × Setting)}, (∀ entry ∈ entries, entry.2.NamesOnce) →
      entriesWithTimes? entries = some finished → ∀ entry ∈ finished, entry.2.NamesOnce
  | [], _, _, h => by
    rw [entriesWithTimes?] at h
    obtain rfl := Option.some.inj h
    simp
  | (_, value) :: rest, _, hentries, h => by
    rw [entriesWithTimes?] at h
    rw [List.forall_mem_cons] at hentries
    split at h
    · next hvalue hrest =>
      obtain rfl := Option.some.inj h
      exact List.forall_mem_cons.mpr ⟨namesOnce_of_withTimes? value hentries.1 hvalue,
        namesOnce_of_entriesWithTimes? rest hentries.2 hrest⟩
    · cases h

end

/-- In the table of a document no name stands twice. -/
theorem namesOnce_of_tableOf? {document : Text} {entries : Entries Setting}
    (h : tableOf? document = some entries) : NamesOnce (.table entries) := by
  obtain ⟨statements, hread, h⟩ := Option.bind_eq_some_iff.mp h
  obtain ⟨last, hlast, h⟩ := Option.bind_eq_some_iff.mp h
  obtain ⟨finished, hfinished, h⟩ := Option.bind_eq_some_iff.mp h
  have hdraft := namesOnce_of_statements Entries.once_nil (plain_of_statements? hread) hlast
  have hvalue := namesOnce_of_withTimes? _ (namesOnce_settingsOf hdraft) hfinished
  split at h
  · obtain rfl := Option.some.inj h
    exact hvalue
  · cases h

end LineageSearch.Toml
