import LineageSearch.Proofs.NamedEntries
import LineageSearch.Settings.JsonFile

/-!
# Tables without repeated names

The order of the entries of a table matters, and so does which of two entries of one name counts.
In the tables that settings files denote the question does not arise: no name stands twice in one
of them, at any depth (`Setting.NamesOnce`).  For JSON documents that is so because objects are
written down entry by entry (`namesOnce_of_tableOfJsonText?`).

Where nothing lies below, a value without repeated names is laid over it as it is
(`overlay_of_namesOnce`).
-/

namespace LineageSearch

namespace Setting

/-- A value without parts. -/
def IsScalar : Setting → Prop
  | list _ | table _ => False
  | _ => True

/-- A value in whose tables no name stands twice. -/
inductive NamesOnce : Setting → Prop
  | scalar {value : Setting} (h : value.IsScalar) : NamesOnce value
  | list {items : List Setting} (h : ∀ item ∈ items, NamesOnce item) : NamesOnce (.list items)
  | table {entries : List (Text × Setting)} (nodup : (entries.map Prod.fst).Nodup)
      (h : ∀ entry ∈ entries, NamesOnce entry.2) : NamesOnce (.table entries)

theorem namesOnce_table_iff {entries : Entries Setting} :
    NamesOnce (.table entries) ↔ entries.Once NamesOnce := by
  constructor
  · intro h
    cases h with
    | scalar h => exact h.elim
    | table nodup h => exact ⟨nodup, h⟩
  · exact fun h => .table h.nodup h.values

theorem once_entriesOf {entries : Entries Setting} (h : entries.Once NamesOnce) (name : Text) :
    (entriesOf (entries.get? name)).Once NamesOnce := by
  unfold entriesOf
  split
  · next inner hget => exact namesOnce_table_iff.mp (h.of_get? hget)
  · exact Entries.once_nil

/-! ## Laid over nothing -/

/-- Entries under new names that are laid over nothing are appended as they are. -/
theorem overlayEntries_of_nodup {entries : Entries Setting} (below : Entries Setting)
    (hnodup : (below ++ entries : Entries Setting).names.Nodup)
    (h : ∀ entry ∈ entries, overlay none entry.2 = entry.2) :
    overlayEntries below entries = below ++ entries := by
  induction entries generalizing below with
  | nil => rw [overlayEntries, List.append_nil]
  | cons entry rest ih =>
    have hnew : entry.1 ∉ below.names := by
      rw [Entries.names, List.map_append, List.map_cons, List.nodup_append] at hnodup
      exact fun hmem => hnodup.2.2 _ hmem _ List.mem_cons_self rfl
    rw [overlayEntries, Entries.get?_eq_none_iff.mpr hnew, h entry List.mem_cons_self,
      Entries.put_of_notMem hnew, ih _ (by simpa using hnodup)
        (fun other hother => h other (List.mem_cons_of_mem _ hother))]
    simp

/-- A value without repeated names is laid over nothing, or over what is no table, as it is. -/
theorem overlay_of_namesOnce {value : Setting} (h : value.NamesOnce) :
    ∀ below, entriesOf below = [] → overlay below value = value := by
  induction h with
  | @scalar value h =>
    intro below _
    cases value with
    | list | table => exact h.elim
    | _ => rfl
  | list => exact fun _ _ => rfl
  | @table entries nodup _ ih =>
    intro below hbelow
    have hentries := overlayEntries_of_nodup [] nodup
      fun entry hentry => ih entry hentry none rfl
    rw [overlay, hbelow, hentries, List.nil_append]

/-! ## JSON documents -/

theorem isScalar_of_ofJsonNumber? {number : JsonNumber} {value : Setting}
    (h : ofJsonNumber? number = some value) : value.IsScalar := by
  rw [ofJsonNumber?] at h
  split at h
  · obtain rfl := Option.some.inj h
    trivial
  · split at h
    · obtain rfl := Option.some.inj h
      trivial
    · obtain ⟨_, _, rfl⟩ := Option.map_eq_some_iff.mp h
      trivial

mutual

theorem namesOnce_of_ofJson? : ∀ (document : Json) {depth : Nat} {value : Setting},
    ofJson? depth document = some value → value.NamesOnce
  | .null, _, _, h | .bool _, _, _, h => by
    rw [ofJson?] at h
    obtain rfl := Option.some.inj h
    exact .scalar trivial
  | .number _, _, _, h => .scalar (isScalar_of_ofJsonNumber? h)
  | .string _, _, _, h => by
    rw [ofJson?] at h
    obtain ⟨_, _, rfl⟩ := Option.map_eq_some_iff.mp h
    exact .scalar trivial
  | .array items, depth, _, h => by
    rw [ofJson?] at h
    split at h
    · obtain ⟨read, hread, rfl⟩ := Option.map_eq_some_iff.mp h
      exact .list (namesOnce_of_listOfJson? items hread)
    · cases h
  | .object fields, depth, _, h => by
    rw [ofJson?] at h
    split at h
    · obtain ⟨read, hread, rfl⟩ := Option.map_eq_some_iff.mp h
      exact namesOnce_table_iff.mpr (.ofList (namesOnce_of_entriesOfJson? fields hread))
    · cases h

theorem namesOnce_of_listOfJson? : ∀ (items : List Json) {depth : Nat} {read : List Setting},
    listOfJson? depth items = some read → ∀ value ∈ read, value.NamesOnce
  | [], _, _, h => by
    rw [listOfJson?] at h
    obtain rfl := Option.some.inj h
    simp
  | item :: rest, _, _, h => by
    rw [listOfJson?] at h
    split at h
    · next hitem hrest =>
      obtain rfl := Option.some.inj h
      exact List.forall_mem_cons.mpr
        ⟨namesOnce_of_ofJson? item hitem, namesOnce_of_listOfJson? rest hrest⟩
    · cases h

theorem namesOnce_of_entriesOfJson? : ∀ (fields : List (Option Text × Json)) {depth : Nat}
    {read : List (Text × Setting)}, entriesOfJson? depth fields = some read →
      ∀ entry ∈ read, entry.2.NamesOnce
  | [], _, _, h => by
    rw [entriesOfJson?] at h
    obtain rfl := Option.some.inj h
    simp
  | (name, document) :: rest, _, _, h => by
    unfold entriesOfJson? at h
    split at h
    · next hdocument hrest =>
      obtain rfl := Option.some.inj h
      exact List.forall_mem_cons.mpr
        ⟨namesOnce_of_ofJson? document hdocument, namesOnce_of_entriesOfJson? rest hrest⟩
    · cases h

end

/-- In the table of a JSON document no name stands twice. -/
theorem namesOnce_of_tableOfJsonText? {text : Text} {entries : Entries Setting}
    (h : tableOfJsonText? text = some entries) : NamesOnce (.table entries) := by
  obtain ⟨value, hvalue, h⟩ := Option.bind_eq_some_iff.mp h
  obtain ⟨document, _, hdocument⟩ := Option.bind_eq_some_iff.mp hvalue
  split at h
  · next written =>
    obtain rfl := Option.some.inj h
    exact namesOnce_of_ofJson? document hdocument
  · cases h

end Setting

end LineageSearch
