import Telegravim.LocalData.Merge

set_option autoImplicit false

/-!
# Local data: records and their versions

The records of a module as a map, and the order of version vectors: the counters of a record are a
function of the device, compared pointwise.

## Main definitions

* `LocalData.Keyed` — a map of records under their own ids.

## Main results

* `LocalData.records_setRecords` — the records of a module are the ones it was given.
* `LocalData.lt_of_advance` — an advanced record has a strictly larger version vector.
-/

namespace LocalData

open Text

/-! ### Field names -/

lemma recordsField_ne : u "records" ≠ u "module_id" ∧ u "records" ≠ u "schema_version" := by decide

/-- The fields of a record that the store writes itself. -/
lemma vectorField_ne : u "version_vector" ≠ u "id" ∧ u "version_vector" ≠ u "deleted" ∧
    u "version_vector" ≠ u "kind" ∧ u "version_vector" ≠ conflictVersionsField := by
  decide

lemma duplicateField_ne : u "_telegravim_duplicate_of" ≠ u "id" ∧
    u "_telegravim_duplicate_of" ≠ u "deleted" ∧ u "_telegravim_duplicate_of" ≠ u "kind" ∧
    u "_telegravim_duplicate_of" ≠ u "version_vector" ∧
    u "_telegravim_duplicate_of" ≠ conflictVersionsField := by
  decide

lemma deletedField_ne : u "deleted" ≠ u "id" ∧ u "deleted" ≠ u "kind" ∧
    u "deleted" ≠ u "version_vector" ∧ u "deleted" ≠ conflictVersionsField := by
  decide

lemma versionsField_ne : conflictVersionsField ≠ u "id" ∧ conflictVersionsField ≠ u "kind" ∧
    conflictVersionsField ≠ u "version_vector" := by
  decide

/-! ### Records of a module -/

/-- A map of records, each under its own id. -/
def Keyed (records : OrdMap Text JObject) : Prop :=
  ∀ id record, records.find id = some record → recordId record = id

lemma Keyed.empty : Keyed ∅ := by
  intro id record h
  simp at h

lemma Keyed.insert {records : OrdMap Text JObject} (h : Keyed records) {id : Text} {record : JObject}
    (hid : recordId record = id) : Keyed (records.insert id record) := by
  intro key other hkey
  rw [OrdMap.find_insert] at hkey
  split_ifs at hkey with hk
  · cases hkey
    rw [hid, hk]
  · exact h key other hkey

/-- The records of an array by their ids, over those there were before. -/
def collect (values : List Json) (records : OrdMap Text JObject) : OrdMap Text JObject :=
  values.foldl (fun result value => result.insert (recordId value.toObject) value.toObject) records

lemma keyed_collect (values : List Json) {before : OrdMap Text JObject} (h : Keyed before) :
    Keyed (collect values before) := by
  induction values generalizing before with
  | nil => exact h
  | cons value values ih => exact ih (h.insert rfl)

lemma keyed_records (module : JObject) : Keyed (records module) := keyed_collect _ Keyed.empty

/-- Records under their own ids are collected from their values. -/
lemma collect_values {entries : List (Text × JObject)}
    (h : ∀ entry ∈ entries, recordId entry.2 = entry.1) (before : OrdMap Text JObject) :
    collect ((entries.map Prod.snd).map Json.ofObject) before =
      entries.foldl (fun result entry => result.insert entry.1 entry.2) before := by
  induction entries generalizing before with
  | nil => rfl
  | cons entry entries ih =>
    have hentry : recordId entry.2 = entry.1 := h entry List.mem_cons_self
    have hrest := ih (fun e he => h e (List.mem_cons_of_mem _ he)) (before.insert entry.1 entry.2)
    simp only [collect, List.map_cons, List.foldl_cons, Json.toObject_ofObject, hentry] at hrest ⊢
    exact hrest

/-- The ids of the records of a module are distinct. -/
def DistinctRecords (module : JObject) : Prop :=
  ((arrayField module (u "records")).map fun value => recordId value.toObject).Nodup

/-- An element of the array of a module with distinct records is a record. -/
lemma DistinctRecords.find {module : JObject} (h : DistinctRecords module) {value : Json}
    (hvalue : value ∈ arrayField module (u "records")) :
    (records module).find (recordId value.toObject) = some value.toObject := by
  have hfind := OrdMap.find_foldl_insert_of_mem
    (l := (arrayField module (u "records")).map fun value => (recordId value.toObject, value.toObject))
    (k := recordId value.toObject) (x := value.toObject) (by rw [List.map_map]; exact h)
    (List.mem_map.mpr ⟨value, hvalue, rfl⟩) ∅
  rw [List.foldl_map] at hfind
  exact hfind

@[simp] lemma arrayField_setRecords (module : JObject) (written : OrdMap Text JObject) :
    Json.asArray ((setRecords module written).find (u "records")) =
      written.values.map Json.ofObject := by
  simp [setRecords]

/-- The records of a module are the ones it was given. -/
lemma records_setRecords {written : OrdMap Text JObject} (h : Keyed written) (module : JObject) :
    records (setRecords module written) = written := by
  have hentries : ∀ entry ∈ written.entries, recordId entry.2 = entry.1 :=
    fun entry hentry => h entry.1 entry.2 (OrdMap.find_eq_some_iff.mpr hentry)
  unfold records
  rw [arrayField_setRecords]
  exact (collect_values hentries ∅).trans (OrdMap.ofList_entries written)

lemma setRecords_setRecords (module : JObject) (first second : OrdMap Text JObject) :
    setRecords (setRecords module first) second = setRecords module second :=
  OrdMap.insert_insert _ _ _ _

lemma find_setRecords_of_ne {field : Text} (h : field ≠ u "records") (module : JObject)
    (written : OrdMap Text JObject) : (setRecords module written).find field = module.find field :=
  OrdMap.find_insert_of_ne h _ _

@[simp] lemma moduleId_setRecords (module : JObject) (written : OrdMap Text JObject) :
    moduleId (setRecords module written) = moduleId module := by
  unfold moduleId
  rw [find_setRecords_of_ne recordsField_ne.1.symm]

@[simp] lemma schemaVersion_setRecords (module : JObject) (written : OrdMap Text JObject) :
    schemaVersion (setRecords module written) = schemaVersion module := by
  unfold schemaVersion
  rw [find_setRecords_of_ne recordsField_ne.2.symm]

@[simp] lemma isSavedTags_setRecords (module : JObject) (written : OrdMap Text JObject) :
    isSavedTags (setRecords module written) = isSavedTags module := by
  simp [isSavedTags]

/-- A record with the fields of another one, but for its version and its archived versions. -/
def CurrentRecord (before after : JObject) : Prop :=
  ∀ field, field ≠ u "version_vector" → field ≠ conflictVersionsField →
    after.find field = before.find field

/-! ### Arrays without repetition -/

@[simp] lemma mem_unite {value : Json} {first second : List Json} :
    value ∈ unite first second ↔ value ∈ first ∨ value ∈ second := by
  unfold unite
  induction second generalizing first with
  | nil => simp
  | cons other second ih =>
    rw [List.foldl_cons, ih]
    split_ifs with h
    · constructor
      · rintro (hv | hv)
        · exact Or.inl hv
        · exact Or.inr (List.mem_cons_of_mem _ hv)
      · rintro (hv | hv)
        · exact Or.inl hv
        · rcases List.mem_cons.mp hv with rfl | hv
          · exact Or.inl h
          · exact Or.inr hv
    · simp [or_assoc]

/-! ### Version vectors -/

/-- The counters of a vector. -/
def counts (vector : JObject) (device : Text) : ℚ := Json.asDouble 0 (vector.find device)

lemma counter_eq (record : JObject) : counter record = counts (versionVector record) := rfl

@[simp] lemma versionVector_insert (record vector : JObject) :
    versionVector (record.insert (u "version_vector") (Json.ofObject vector)) = vector := by
  simp [versionVector]

lemma versionVector_insert_of_ne {field : Text} (h : u "version_vector" ≠ field) (record : JObject)
    (value : Json) : versionVector (record.insert field value) = versionVector record := by
  unfold versionVector
  rw [OrdMap.find_insert_of_ne h]

lemma counts_insert (vector : JObject) (device other : Text) (count : ℚ) :
    counts (vector.insert device (.num count)) other =
      if other = device then count else counts vector other := by
  unfold counts
  rw [OrdMap.find_insert]
  split_ifs <;> rfl

/-- An advanced record differs in its version vector only. -/
lemma eq_of_advance {record advanced : JObject} {device : Text}
    (h : advance record device = .ok advanced) :
    advanced = record.insert (u "version_vector")
      (Json.ofObject ((versionVector record).insert device (.num (counter record device + 1)))) := by
  unfold advance at h
  dsimp only at h
  split_ifs at h with hlimit
  · exact absurd h (by simp [failure])
  · exact (Except.ok.inj h).symm

lemma find_advance {record advanced : JObject} {device field : Text}
    (h : advance record device = .ok advanced) (hfield : field ≠ u "version_vector") :
    advanced.find field = record.find field := by
  rw [eq_of_advance h, OrdMap.find_insert_of_ne hfield]

lemma recordId_advance {record advanced : JObject} {device : Text}
    (h : advance record device = .ok advanced) : recordId advanced = recordId record := by
  unfold recordId
  rw [find_advance h vectorField_ne.1.symm]

lemma isDeleted_advance {record advanced : JObject} {device : Text}
    (h : advance record device = .ok advanced) : isDeleted advanced = isDeleted record := by
  unfold isDeleted
  rw [find_advance h vectorField_ne.2.1.symm]

/-- The counters of an advanced record: one more for the device. -/
lemma counter_advance {record advanced : JObject} {device : Text}
    (h : advance record device = .ok advanced) (other : Text) :
    counter advanced other = if other = device then counter record device + 1
      else counter record other := by
  rw [eq_of_advance h, counter_eq, versionVector_insert, counts_insert]
  rfl

/-- An advanced record has a strictly larger version vector. -/
lemma lt_of_advance {record advanced : JObject} {device : Text}
    (h : advance record device = .ok advanced) : counter record < counter advanced := by
  rw [Pi.lt_def]
  constructor
  · intro other
    rw [counter_advance h]
    split_ifs with hother
    · rw [hother]
      exact (lt_add_one _).le
    · exact le_rfl
  · refine ⟨device, ?_⟩
    rw [counter_advance h, if_pos rfl]
    exact lt_add_one _

/-- The counters of a joined vector: the greater one where the second vector has a counter. -/
lemma counts_joinedVector (first second : JObject) (device : Text) :
    counts (joinedVector first second) device =
      if second.contains device then max (counts first device) (counts second device)
      else counts first device := by
  have hfind := OrdMap.find_foldl_entries_update
    (fun _ before after => .num (max (Json.asDouble 0 before) (Json.asDouble 0 (some after))))
    second first device
  unfold counts joinedVector
  rw [hfind]
  cases hsecond : second.find device with
  | none => simp [OrdMap.contains, hsecond]
  | some x => simp [OrdMap.contains, hsecond, Json.asDouble]

/-- A joined vector is at least the first one. -/
lemma le_counts_joinedVector_left (first second : JObject) :
    counts first ≤ counts (joinedVector first second) := by
  intro device
  rw [counts_joinedVector]
  split_ifs
  · exact le_max_left _ _
  · exact le_rfl

end LocalData
