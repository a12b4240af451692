import Telegravim.LocalData.Records
import Mathlib.Data.List.Induction

set_option autoImplicit false

/-!
# Local data: merged metadata

Metadata is merged field by field: a field that both sides have keeps its local value and the other
value is kept among the variants; the arrays of bookkeeping fields are united.

## Main definitions

* `LocalData.mergedField` — the value of a field of merged metadata.

## Main results

* `LocalData.find_mergeExtra` — merged metadata, field by field.
* `LocalData.mem_variants_mergeExtra` — the incoming value of a competing field is kept.
* `LocalData.metadataConflict_iff` — metadata conflicts when a field has other meanings.
-/

namespace LocalData

open Text

/-! ### Fields -/

/-- The value of a field of merged metadata. -/
def mergedField (field : Text) (before incoming : Option Json) : Option Json :=
  match before, incoming with
  | none, incoming => incoming
  | some value, none => some value
  | some value, some other =>
    if bookkeepingField field && value.isArray && other.isArray then
      some (.arr (unite (Json.asArray (some value)) (Json.asArray (some other))))
    else some value

lemma find_mergeField_of_ne {field : Text} {entry : Text × Json} (hne : field ≠ entry.1)
    (hvariants : field ≠ metadataVariantsField) (before : JObject) :
    (mergeField before entry).find field = before.find field := by
  unfold mergeField
  split
  · exact OrdMap.find_insert_of_ne hne _ _
  · split_ifs
    · exact OrdMap.find_insert_of_ne hne _ _
    · exact OrdMap.find_insert_of_ne hvariants _ _
    · rfl

lemma find_mergeField_self (entry : Text × Json) (hvariants : entry.1 ≠ metadataVariantsField)
    (before : JObject) :
    (mergeField before entry).find entry.1 =
      mergedField entry.1 (before.find entry.1) (some entry.2) := by
  unfold mergeField mergedField
  cases hfind : before.find entry.1 with
  | none => simp
  | some value =>
    dsimp only
    split_ifs
    · simp
    · rw [OrdMap.find_insert_of_ne hvariants, hfind]
    · exact hfind

lemma find_foldl_mergeField {field : Text} (hvariants : field ≠ metadataVariantsField)
    {entries : List (Text × Json)} (hfresh : field ∉ entries.map Prod.fst) (before : JObject) :
    (entries.foldl mergeField before).find field = before.find field := by
  induction entries generalizing before with
  | nil => rfl
  | cons entry entries ih =>
    rw [List.map_cons, List.mem_cons, not_or] at hfresh
    rw [List.foldl_cons, ih hfresh.2, find_mergeField_of_ne hfresh.1 hvariants]

/-- **Merged metadata, field by field**, but for the field of variants. -/
theorem find_mergeExtra {field : Text} (hvariants : field ≠ metadataVariantsField)
    (before incoming : JObject) :
    (mergeExtra before incoming).find field =
      mergedField field (before.find field) (incoming.find field) := by
  unfold mergeExtra
  have hnodup := incoming.nodup_keys
  cases hfind : incoming.find field with
  | none =>
    have hfresh : field ∉ incoming.entries.map Prod.fst := by
      intro hmem
      obtain ⟨value, hvalue⟩ := OrdMap.mem_keys_iff.mp hmem
      rw [hfind] at hvalue
      cases hvalue
    rw [find_foldl_mergeField hvariants hfresh]
    cases before.find field <;> rfl
  | some other =>
    obtain ⟨first, last, hsplit⟩ := List.append_of_mem (OrdMap.find_eq_some_iff.mp hfind)
    unfold OrdMap.keys at hnodup
    rw [hsplit, List.map_append, List.map_cons] at hnodup
    have hfirst : field ∉ first.map Prod.fst := fun hmem =>
      (List.nodup_append.mp hnodup).2.2 field hmem field List.mem_cons_self rfl
    have hlast : field ∉ last.map Prod.fst :=
      (List.nodup_cons.mp (List.nodup_append.mp hnodup).2.1).1
    rw [hsplit, List.foldl_append, List.foldl_cons, find_foldl_mergeField hvariants hlast,
      find_mergeField_self (field, other) hvariants,
      find_foldl_mergeField hvariants hfirst]

/-- A field that is no bookkeeping field keeps its local value. -/
lemma find_mergeExtra_of_some {field : Text} (hfield : bookkeepingField field = false)
    {before : JObject} {value : Json} (h : before.find field = some value) (incoming : JObject) :
    (mergeExtra before incoming).find field = some value := by
  have hvariants : field ≠ metadataVariantsField := by
    rintro rfl
    exact absurd hfield (by decide)
  rw [find_mergeExtra hvariants, h]
  cases incoming.find field <;> simp [mergedField, hfield]

/-! ### Variants -/

/-- A variant that was kept stays. -/
lemma mem_variants_mergeField {value : Json} {before : JObject} (entry : Text × Json)
    (h : value ∈ arrayField before metadataVariantsField) :
    value ∈ arrayField (mergeField before entry) metadataVariantsField := by
  unfold arrayField at h ⊢
  unfold mergeField
  split
  · rename_i hfind
    by_cases hkey : metadataVariantsField = entry.1
    · rw [hkey, hfind] at h
      cases h
    · rw [OrdMap.find_insert_of_ne hkey]
      exact h
  · rename_i hfind
    split_ifs
    · by_cases hkey : metadataVariantsField = entry.1
      · rw [← hkey] at hfind ⊢
        rw [OrdMap.find_insert_self, Json.asArray_arr]
        rw [hfind] at h
        exact mem_unite.mpr (Or.inl h)
      · rw [OrdMap.find_insert_of_ne hkey]
        exact h
    · rw [OrdMap.find_insert_self, Json.asArray_arr]
      exact mem_unite.mpr (Or.inl h)
    · exact h

lemma mem_variants_foldl {value : Json} {before : JObject} (entries : List (Text × Json))
    (h : value ∈ arrayField before metadataVariantsField) :
    value ∈ arrayField (entries.foldl mergeField before) metadataVariantsField := by
  induction entries generalizing before with
  | nil => exact h
  | cons entry entries ih => exact ih (mem_variants_mergeField entry h)

lemma mem_variants_mergeField_self (entry : Text × Json) (hfield : bookkeepingField entry.1 = false)
    {before : JObject} {value : Json} (hfind : before.find entry.1 = some value)
    (hne : value ≠ entry.2) :
    metadataVariant entry.1 entry.2 ∈ arrayField (mergeField before entry) metadataVariantsField := by
  unfold mergeField
  rw [hfind]
  dsimp only
  rw [if_neg (by simp [hfield]), if_pos hne]
  unfold arrayField
  rw [OrdMap.find_insert_self, Json.asArray_arr]
  exact mem_unite.mpr (Or.inr (List.mem_singleton_self _))

/-- **The incoming value of a competing field is kept** among the variants. -/
theorem mem_variants_mergeExtra {field : Text} (hfield : bookkeepingField field = false)
    {before incoming : JObject} {value other : Json} (hbefore : before.find field = some value)
    (hincoming : incoming.find field = some other) (hne : value ≠ other) :
    metadataVariant field other ∈ arrayField (mergeExtra before incoming) metadataVariantsField := by
  have hvariants : field ≠ metadataVariantsField := by
    rintro rfl
    exact absurd hfield (by decide)
  have hnodup := incoming.nodup_keys
  obtain ⟨first, last, hsplit⟩ := List.append_of_mem (OrdMap.find_eq_some_iff.mp hincoming)
  unfold OrdMap.keys at hnodup
  rw [hsplit, List.map_append, List.map_cons] at hnodup
  have hfirst : field ∉ first.map Prod.fst := fun hmem =>
    (List.nodup_append.mp hnodup).2.2 field hmem field List.mem_cons_self rfl
  unfold mergeExtra
  rw [hsplit, List.foldl_append, List.foldl_cons]
  exact mem_variants_foldl last (mem_variants_mergeField_self (field, other) hfield
    ((find_foldl_mergeField hvariants hfirst before).trans hbefore) hne)

/-- **Metadata conflicts** when both sides have a field with another meaning. -/
theorem metadataConflict_iff {before incoming : JObject} :
    metadataConflict before incoming = true ↔ ∃ field value other, bookkeepingField field = false ∧
      before.find field = some value ∧ incoming.find field = some other ∧
      semanticValue value ≠ semanticValue other := by
  simp only [metadataConflict, List.any_eq_true, Bool.and_eq_true, Bool.not_eq_true',
    Option.any_eq_true, decide_eq_true_eq]
  constructor
  · rintro ⟨entry, hentry, hfield, value, hvalue, hne⟩
    exact ⟨entry.1, value, entry.2, hfield, hvalue, OrdMap.find_eq_some_iff.mpr hentry, hne⟩
  · rintro ⟨field, value, other, hfield, hvalue, hother, hne⟩
    exact ⟨(field, other), OrdMap.find_eq_some_iff.mp hother, hfield, value, hvalue, hne⟩

/-! ### Resolved metadata -/

/-- What is left of the other side when a side was selected: its bookkeeping fields, and the fields that
the selected side does not have. -/
def remainder (selected other : JObject) : JObject :=
  selected.entries.foldl (fun result entry =>
    if bookkeepingField entry.1 then result else result.erase entry.1) other

lemma find_remainder (selected other : JObject) (field : Text) :
    (remainder selected other).find field =
      if bookkeepingField field = false ∧ selected.contains field then none
      else other.find field := by
  have hfold : ∀ entries : List (Text × Json), (entries.foldl (fun result entry =>
      if bookkeepingField entry.1 then result else result.erase entry.1) other).find field =
        if bookkeepingField field = false ∧ field ∈ entries.map Prod.fst then none
        else other.find field := by
    intro entries
    induction entries using List.reverseRecOn with
    | nil => simp
    | append_singleton entries entry ih =>
      rw [List.foldl_append, List.foldl_cons, List.foldl_nil, List.map_append, List.map_singleton]
      by_cases hentry : bookkeepingField entry.1 = true
      · have hne : bookkeepingField field = false → field ≠ entry.1 := by
          rintro hfield rfl
          rw [hentry] at hfield
          cases hfield
        rw [if_pos hentry, ih]
        refine if_congr (and_congr_right fun hfield => ?_) rfl rfl
        simp [hne hfield]
      · rw [if_neg hentry, OrdMap.find_erase, ih]
        by_cases hkey : field = entry.1
        · subst hkey
          rw [if_pos rfl, if_pos]
          exact ⟨Bool.eq_false_iff.mpr hentry, by simp⟩
        · rw [if_neg hkey]
          refine if_congr (and_congr_right fun _ => ?_) rfl rfl
          simp [hkey]
  have hkeys : field ∈ selected.entries.map Prod.fst ↔ selected.contains field = true := by
    rw [OrdMap.contains_iff]
    exact OrdMap.mem_keys_iff
  unfold remainder
  rw [hfold]
  exact if_congr (and_congr_right fun _ => hkeys) rfl rfl

lemma resolveMetadata_keepLocal (before incoming : JObject) :
    resolveMetadata before incoming .keepLocal = mergeExtra before (remainder before incoming) := rfl

lemma resolveMetadata_keepBoth (before incoming : JObject) :
    resolveMetadata before incoming .keepBoth = mergeExtra before incoming := rfl

end LocalData
