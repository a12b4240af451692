import Telegravim.LocalData.Conflicts

set_option autoImplicit false

/-!
# Local data: what an import discloses

Whether every disagreement of an import is listed as a conflict. The receipts of the incoming package
are merged before all scopes but the root are compared, so a receipt that the package carries hides a
disagreement that this store never resolved.

## Main results

* `LocalData.mem_knownReceipts` — the receipts that hide conflicts below the root.
* `LocalData.disagreements_listed_iff` — when an import lists every disagreement.
* `LocalData.foreign_receipt_hides_conflict` — an import that hides one.
-/

namespace LocalData

open Text

/-- The receipts of merged metadata are those of both sides. -/
theorem mem_knownReceipts {host : Host} {state incoming : Snapshot} {receipt : Json} :
    receipt ∈ knownReceipts host state incoming ↔ receipt ∈ receipts state.extra ∨
      (receipt ∈ receipts incoming.extra ∧
        (state.extra.find resolutionsField).all Json.isArray = true) := by
  have hvariants : resolutionsField ≠ metadataVariantsField := by decide
  have hfield : bookkeepingField resolutionsField = true := by decide
  have hfind : (mergedExtra host state incoming).find resolutionsField =
      mergedField resolutionsField (state.extra.find resolutionsField)
        (incoming.extra.find resolutionsField) := by
    unfold mergedExtra mergedMetadata
    split_ifs
    · rw [resolveMetadata_keepLocal, find_mergeExtra hvariants, find_remainder, if_neg (by simp [hfield])]
    · exact find_mergeExtra hvariants _ _
  unfold knownReceipts receipts arrayField
  rw [hfind]
  cases state.extra.find resolutionsField with
  | none => simp [mergedField, Json.asArray]
  | some value =>
    cases incoming.extra.find resolutionsField with
    | none => simp [mergedField, Json.asArray]
    | some other => cases value <;> cases other <;>
        simp [mergedField, hfield, Json.isArray, Json.asArray]

/-- **When an import lists every disagreement** that this store has not resolved: exactly when no
disagreement below the root has a receipt that only the incoming package carries.

**Proof sketch.** The metadata of the root is compared under the receipts of the store itself. All other
scopes are compared under the receipts of the merged metadata, which are those of both sides. -/
theorem disagreements_listed_iff {host : Host} {env : Env} {state incoming : Snapshot}
    {plan : MergePlan} (hstate : Valid host state)
    (hfresh : Fresh env 0 state.profiles incoming.profiles.values)
    (h : prepareImport host env state incoming = .ok plan) :
    (∀ c, RootDisagreement host state incoming c ∨ ScopeDisagreement host state incoming c →
      c ∈ plan.conflicts ∨ Json.str c.id ∈ receipts state.extra) ↔
    ∀ c, ScopeDisagreement host state incoming c → Json.str c.id ∈ receipts incoming.extra →
      (state.extra.find resolutionsField).all Json.isArray = true →
      Json.str c.id ∈ receipts state.extra := by
  obtain ⟨himported, -, -⟩ := prepareImport_imported hstate hfresh h
  obtain ⟨root, rest, hconflicts, hroot, hrest⟩ := himported.conflicts
  constructor
  · intro hlisted c hc hreceipt harray
    rcases hlisted c (Or.inr hc) with hmem | hknown
    · rw [hconflicts, List.mem_append] at hmem
      rcases hmem with hmem | hmem
      · obtain ⟨⟨-, hroot⟩, -⟩ := (hroot c).mp hmem
        refine absurd ?_ (hc.recordId_ne hstate)
        rw [hroot]
        rfl
      · exact absurd (mem_knownReceipts.mpr (Or.inr ⟨hreceipt, harray⟩)) ((hrest c).mp hmem).2
    · exact hknown
  · intro hforeign c hc
    rw [hconflicts, List.mem_append]
    by_cases hown : Json.str c.id ∈ receipts state.extra
    · exact Or.inr hown
    · rcases hc with hc | hc
      · exact Or.inl (Or.inl ((hroot c).mpr ⟨hc, hown⟩))
      · refine Or.inl (Or.inr ((hrest c).mpr ⟨hc, fun hknown => ?_⟩))
        rcases mem_knownReceipts.mp hknown with hown' | ⟨hreceipt, harray⟩
        · exact hown hown'
        · exact hown (hforeign c hc hreceipt harray)

/-- A package with a note among its metadata. -/
def notedPackage (note : ℚ) : Snapshot :=
  { plainBaseline with
    transfer := object [(u "note", .num note)] }

/-- A plain store with a note. -/
def notedStore : Snapshot := plainImport .keepLocal plainBaseline (notedPackage 1)

/-- The store after it took another note over its own. -/
def renotedStore : Snapshot := plainImport .useIncoming notedStore (notedPackage 2)

lemma valid_notedStore : Valid plainHost notedStore :=
  valid_plainImport (valid_baseline _ _ _) _ _

/-- The import of another note, from a package without receipts, lists the disagreement. -/
theorem noted_disagreements_listed :
    ∃ plan, prepareImport plainHost countedEnv notedStore (notedPackage 2) = .ok plan ∧
      ∀ c, RootDisagreement plainHost notedStore (notedPackage 2) c ∨
        ScopeDisagreement plainHost notedStore (notedPackage 2) c →
        c ∈ plan.conflicts ∨ Json.str c.id ∈ receipts notedStore.extra := by
  have hplan : (prepareImport plainHost countedEnv notedStore (notedPackage 2)).toOption.any
      (fun _ => true) = true := by
    decide +kernel
  obtain ⟨plan, hplan, -⟩ := (Option.any_eq_true _ _).mp hplan
  have hfresh : Fresh countedEnv 0 notedStore.profiles (notedPackage 2).profiles.values :=
    fresh_countedEnv (by decide +kernel) (by decide +kernel)
  refine ⟨plan, toOption_eq_some.mp hplan, ?_⟩
  refine (disagreements_listed_iff valid_notedStore hfresh (toOption_eq_some.mp hplan)).mpr ?_
  intro c _ hreceipt
  cases hreceipt

/-- **A receipt of the package hides a conflict**: two stores have the same note, and one of them took
another note over it; importing its package into the other one lists no conflict about the note,
though the two disagree and the other store has resolved nothing. -/
theorem foreign_receipt_hides_conflict :
    ∃ plan c, prepareImport plainHost countedEnv notedStore renotedStore = .ok plan ∧
      ScopeDisagreement plainHost notedStore renotedStore c ∧ c ∉ plan.conflicts ∧
      receipts notedStore.extra = [] := by
  have hplan : (prepareImport plainHost countedEnv notedStore renotedStore).toOption.any
      (fun plan => decide (plan.conflicts = [])) = true := by
    decide +kernel
  obtain ⟨plan, hplan, hconflicts⟩ := (Option.any_eq_true _ _).mp hplan
  refine ⟨plan, _, toOption_eq_some.mp hplan, Or.inl ⟨by decide +kernel, rfl⟩, ?_, by decide +kernel⟩
  rw [of_decide_eq_true hconflicts]
  exact List.not_mem_nil

end LocalData
