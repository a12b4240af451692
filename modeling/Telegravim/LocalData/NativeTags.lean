import Telegravim.LocalData.Validate

set_option autoImplicit false

/-!
# Local data: reactions of old tags

Tags of the first version have an emoji and no reaction. Before the tags are used, each active tag gets a reaction of its
own: the first tag of a reaction keeps it, and the others get their emoji or else an emoji of a palette.

## Main definitions

* `LocalData.EmojiLibrary` — the emojis that the program knows.
* `LocalData.ReactionId`, `LocalData.readReaction`, `LocalData.validReaction` — the reaction of a tag.
* `LocalData.normalizeNativeTags` — the pass over the tags of a module.

## Main results

* `LocalData.splitUsed_eq` — which tags keep their reaction.
* `LocalData.giveTags_ok` — what the tags without one get.
* `LocalData.every_tag_has_its_reaction` — the module after the pass.
-/

namespace LocalData

open Text

/-! ### Reactions -/

/-- The emojis that the program knows. -/
structure EmojiLibrary where
  /-- `Ui::Emoji::Find`: the id of the emoji that a text starts with, and how long it is in the text. -/
  find : Text → Option (Text × ℕ)
  /-- `Ui::Emoji::GetSection`, from the people to the symbols: the ids of the emojis of a section. -/
  sections : List (List Text)

inductive ReactionId where
  | emoji (value : Text)
  | custom (value : ℕ)
  deriving DecidableEq

namespace ReactionId

/-- `ReactionId::emoji`: the emoji of a reaction; there is none for the reaction that is paid for. -/
def emojiText : ReactionId → Text
  | emoji value => if value = u "*" then [] else value
  | custom _ => []

/-- `ReactionId::custom`. -/
def documentId : ReactionId → ℕ
  | emoji _ => 0
  | custom value => value

end ReactionId

/-- The number of a text with blanks and a sign around it; zero when it is too large or no number. -/
def documentNumber (value : Text) : ℕ :=
  let trimmed := ((value.dropWhile isSpace).reverse.dropWhile isSpace).reverse
  numberOf (if trimmed.head? = some 43 then trimmed.tail else trimmed)

def readReaction (record : JObject) : ReactionId :=
  let native := Json.asObject (record.find (u "native_reaction"))
  if Json.asText (native.find (u "kind")) = u "custom" then
    let id := documentNumber (Json.asText (native.find (u "document_id")))
    if id ≠ 0 then .custom id else .emoji []
  else .emoji (Json.asText (native.find (u "emoji")))

def writeReaction (id : ReactionId) : JObject :=
  if id.documentId ≠ 0 then
    object [(u "kind", .str (u "custom")), (u "document_id", .str (decimal id.documentId))]
  else object [(u "kind", .str (u "emoji")), (u "emoji", .str id.emojiText)]

def kMaximumEmoji : ℕ := 32

/-- The records of a module, as its array has them. -/
def recordArray (module : JObject) : List Json := Json.asArray (module.find (u "records"))

/-- A record of an array. -/
def tagAt (records : List Json) (index : ℕ) : JObject := (records.getD index .null).toObject

/-- An active tag. -/
def activeTag (record : JObject) : Bool := !isDeleted record && recordKind record = u "tag"

def recordPosition (record : JObject) : ℤ := Json.asInt (record.find (u "position"))

/-- The order of two tags, by their positions and then by their ids. -/
def beforeOrSame (a b : JObject) : Prop :=
  recordPosition a < recordPosition b ∨ (recordPosition a = recordPosition b ∧ recordId a ≤ recordId b)

instance instDecidableBeforeOrSame (a b : JObject) : Decidable (beforeOrSame a b) :=
  inferInstanceAs (Decidable (_ ∨ _))

/-- The active tags of some records. -/
def activeTags (records : List Json) : List ℕ :=
  (List.range records.length).filter fun index => activeTag (tagAt records index)

/-- What `ranges::sort` may make of the active tags: it leaves open the order of tags that are the same to it. -/
structure IsOrder (records : List Json) (order : List ℕ) : Prop where
  perm : order.Perm (activeTags records)
  sorted : order.Pairwise fun a b => beforeOrSame (tagAt records a) (tagAt records b)

section Pass

variable (lib : EmojiLibrary)

def validReaction (id : ReactionId) : Bool :=
  if id.documentId ≠ 0 then true
  else
    id.emojiText ≠ [] && id.emojiText.length ≤ kMaximumEmoji &&
      (lib.find id.emojiText).any fun found => found.2 = id.emojiText.length

/-- The emojis that tags get before all others. -/
def basePalette : List Text :=
  [u "❤", u "👍", u "👎", u "🔥", u "🥰", u "👏", u "😁", u "🤔", u "🤯", u "😱", u "🤬", u "😢", u "🎉", u "🤩", u "🤮",
    u "💩", u "🙏", u "👌", u "🕊", u "🤡", u "🥱", u "🥴", u "😍", u "🐳", u "💯"]

/-- The emojis for tags without a reaction. -/
def palette : List Text := basePalette ++ lib.sections.flatten

/-- The first pass: the reactions that are used, and the tags that have none of their own. -/
def splitUsed (records : List Json) : List ℕ → List ReactionId → List ReactionId × List ℕ
  | [], used => (used, [])
  | index :: order, used =>
    let id := readReaction (tagAt records index)
    if ¬validReaction lib id ∨ id ∈ used then
      ((splitUsed records order used).1, index :: (splitUsed records order used).2)
    else splitUsed records order (id :: used)

/-- The emoji of a tag without a reaction, under the id that the program has for it. -/
def legacyReaction (record : JObject) : ReactionId :=
  let reaction := ReactionId.emoji (Json.asText (record.find (u "emoji")))
  if validReaction lib reaction then .emoji (((lib.find reaction.emojiText).map Prod.fst).getD []) else reaction

/-- The second pass: the emojis of the tags without a reaction are reserved for them. -/
def reserve (records : List Json) (missing : List ℕ) (used : List ReactionId) : List ReactionId :=
  missing.foldl (fun reserved index =>
    let record := tagAt records index
    if validReaction lib (.emoji (Json.asText (record.find (u "emoji")))) then legacyReaction lib record :: reserved
    else reserved) used

/-- A record with another reaction; the one it had is kept aside. -/
def replaceReaction (record : JObject) (reaction : ReactionId) : JObject :=
  let kept := match record.find (u "native_reaction") with
    | some (.obj entries) =>
      let previous := Json.asArray (record.find (u "previous_native_reactions"))
      record.insert (u "previous_native_reactions")
        (.arr (if Json.obj entries ∈ previous then previous else previous ++ [Json.obj entries]))
    | _ => record
  kept.insert (u "native_reaction") (Json.ofObject (writeReaction reaction))

/-- The third pass under way: the records, the emojis of the palette from the cursor on, and the two sets. -/
structure Giving where
  records : List Json
  next : List Text
  used : List ReactionId
  reserved : List ReactionId

/-- A tag gets a reaction. -/
def Giving.give (giving : Giving) (index : ℕ) (reaction : ReactionId) (next : List Text) : Giving where
  records := giving.records.set index (Json.ofObject (replaceReaction (tagAt giving.records index) reaction))
  next := next
  used := reaction :: giving.used
  reserved := reaction :: giving.reserved

/-- A step of the third pass; it fails where the palette has no emoji left. -/
def giveTag (giving : Giving) (index : ℕ) : Option Giving :=
  let reaction := legacyReaction lib (tagAt giving.records index)
  if ¬validReaction lib reaction ∨ reaction ∈ giving.used then
    match giving.next.dropWhile fun emoji => decide (ReactionId.emoji emoji ∈ giving.reserved) with
    | [] => none
    | emoji :: next => some (giving.give index (.emoji emoji) next)
  else some (giving.give index reaction giving.next)

/-- The third pass. -/
def giveTags : List ℕ → Giving → Option Giving
  | [], giving => some giving
  | index :: missing, giving => (giveTag lib giving index).bind (giveTags missing)

/-- `NormalizeNativeTags`, with the order that the sorting has made: the module it leaves, and its result. -/
def normalizeNativeTags (order : List ℕ) (module : JObject) : JObject × Result Unit :=
  if schemaVersion module ≠ 1 ∧ schemaVersion module ≠ 2 then
    (module, failure .unsupported "Unsupported saved tags version.")
  else
    let records := recordArray module
    let (used, missing) := splitUsed lib records order []
    match giveTags lib missing
      { records, next := palette lib, used, reserved := reserve lib records missing used } with
    | none => (module, failure .invalid "No unused emoji is available for legacy tags.")
    | some giving => ((module.insert (u "records") (.arr giving.records)).insert (u "schema_version") (.num 2), .ok ())

/-! ### What a tag gets -/

variable {lib}

/-- A valid emoji is not empty and not the mark of what is paid for. -/
lemma emojiText_of_valid {value : Text} (h : validReaction lib (.emoji value) = true) :
    (ReactionId.emoji value).emojiText = value := by
  have hemoji : ¬ (ReactionId.emoji value).documentId ≠ 0 := not_not.mpr rfl
  rw [validReaction, if_neg hemoji] at h
  simp only [Bool.and_eq_true, decide_eq_true_eq] at h
  by_cases hpaid : value = u "*"
  · exact absurd (if_pos hpaid) h.1.1
  · exact if_neg hpaid

lemma keys_ne : u "previous_native_reactions" ≠ u "native_reaction" := by decide

lemma find_native (record : JObject) (reaction : ReactionId) :
    (replaceReaction record reaction).find (u "native_reaction") = some (Json.ofObject (writeReaction reaction)) := by
  rw [replaceReaction, OrdMap.find_insert, if_pos rfl]

/-- **A tag has the reaction that it was given.** -/
lemma readReaction_replaceReaction {record : JObject} {value : Text} (h : validReaction lib (.emoji value) = true) :
    readReaction (replaceReaction record (.emoji value)) = .emoji value := by
  have hwritten : writeReaction (.emoji value) =
      ((∅ : JObject).insert (u "kind") (.str (u "emoji"))).insert (u "emoji") (.str value) := by
    rw [writeReaction, if_neg (not_not.mpr rfl : ¬ (ReactionId.emoji value).documentId ≠ 0), emojiText_of_valid h]
    rfl
  have hkind : (writeReaction (.emoji value)).find (u "kind") = some (.str (u "emoji")) := by
    rw [hwritten, OrdMap.find_insert, if_neg (by decide), OrdMap.find_insert, if_pos rfl]
  have hemoji : (writeReaction (.emoji value)).find (u "emoji") = some (.str value) := by
    rw [hwritten, OrdMap.find_insert, if_pos rfl]
  have hne : u "emoji" ≠ u "custom" := by decide
  rw [readReaction, find_native]
  dsimp only
  rw [Json.asObject_ofObject, hkind, Json.asText_str, if_neg hne, hemoji, Json.asText_str]

/-- Nothing else of a record is replaced. -/
lemma find_replaceReaction (record : JObject) (reaction : ReactionId) {key : Text} (hnative : key ≠ u "native_reaction")
    (hprevious : key ≠ u "previous_native_reactions") :
    (replaceReaction record reaction).find key = record.find key := by
  rw [replaceReaction, OrdMap.find_insert, if_neg hnative]
  split
  · rw [OrdMap.find_insert, if_neg hprevious]
  · rfl

/-- **The reaction that a record had is kept aside.** -/
lemma mem_previous (record : JObject) (reaction : ReactionId) {old : Json}
    (hold : record.find (u "native_reaction") = some old) (hobject : old.isObject = true) :
    old ∈ Json.asArray ((replaceReaction record reaction).find (u "previous_native_reactions")) := by
  rw [replaceReaction, OrdMap.find_insert, if_neg keys_ne]
  cases old with
  | obj entries =>
    rw [hold]
    dsimp only
    rw [OrdMap.find_insert, if_pos rfl, Json.asArray_arr]
    split_ifs with hmem
    · exact hmem
    · exact List.mem_append_right _ (List.mem_singleton_self _)
  | _ => cases hobject

/-! ### The first pass -/

/-- The tags without a reaction of their own are among the tags, in their order. -/
lemma splitUsed_sublist (records : List Json) (order : List ℕ) (used : List ReactionId) :
    (splitUsed lib records order used).2.Sublist order := by
  induction order generalizing used with
  | nil => exact List.Sublist.slnil
  | cons index order ih =>
    rw [splitUsed]
    split_ifs
    · exact (ih used).cons_cons index
    · exact (ih _).cons index

/-- The used reactions are the valid ones of the tags. -/
lemma mem_splitUsed (records : List Json) (order : List ℕ) (used : List ReactionId) (id : ReactionId) :
    id ∈ (splitUsed lib records order used).1 ↔
      id ∈ used ∨ validReaction lib id = true ∧ ∃ index ∈ order, readReaction (tagAt records index) = id := by
  induction order generalizing used with
  | nil => simp [splitUsed]
  | cons index order ih =>
    rw [splitUsed]
    split_ifs with hmissing
    · rw [ih used, List.exists_mem_cons_iff]
      constructor
      · rintro (hused | ⟨hvalid, hexists⟩)
        · exact Or.inl hused
        · exact Or.inr ⟨hvalid, Or.inr hexists⟩
      · rintro (hused | ⟨hvalid, rfl | hexists⟩)
        · exact Or.inl hused
        · exact Or.inl (hmissing.resolve_left (not_not.mpr hvalid))
        · exact Or.inr ⟨hvalid, hexists⟩
    · obtain ⟨hvalid, hunused⟩ := not_or.mp hmissing
      rw [ih, List.mem_cons, List.exists_mem_cons_iff]
      constructor
      · rintro ((rfl | hused) | ⟨hvalid, hexists⟩)
        · exact Or.inr ⟨not_not.mp hvalid, Or.inl rfl⟩
        · exact Or.inl hused
        · exact Or.inr ⟨hvalid, Or.inr hexists⟩
      · rintro (hused | ⟨hvalid, rfl | hexists⟩)
        · exact Or.inl (Or.inr hused)
        · exact Or.inl (Or.inl rfl)
        · exact Or.inr ⟨hvalid, hexists⟩

/-- **The tags that keep their reaction have a valid one of their own.** -/
lemma splitUsed_kept {records : List Json} {order : List ℕ} (hnodup : order.Nodup) {used : List ReactionId} {index : ℕ}
    (hindex : index ∈ order) (hkept : index ∉ (splitUsed lib records order used).2) :
    validReaction lib (readReaction (tagAt records index)) = true ∧
      readReaction (tagAt records index) ∉ used ∧
      ∀ other ∈ order, other ∉ (splitUsed lib records order used).2 →
        readReaction (tagAt records other) = readReaction (tagAt records index) → other = index := by
  induction order generalizing used index with
  | nil => exact absurd hindex List.not_mem_nil
  | cons first order ih =>
    obtain ⟨hfirst, hrest⟩ := List.nodup_cons.mp hnodup
    rw [splitUsed] at hkept ⊢
    split_ifs at hkept ⊢ with hmissing
    · obtain ⟨hne, hkept⟩ := not_or.mp (fun h => hkept (List.mem_cons.mpr h))
      obtain ⟨hvalid, hunused, hown⟩ := ih hrest ((List.mem_cons.mp hindex).resolve_left hne) hkept
      refine ⟨hvalid, hunused, fun other hother hotherKept heq => ?_⟩
      obtain ⟨hotherNe, hotherKept⟩ := not_or.mp (fun h => hotherKept (List.mem_cons.mpr h))
      exact hown other ((List.mem_cons.mp hother).resolve_left hotherNe) hotherKept heq
    · obtain ⟨hvalid, hunused⟩ := not_or.mp hmissing
      rcases List.mem_cons.mp hindex with rfl | hindex
      · refine ⟨not_not.mp hvalid, hunused, fun other hother hotherKept heq => ?_⟩
        rcases List.mem_cons.mp hother with rfl | hother
        · rfl
        · obtain ⟨-, hotherUnused, -⟩ := ih hrest hother hotherKept
          exact absurd (heq ▸ List.mem_cons_self) hotherUnused
      · obtain ⟨hvalid', hunused', hown⟩ := ih hrest hindex hkept
        rw [List.mem_cons, not_or] at hunused'
        refine ⟨hvalid', hunused'.2, fun other hother hotherKept heq => ?_⟩
        rcases List.mem_cons.mp hother with rfl | hother
        · exact absurd heq.symm hunused'.1
        · exact hown other hother hotherKept heq

/-- **The first tag of a valid reaction keeps it.** -/
lemma splitUsed_first {records : List Json} {a b : List ℕ} {index : ℕ} (hnodup : (a ++ index :: b).Nodup)
    {used : List ReactionId} (hvalid : validReaction lib (readReaction (tagAt records index)) = true)
    (hunused : readReaction (tagAt records index) ∉ used)
    (hfirst : ∀ other ∈ a, readReaction (tagAt records other) ≠ readReaction (tagAt records index)) :
    index ∉ (splitUsed lib records (a ++ index :: b) used).2 := by
  induction a generalizing used with
  | nil =>
    obtain ⟨hindex, -⟩ := List.nodup_cons.mp hnodup
    rw [List.nil_append, splitUsed]
    rw [if_neg (not_or.mpr ⟨not_not.mpr hvalid, hunused⟩)]
    exact fun hmem => hindex ((splitUsed_sublist _ _ _).subset hmem)
  | cons first a ih =>
    obtain ⟨hne, hrest⟩ := List.nodup_cons.mp hnodup
    obtain ⟨hfirstNe, hfirst⟩ := List.forall_mem_cons.mp hfirst
    have hindexNe : index ≠ first := fun heq => hne (heq ▸ List.mem_append_right _ List.mem_cons_self)
    rw [List.cons_append, splitUsed]
    split_ifs
    · rw [List.mem_cons, not_or]
      exact ⟨hindexNe, ih hrest hunused hfirst⟩
    · refine ih hrest ?_ hfirst
      rw [List.mem_cons, not_or]
      exact ⟨fun heq => hfirstNe heq.symm, hunused⟩

/-- Where each tag has a valid reaction of its own, all keep theirs. -/
lemma splitUsed_of_distinct {records : List Json} {order : List ℕ} (hnodup : order.Nodup)
    (hvalid : ∀ index ∈ order, validReaction lib (readReaction (tagAt records index)) = true)
    (hown : ∀ index ∈ order, ∀ other ∈ order,
      readReaction (tagAt records other) = readReaction (tagAt records index) → other = index) :
    (splitUsed lib records order []).2 = [] := by
  rw [List.eq_nil_iff_forall_not_mem]
  intro index hmem
  have hindex : index ∈ order := (splitUsed_sublist _ _ _).subset hmem
  obtain ⟨a, b, rfl⟩ := List.append_of_mem hindex
  refine splitUsed_first hnodup (hvalid index hindex) List.not_mem_nil (fun other hother heq => ?_) hmem
  have hsame := hown index hindex other (List.mem_append_left _ hother) heq
  exact (List.nodup_append.mp hnodup).2.2 other hother index List.mem_cons_self hsame

/-! ### The third pass -/

variable (lib) in
/-- The emojis of the palette and the ids of the known emojis are reactions. -/
structure EmojiLibrary.Lawful : Prop where
  palette : ∀ emoji ∈ palette lib, validReaction lib (.emoji emoji) = true
  ids : ∀ text id length, lib.find text = some (id, length) → validReaction lib (.emoji id) = true

lemma tagAt_eq {records records' : List Json} {index : ℕ} (h : records'[index]? = records[index]?) :
    tagAt records' index = tagAt records index := by
  rw [tagAt, tagAt, List.getD_eq_getElem?_getD, List.getD_eq_getElem?_getD, h]

lemma tagAt_of_eq {records : List Json} {index : ℕ} {record : JObject}
    (h : records[index]? = some (Json.ofObject record)) : tagAt records index = record := by
  rw [tagAt, List.getD_eq_getElem?_getD, h]
  exact Json.toObject_ofObject record

/-- The emoji of a tag is one that the program knows, or no reaction. -/
lemma legacyReaction_emoji (record : JObject) : ∃ value, legacyReaction lib record = .emoji value := by
  rw [legacyReaction]
  split_ifs
  · exact ⟨_, rfl⟩
  · exact ⟨_, rfl⟩

/-- What holds within the third pass: what is used is reserved, and the palette has reactions. -/
structure Giving.Sound (lib : EmojiLibrary) (giving : Giving) : Prop where
  reserved : ∀ id ∈ giving.used, id ∈ giving.reserved
  next : ∀ emoji ∈ giving.next, validReaction lib (.emoji emoji) = true

/-- **A tag gets a valid reaction that no tag has.** -/
lemma giveTag_ok {giving giving' : Giving} {index : ℕ} (hsound : giving.Sound lib)
    (h : giveTag lib giving index = some giving') :
    ∃ value next, validReaction lib (.emoji value) = true ∧ ReactionId.emoji value ∉ giving.used ∧
      giving' = giving.give index (.emoji value) next ∧ giving'.Sound lib := by
  have hkeeps : ∀ value next, (∀ emoji ∈ next, emoji ∈ giving.next) →
      (giving.give index (.emoji value) next).Sound lib := fun value next hnext => by
    refine ⟨fun id hid => ?_, fun emoji hemoji => hsound.next emoji (hnext emoji hemoji)⟩
    rcases List.mem_cons.mp hid with rfl | hid
    · exact List.mem_cons_self
    · exact List.mem_cons_of_mem _ (hsound.reserved id hid)
  rw [giveTag] at h
  split_ifs at h with hpalette
  · rcases hrest : giving.next.dropWhile fun emoji => decide (ReactionId.emoji emoji ∈ giving.reserved) with
      _ | ⟨value, next⟩
    · rw [hrest] at h
      cases h
    · rw [hrest] at h
      cases h
      have hsublist : (value :: next).Sublist giving.next := hrest ▸ List.dropWhile_sublist _
      have hunreserved : ReactionId.emoji value ∉ giving.reserved := by
        have hhead := List.head_dropWhile_not
          (fun emoji => decide (ReactionId.emoji emoji ∈ giving.reserved)) (l := giving.next) (by rw [hrest]; simp)
        simp only [hrest, List.head_cons] at hhead
        exact of_decide_eq_false hhead
      refine ⟨value, next, hsound.next value (hsublist.subset List.mem_cons_self),
        fun hused => hunreserved (hsound.reserved _ hused), rfl, hkeeps value next fun emoji hemoji => ?_⟩
      exact hsublist.subset (List.mem_cons_of_mem _ hemoji)
  · cases h
    obtain ⟨hvalid, hunused⟩ := not_or.mp hpalette
    obtain ⟨value, hvalue⟩ : ∃ value, legacyReaction lib (tagAt giving.records index) = .emoji value :=
      legacyReaction_emoji _
    rw [hvalue] at hvalid hunused ⊢
    exact ⟨value, giving.next, not_not.mp hvalid, hunused, rfl, hkeeps value _ fun _ hemoji => hemoji⟩

/-- **What the tags without a reaction get**: each a valid one that no other tag has, with all other records as they
were. -/
theorem giveTags_ok {missing : List ℕ} {giving giving' : Giving} (hsound : giving.Sound lib) (hnodup : missing.Nodup)
    (hbound : ∀ index ∈ missing, index < giving.records.length) (h : giveTags lib missing giving = some giving') :
    giving'.records.length = giving.records.length ∧
      (∀ index, index ∉ missing → giving'.records[index]? = giving.records[index]?) ∧
      (∀ index ∈ missing, ∃ value, validReaction lib (.emoji value) = true ∧ ReactionId.emoji value ∉ giving.used ∧
        giving'.records[index]? =
          some (Json.ofObject (replaceReaction (tagAt giving.records index) (.emoji value)))) ∧
      ∀ index ∈ missing, ∀ other ∈ missing,
        readReaction (tagAt giving'.records other) = readReaction (tagAt giving'.records index) → other = index := by
  induction missing generalizing giving with
  | nil =>
    cases h
    exact ⟨rfl, fun _ _ => rfl, fun _ h => absurd h List.not_mem_nil, fun _ h => absurd h List.not_mem_nil⟩
  | cons first missing ih =>
    obtain ⟨hfirst, hrest⟩ := List.nodup_cons.mp hnodup
    obtain ⟨hfirstBound, hrestBound⟩ := List.forall_mem_cons.mp hbound
    obtain ⟨middle, hstep, hthen⟩ := Option.bind_eq_some_iff.mp h
    obtain ⟨value, next, hvalid, hunused, rfl, hsound'⟩ := giveTag_ok hsound hstep
    have hsize : (giving.give first (.emoji value) next).records.length = giving.records.length :=
      List.length_set
    obtain ⟨hlength, hothers, hgiven, hown⟩ := ih hsound' hrest (by rwa [hsize]) hthen
    -- The record of the first tag stays as this step has left it.
    have hfirstRecord : giving'.records[first]? =
        some (Json.ofObject (replaceReaction (tagAt giving.records first) (.emoji value))) := by
      rw [hothers first hfirst]
      exact List.getElem?_set_self hfirstBound
    have hunchanged : ∀ index, index ≠ first →
        (giving.give first (.emoji value) next).records[index]? = giving.records[index]? := fun index hne =>
      List.getElem?_set_ne (Ne.symm hne)
    have hfirstReaction : readReaction (tagAt giving'.records first) = .emoji value := by
      rw [tagAt_of_eq hfirstRecord, readReaction_replaceReaction hvalid]
    have hnotFirst : ∀ index ∈ missing, readReaction (tagAt giving'.records index) ≠ .emoji value :=
      fun index hindex heq => by
        obtain ⟨value', hvalid', hunused', hrecord⟩ := hgiven index hindex
        rw [tagAt_of_eq hrecord, readReaction_replaceReaction hvalid'] at heq
        exact hunused' (heq ▸ List.mem_cons_self)
    refine ⟨hlength.trans hsize, fun index hindex => ?_, fun index hindex => ?_, fun index hindex other hother heq => ?_⟩
    · rw [List.mem_cons, not_or] at hindex
      rw [hothers index hindex.2, hunchanged index hindex.1]
    · rcases List.mem_cons.mp hindex with rfl | hindex
      · exact ⟨value, hvalid, hunused, hfirstRecord⟩
      · obtain ⟨value', hvalid', hunused', hrecord⟩ := hgiven index hindex
        have hne : index ≠ first := fun heq => hfirst (heq ▸ hindex)
        rw [tagAt_eq (hunchanged index hne)] at hrecord
        exact ⟨value', hvalid', fun hused => hunused' (List.mem_cons_of_mem _ hused), hrecord⟩
    · rcases List.mem_cons.mp hindex with rfl | hlater
      · rcases List.mem_cons.mp hother with rfl | hother
        · rfl
        · exact absurd (heq.trans hfirstReaction) (hnotFirst other hother)
      · rcases List.mem_cons.mp hother with rfl | hother
        · exact absurd (heq.symm.trans hfirstReaction) (hnotFirst index hlater)
        · exact hown index hlater other hother heq

/-! ### The module after the pass -/

lemma mem_activeTags {records : List Json} {index : ℕ} :
    index ∈ activeTags records ↔ activeTag (tagAt records index) = true := by
  rw [activeTags, List.mem_filter, List.mem_range]
  refine and_iff_right_of_imp fun hactive => ?_
  by_contra hbound
  have hnone : records[index]? = none := List.getElem?_eq_none (not_lt.mp hbound)
  have hempty : tagAt records index = ∅ := by
    rw [tagAt, List.getD_eq_getElem?_getD, hnone]
    rfl
  rw [hempty] at hactive
  exact absurd hactive (by decide)

lemma IsOrder.mem {records : List Json} {order : List ℕ} (h : IsOrder records order) {index : ℕ} :
    index ∈ order ↔ activeTag (tagAt records index) = true := by
  rw [h.perm.mem_iff, mem_activeTags]

lemma IsOrder.nodup {records : List Json} {order : List ℕ} (h : IsOrder records order) : order.Nodup :=
  h.perm.nodup_iff.mpr (List.nodup_range.filter _)

variable (lib) in
/-- **A module whose tags have got their reactions**, in the order that the sorting has made. -/
structure Normalized (order : List ℕ) (module module' : JObject) : Prop where
  version : schemaVersion module' = 2
  /-- Nothing but the records and the version of the module is changed. -/
  others : ∀ key, key ≠ u "records" → key ≠ u "schema_version" → module'.find key = module.find key
  /-- No record is added or removed. -/
  count : (recordArray module').length = (recordArray module).length
  /-- What is no active tag is as it was. -/
  untouched : ∀ index, activeTag (tagAt (recordArray module) index) = false →
    (recordArray module')[index]? = (recordArray module)[index]?
  /-- Nothing but the reactions of a record is changed. -/
  fields : ∀ index key, key ≠ u "native_reaction" → key ≠ u "previous_native_reactions" →
    (tagAt (recordArray module') index).find key = (tagAt (recordArray module) index).find key
  /-- No tag is activated or deactivated. -/
  active : ∀ index, activeTag (tagAt (recordArray module') index) = activeTag (tagAt (recordArray module) index)
  /-- Each active tag has a valid reaction. -/
  valid : ∀ index, activeTag (tagAt (recordArray module') index) = true →
    validReaction lib (readReaction (tagAt (recordArray module') index)) = true
  /-- No two active tags have the same reaction. -/
  distinct : ∀ index other, activeTag (tagAt (recordArray module') index) = true →
    activeTag (tagAt (recordArray module') other) = true →
    readReaction (tagAt (recordArray module') other) = readReaction (tagAt (recordArray module') index) →
    other = index
  /-- The first tag of a valid reaction is as it was. -/
  keeps : ∀ a index b, order = a ++ index :: b →
    validReaction lib (readReaction (tagAt (recordArray module) index)) = true →
    (∀ other ∈ a, readReaction (tagAt (recordArray module) other) ≠
      readReaction (tagAt (recordArray module) index)) →
    (recordArray module')[index]? = (recordArray module)[index]?
  /-- A reaction that is replaced is kept aside. -/
  keptAside : ∀ index old, (tagAt (recordArray module) index).find (u "native_reaction") = some old →
    old.isObject = true → (tagAt (recordArray module') index).find (u "native_reaction") = some old ∨
      old ∈ Json.asArray ((tagAt (recordArray module') index).find (u "previous_native_reactions"))
  /-- A second run, in any order that the sorting can make, changes nothing. -/
  again : ∀ order', IsOrder (recordArray module') order' → normalizeNativeTags lib order' module' = (module', .ok ())

/-- A module in which each active tag has a valid reaction of its own is left as it is. -/
lemma normalizeNativeTags_of_distinct {records : List Json} {module : JObject} (hversion : schemaVersion module = 2)
    (hrecords : module.find (u "records") = some (.arr records))
    (hnumber : module.find (u "schema_version") = some (.num 2))
    (hvalid : ∀ index, activeTag (tagAt records index) = true →
      validReaction lib (readReaction (tagAt records index)) = true)
    (hdistinct : ∀ index other, activeTag (tagAt records index) = true → activeTag (tagAt records other) = true →
      readReaction (tagAt records other) = readReaction (tagAt records index) → other = index)
    {order : List ℕ} (horder : IsOrder records order) : normalizeNativeTags lib order module = (module, .ok ()) := by
  have hnone : (splitUsed lib records order []).2 = [] :=
    splitUsed_of_distinct horder.nodup (fun index hindex => hvalid index (horder.mem.mp hindex))
    fun index hindex other hother => hdistinct index other (horder.mem.mp hindex) (horder.mem.mp hother)
  have harray : recordArray module = records := by rw [recordArray, hrecords, Json.asArray_arr]
  rw [normalizeNativeTags, if_neg (by rw [hversion]; decide), harray]
  dsimp only
  rw [hnone, giveTags]
  dsimp only
  rw [OrdMap.insert_find hrecords, OrdMap.insert_find hnumber]

lemma subset_reserve (records : List Json) (missing : List ℕ) {used : List ReactionId} {id : ReactionId}
    (h : id ∈ used) :
    id ∈ reserve lib records missing used := by
  unfold reserve
  induction missing generalizing used with
  | nil => exact h
  | cons index missing ih =>
    refine ih ?_
    dsimp only
    split_ifs
    · exact List.mem_cons_of_mem _ h
    · exact h

/-- The third pass as it starts. -/
def Giving.start (lib : EmojiLibrary) (records : List Json) (order : List ℕ) : Giving where
  records := records
  next := palette lib
  used := (splitUsed lib records order []).1
  reserved := reserve lib records (splitUsed lib records order []).2 (splitUsed lib records order []).1

lemma Giving.sound_start (hlib : EmojiLibrary.Lawful lib) (records : List Json) (order : List ℕ) :
    (Giving.start lib records order).Sound lib :=
  ⟨fun _ hid => subset_reserve _ _ hid, hlib.palette⟩

/-- What the three passes make of the records. -/
lemma giveTags_start (hlib : EmojiLibrary.Lawful lib) {records : List Json} {order : List ℕ}
    (horder : IsOrder records order) {giving : Giving}
    (h : giveTags lib (splitUsed lib records order []).2 (Giving.start lib records order) = some giving) :
    giving.records.length = records.length ∧
      (∀ index, index ∉ (splitUsed lib records order []).2 → giving.records[index]? = records[index]?) ∧
      (∀ index ∈ (splitUsed lib records order []).2, ∃ value, validReaction lib (.emoji value) = true ∧
        ReactionId.emoji value ∉ (splitUsed lib records order []).1 ∧ giving.records[index]? =
          some (Json.ofObject (replaceReaction (tagAt records index) (.emoji value)))) ∧
      ∀ index ∈ (splitUsed lib records order []).2, ∀ other ∈ (splitUsed lib records order []).2,
        readReaction (tagAt giving.records other) = readReaction (tagAt giving.records index) → other = index := by
  have hsublist : (splitUsed lib records order []).2.Sublist order := splitUsed_sublist records order []
  refine giveTags_ok (Giving.sound_start hlib records order) (horder.nodup.sublist hsublist) (fun index hindex => ?_) h
  have hactive := horder.mem.mp (hsublist.subset hindex)
  exact List.mem_range.mp (List.mem_filter.mp (mem_activeTags.mpr hactive)).1

/-- After the three passes each tag has a valid reaction of its own. -/
lemma distinct_of_giveTags (hlib : EmojiLibrary.Lawful lib) {records : List Json} {order : List ℕ}
    (horder : IsOrder records order) {giving : Giving}
    (h : giveTags lib (splitUsed lib records order []).2 (Giving.start lib records order) = some giving) :
    (∀ index ∈ order, validReaction lib (readReaction (tagAt giving.records index)) = true) ∧
      ∀ index ∈ order, ∀ other ∈ order,
        readReaction (tagAt giving.records other) = readReaction (tagAt giving.records index) → other = index := by
  obtain ⟨-, hothers, hgiven, hown⟩ := giveTags_start hlib horder h
  have hkept : ∀ index ∈ order, index ∉ (splitUsed lib records order []).2 →
      validReaction lib (readReaction (tagAt giving.records index)) = true ∧
        readReaction (tagAt giving.records index) ∈ (splitUsed lib records order []).1 := fun index hindex hnot => by
    have hvalid := (splitUsed_kept horder.nodup hindex hnot).1
    rw [tagAt_eq (hothers index hnot)]
    exact ⟨hvalid, (mem_splitUsed _ _ _ _).mpr (Or.inr ⟨hvalid, index, hindex, rfl⟩)⟩
  have hnew : ∀ index ∈ (splitUsed lib records order []).2,
      validReaction lib (readReaction (tagAt giving.records index)) = true ∧
        readReaction (tagAt giving.records index) ∉ (splitUsed lib records order []).1 := fun index hindex => by
    obtain ⟨value, hvalid, hunused, hrecord⟩ := hgiven index hindex
    rw [tagAt_of_eq hrecord, readReaction_replaceReaction hvalid]
    exact ⟨hvalid, hunused⟩
  refine ⟨fun index hindex => ?_, fun index hindex other hother heq => ?_⟩
  · by_cases hmem : index ∈ (splitUsed lib records order []).2
    · exact (hnew index hmem).1
    · exact (hkept index hindex hmem).1
  · by_cases hmem : index ∈ (splitUsed lib records order []).2
    · by_cases hotherMem : other ∈ (splitUsed lib records order []).2
      · exact hown index hmem other hotherMem heq
      · exact absurd (heq ▸ (hkept other hother hotherMem).2) (hnew index hmem).2
    · by_cases hotherMem : other ∈ (splitUsed lib records order []).2
      · exact absurd (heq.symm ▸ (hkept index hindex hmem).2) (hnew other hotherMem).2
      · rw [tagAt_eq (hothers index hmem), tagAt_eq (hothers other hotherMem)] at heq
        exact (splitUsed_kept horder.nodup hindex hmem).2.2 other hother hotherMem heq

lemma activeTag_congr {record record' : JObject}
    (h : ∀ key, key ≠ u "native_reaction" → key ≠ u "previous_native_reactions" → record'.find key = record.find key) :
    activeTag record' = activeTag record := by
  rw [activeTag, activeTag, isDeleted, isDeleted, recordKind, recordKind, h (u "deleted") (by decide) (by decide),
    h (u "kind") (by decide) (by decide)]

/-- The records after the three passes make a normalized module. -/
lemma normalized_of_giveTags (hlib : EmojiLibrary.Lawful lib) {module : JObject} {order : List ℕ}
    (horder : IsOrder (recordArray module) order) {giving : Giving}
    (h : giveTags lib (splitUsed lib (recordArray module) order []).2 (Giving.start lib (recordArray module) order) =
      some giving) :
    Normalized lib order module
      ((module.insert (u "records") (.arr giving.records)).insert (u "schema_version") (.num 2)) := by
  obtain ⟨hlength, hothers, hgiven, -⟩ := giveTags_start hlib horder h
  obtain ⟨hvalid, hdistinct⟩ := distinct_of_giveTags hlib horder h
  obtain ⟨module', hmodule'⟩ : ∃ module', module' =
    (module.insert (u "records") (.arr giving.records)).insert (u "schema_version") (.num 2) := ⟨_, rfl⟩
  have hnumber : module'.find (u "schema_version") = some (.num 2) := by
    rw [hmodule', OrdMap.find_insert, if_pos rfl]
  have hrecords : module'.find (u "records") = some (.arr giving.records) := by
    rw [hmodule', OrdMap.find_insert, if_neg (by decide), OrdMap.find_insert, if_pos rfl]
  have harray : recordArray module' = giving.records := by rw [recordArray, hrecords, Json.asArray_arr]
  have hversion : schemaVersion module' = 2 := by
    rw [schemaVersion, hnumber]
    decide
  have hfields : ∀ index key, key ≠ u "native_reaction" → key ≠ u "previous_native_reactions" →
      (tagAt giving.records index).find key = (tagAt (recordArray module) index).find key :=
    fun index key hnative hprevious => by
      by_cases hmem : index ∈ (splitUsed lib (recordArray module) order []).2
      · obtain ⟨value, -, -, hrecord⟩ := hgiven index hmem
        rw [tagAt_of_eq hrecord, find_replaceReaction _ _ hnative hprevious]
      · rw [tagAt_eq (hothers index hmem)]
  have hactive : ∀ index, activeTag (tagAt giving.records index) =
      activeTag (tagAt (recordArray module) index) := fun index => activeTag_congr (hfields index)
  have hmem : ∀ index, activeTag (tagAt giving.records index) = true → index ∈ order := fun index hindex =>
    horder.mem.mpr (hactive index ▸ hindex)
  rw [← hmodule']
  refine
    { version := hversion, others := ?_, count := ?_, untouched := ?_, fields := ?_, active := ?_, valid := ?_,
      distinct := ?_, keeps := ?_, keptAside := ?_, again := ?_ }
  · intro key hrecordsKey hversionKey
    rw [hmodule', OrdMap.find_insert, if_neg hversionKey, OrdMap.find_insert, if_neg hrecordsKey]
  · rw [harray, hlength]
  · intro index hinactive
    rw [harray]
    refine hothers index fun hmissing => ?_
    have := horder.mem.mp ((splitUsed_sublist _ _ _).subset hmissing)
    rw [hinactive] at this
    exact absurd this (by decide)
  · intro index key
    rw [harray]
    exact hfields index key
  · intro index
    rw [harray]
    exact hactive index
  · intro index hindex
    rw [harray] at hindex ⊢
    exact hvalid index (hmem index hindex)
  · intro index other hindex hother
    rw [harray] at hindex hother ⊢
    exact hdistinct index (hmem index hindex) other (hmem other hother)
  · intro a index b hsplit hreaction hbefore
    rw [harray]
    have hnodup := horder.nodup
    subst hsplit
    exact hothers index (splitUsed_first hnodup hreaction List.not_mem_nil hbefore)
  · intro index old hold hobject
    rw [harray]
    by_cases hmissing : index ∈ (splitUsed lib (recordArray module) order []).2
    · obtain ⟨value, -, -, hrecord⟩ := hgiven index hmissing
      rw [tagAt_of_eq hrecord]
      exact Or.inr (mem_previous _ _ hold hobject)
    · rw [tagAt_eq (hothers index hmissing)]
      exact Or.inl hold
  · intro order' horder'
    rw [harray] at horder'
    exact normalizeNativeTags_of_distinct hversion hrecords hnumber
      (fun index hindex => hvalid index (hmem index hindex))
      (fun index other hindex hother => hdistinct index (hmem index hindex) other (hmem other hother)) horder'

/-- **Every tag has its own reaction after the pass**: a module of a supported version is normalized, or it is left as it
is with a fault. -/
theorem every_tag_has_its_reaction (hlib : EmojiLibrary.Lawful lib) (module : JObject)
    (hversion : schemaVersion module = 1 ∨ schemaVersion module = 2) {order : List ℕ}
    (horder : IsOrder (recordArray module) order) :
    ((normalizeNativeTags lib order module).2 = .ok () →
      Normalized lib order module (normalizeNativeTags lib order module).1) ∧
    ∀ fault, (normalizeNativeTags lib order module).2 = .error fault →
      (normalizeNativeTags lib order module).1 = module := by
  have hsupported : ¬ (schemaVersion module ≠ 1 ∧ schemaVersion module ≠ 2) := fun h =>
    hversion.elim h.1 h.2
  have hpass : normalizeNativeTags lib order module =
      match giveTags lib (splitUsed lib (recordArray module) order []).2
        (Giving.start lib (recordArray module) order) with
      | none => (module, failure .invalid "No unused emoji is available for legacy tags.")
      | some giving =>
        ((module.insert (u "records") (.arr giving.records)).insert (u "schema_version") (.num 2), .ok ()) := by
    rw [normalizeNativeTags, if_neg hsupported]
    rfl
  rw [hpass]
  rcases hgiving : giveTags lib (splitUsed lib (recordArray module) order []).2
    (Giving.start lib (recordArray module) order) with _ | giving
  · exact ⟨fun hok => absurd hok (failure_ne_ok _ _ _), fun _ _ => rfl⟩
  · exact ⟨fun _ => normalized_of_giveTags hlib horder hgiving, fun _ hfault => by cases hfault⟩

end Pass

/-- A library that knows the emojis of the palette, each under itself. -/
def paletteLibrary : EmojiLibrary where
  find text := if text ∈ basePalette then some (text, text.length) else none
  sections := []

lemma lawful_paletteLibrary : EmojiLibrary.Lawful paletteLibrary := by
  have hbase : ∀ emoji ∈ basePalette, validReaction paletteLibrary (.emoji emoji) = true := by decide
  refine ⟨fun emoji hemoji => hbase emoji ?_, fun text id length hfind => ?_⟩
  · rwa [palette, paletteLibrary, List.flatten_nil, List.append_nil] at hemoji
  · unfold paletteLibrary at hfind
    dsimp only at hfind
    split_ifs at hfind with hmem
    cases hfind
    exact hbase text hmem

/-- A module with two tags of the same emoji. -/
def twoTags : JObject :=
  object [(u "schema_version", .num 1), (u "records", .arr
    [Json.ofObject (object [(u "id", .str (u "a")), (u "kind", .str (u "tag")), (u "emoji", .str (u "🔥"))]),
      Json.ofObject (object [(u "id", .str (u "b")), (u "kind", .str (u "tag")), (u "emoji", .str (u "🔥"))])])]

theorem two_tags_have_their_reactions :
    ((normalizeNativeTags paletteLibrary [0, 1] twoTags).2 = .ok () →
      Normalized paletteLibrary [0, 1] twoTags (normalizeNativeTags paletteLibrary [0, 1] twoTags).1) ∧
    ∀ fault, (normalizeNativeTags paletteLibrary [0, 1] twoTags).2 = .error fault →
      (normalizeNativeTags paletteLibrary [0, 1] twoTags).1 = twoTags :=
  every_tag_has_its_reaction lawful_paletteLibrary twoTags (Or.inl (by decide))
    ⟨by decide, by decide⟩

end LocalData
