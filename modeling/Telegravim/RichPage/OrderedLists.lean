import Telegravim.RichPage.Blocks

set_option autoImplicit false

/-!
# Ordered lists of the editor

The items of an ordered list are numbered one after another from a start; an item may have a
number of its own, and the following ones go on from there. The editor splits a list when
something is dropped between its items, and joins lists that come to stand side by side.

Numbers are integers without a bound here and indexes are natural numbers; the source keeps both
in 32 bits. A block has the fields that lists use.

## Main definitions

* `RichPage.Editor.effectiveOrderedItemValue`, `RichPage.Editor.effectiveOrderedListType` — the number of an item and
  the style it is written in.
* `RichPage.Editor.splitListAt` — the two lists that a drop into a list leaves.
* `RichPage.Editor.listsJoinSeamlessly`, `RichPage.Editor.joinListWithSiblings` — the join with the neighbours.
* `RichPage.Editor.KeepsNumbers` — what a join is expected to keep.

## Main results

* `RichPage.Editor.splitListAt_keeps_numbers` — a split keeps all numbers.
* `RichPage.Editor.joinListWithSiblings_spec` — what a join puts together.
* `RichPage.Editor.lists_keep_numbers` — a join keeps the numbers, unless the list between two others goes on from the
  first of them and the other one was numbered for what the list was before.
-/

namespace RichPage.Editor

open Text

/-! ### Lists -/

inductive ListKind where
  | bullet
  | ordered
  deriving DecidableEq

inductive TaskState where
  | none
  | unchecked
  | checked
  deriving DecidableEq

structure OrderedListData where
  reversed : Bool := false
  start : Option ℤ := none
  type : Option Text := none
  deriving DecidableEq

structure OrderedListItemData where
  num : Option Text := none
  value : Option ℤ := none
  type : Option Text := none
  deriving DecidableEq

structure ListItem (Block : Type) where
  taskState : TaskState := .none
  number : OrderedListItemData := {}
  anchorId : Text := []
  text : RichText := {}
  blocks : List Block := []

structure Block where
  kind : BlockKind := .unsupported
  anchorId : Text := []
  text : RichText := {}
  listKind : ListKind := .bullet
  orderedList : OrderedListData := {}
  blocks : List Block := []
  listItems : List (ListItem Block) := []

inductive PreparedOrderedListType where
  | decimal
  | lowerAlpha
  | upperAlpha
  | lowerRoman
  | upperRoman
  deriving DecidableEq

/-- Texts that differ in the case of letters at most. No other letters than those of ASCII have the letters of the
style names as their lower case. -/
def sameIgnoringCase (text other : Text) : Bool := toUpper text == toUpper other

def resolvePreparedOrderedListType : Option Text → PreparedOrderedListType
  | none => .decimal
  | some value =>
    if value = u "a" ∨ sameIgnoringCase value (u "lower-alpha") ∨ sameIgnoringCase value (u "lower-latin") then
      .lowerAlpha
    else if value = u "A" ∨ sameIgnoringCase value (u "upper-alpha") ∨ sameIgnoringCase value (u "upper-latin") then
      .upperAlpha
    else if value = u "i" ∨ sameIgnoringCase value (u "lower-roman") then .lowerRoman
    else if value = u "I" ∨ sameIgnoringCase value (u "upper-roman") then .upperRoman
    else .decimal

def effectiveOrderedListType (block : Block) (item : ListItem Block) : PreparedOrderedListType :=
  if item.number.type.isSome then resolvePreparedOrderedListType item.number.type
  else resolvePreparedOrderedListType block.orderedList.type

def orderedListSequenceStart (block : Block) : ℤ :=
  block.orderedList.start.getD (if block.orderedList.reversed then (block.listItems.length : ℤ) else 1)

def orderedListSequenceStep (block : Block) : ℤ := if block.orderedList.reversed then -1 else 1

/-- The loop over the items: `next` is the number of the first of them if it has none of its own. -/
def itemValueFrom (step next : ℤ) : List (ListItem Block) → ℕ → Option ℤ
  | [], _ => none
  | item :: _, 0 => some (item.number.value.getD next)
  | item :: items, index + 1 => itemValueFrom step (item.number.value.getD next + step) items index

def effectiveOrderedItemValue (block : Block) (itemIndex : ℕ) : Option ℤ :=
  if block.kind ≠ .list ∨ block.listKind ≠ .ordered ∨ block.listItems.length ≤ itemIndex then none
  else itemValueFrom (orderedListSequenceStep block) (orderedListSequenceStart block) block.listItems itemIndex

def listIsTaskList (block : Block) : Bool := block.listItems.any fun item => item.taskState ≠ .none

def listsJoinable (first second : Block) : Bool :=
  first.kind = .list ∧ second.kind = .list ∧ first.listKind = second.listKind ∧
    listIsTaskList first = listIsTaskList second

/-- Whether a list has a numbering of its own. -/
def ownNumbering (block : Block) (startExplicit : Bool) : Bool :=
  startExplicit || block.orderedList.start.isSome || block.listItems.any fun item => item.number ≠ {}

def listsJoinSeamlessly (first second : Block) (secondStartExplicit : Bool) : Bool :=
  if !listsJoinable first second ∨ first.listItems.isEmpty ∨ second.listItems.isEmpty then false
  else if first.listKind ≠ .ordered then true
  else if first.orderedList.reversed ∨ second.orderedList.reversed then false
  else if resolvePreparedOrderedListType first.orderedList.type ≠
      resolvePreparedOrderedListType second.orderedList.type then
    false
  else if !ownNumbering second secondStartExplicit then true
  else
    match effectiveOrderedItemValue first (first.listItems.length - 1), effectiveOrderedItemValue second 0 with
    | some last, some next => last + 1 = next
    | _, _ => false

/-! ### The split of a list -/

def clearOrderedListData (item : ListItem Block) : ListItem Block := { item with number := {} }

def resetNonOrderedListMetadata (block : Block) : Block :=
  if block.kind ≠ .list then block
  else { block with orderedList := {}, listItems := block.listItems.map clearOrderedListData }

mutual

def normalizeInsertedOrderedListMetadata : Block → Block
  | ⟨kind, anchorId, text, listKind, orderedList, blocks, listItems⟩ =>
    let block : Block :=
      ⟨kind, anchorId, text, listKind, orderedList, normalizeBlocks blocks, normalizeItems listItems⟩
    if block.kind ≠ .list then block
    else if block.listKind ≠ .ordered then resetNonOrderedListMetadata block
    else block

/-- The blocks within a block or an item. -/
def normalizeBlocks : List Block → List Block
  | [] => []
  | block :: blocks => normalizeInsertedOrderedListMetadata block :: normalizeBlocks blocks

/-- The items of a list, for the blocks within them. -/
def normalizeItems : List (ListItem Block) → List (ListItem Block)
  | [] => []
  | ⟨taskState, number, anchorId, text, blocks⟩ :: items =>
    ⟨taskState, number, anchorId, text, normalizeBlocks blocks⟩ :: normalizeItems items

end

/-- What a drop before an item leaves of a list: the list itself, and what is put in after the dropped content. -/
def splitListAt (owner : Block) (insertIndex : ℕ) : Block × List Block :=
  if 0 < insertIndex ∧ insertIndex < owner.listItems.length then
    let splitLeadingStart :=
      if owner.listKind = .ordered then effectiveOrderedItemValue owner 0 else none
    let splitTrailingStart :=
      if owner.listKind = .ordered then effectiveOrderedItemValue owner insertIndex else none
    let trailing : Block :=
      { kind := .list
        listKind := owner.listKind
        orderedList :=
          if splitTrailingStart.isSome then { owner.orderedList with start := splitTrailingStart }
          else owner.orderedList
        listItems := owner.listItems.drop insertIndex }
    let owner : Block :=
      { owner with
        listItems := owner.listItems.take insertIndex
        orderedList :=
          if splitLeadingStart.isSome then { owner.orderedList with start := splitLeadingStart }
          else owner.orderedList }
    (owner, normalizeBlocks [trailing])
  else (owner, [])

/-! ### The join of lists -/

structure ListJoin where
  index : ℕ
  itemsFrom : ℕ := 0
  itemsCount : ℕ := 0
  deriving DecidableEq

/-- A block of a container takes the items of the next one. -/
def joinAt (blocks : List Block) (index : ℕ) : List Block :=
  match blocks[index]?, blocks[index + 1]? with
  | some first, some second =>
    (blocks.set index { first with listItems := first.listItems ++ second.listItems }).eraseIdx (index + 1)
  | _, _ => blocks

def joinListWithSiblings (blocks : List Block) (index : ℕ) (startExplicit : Bool) : Option (ListJoin × List Block) :=
  match blocks[index]? with
  | none => none
  | some list =>
    if list.kind ≠ .list then none
    else
      let joinNext := (blocks[index + 1]?).any fun next => listsJoinSeamlessly list next false
      let joinPrevious := decide (0 < index) &&
        (blocks[index - 1]?).any fun previous => listsJoinSeamlessly previous list startExplicit
      if !joinNext && !joinPrevious then none
      else
        let result : ListJoin := { index, itemsCount := list.listItems.length }
        let blocks := if joinNext then joinAt blocks index else blocks
        if joinPrevious then
          let itemsFrom := ((blocks[index - 1]?).map fun previous => previous.listItems.length).getD 0
          some ({ result with index := index - 1, itemsFrom }, joinAt blocks (index - 1))
        else some (result, blocks)

/-! ### The numbers of a list -/

/-- The number after the items. -/
def nextAfter (step : ℤ) : ℤ → List (ListItem Block) → ℤ
  | next, [] => next
  | next, item :: items => nextAfter step (item.number.value.getD next + step) items

lemma itemValueFrom_of_length_le {step next : ℤ} {items : List (ListItem Block)} {index : ℕ}
    (h : items.length ≤ index) : itemValueFrom step next items index = none := by
  induction items generalizing next index with
  | nil => rfl
  | cons item items ih =>
    cases index with
    | zero => exact absurd h (Nat.not_succ_le_zero _)
    | succ index => exact ih (Nat.le_of_succ_le_succ h)

/-- Each item has a number. -/
lemma itemValueFrom_isSome {step next : ℤ} {items : List (ListItem Block)} {index : ℕ} (h : index < items.length) :
    (itemValueFrom step next items index).isSome = true := by
  induction items generalizing next index with
  | nil => exact absurd h (Nat.not_lt_zero _)
  | cons item items ih =>
    cases index with
    | zero => rfl
    | succ index => exact ih (Nat.lt_of_succ_lt_succ h)

/-- The number of an item of an ordered list. -/
lemma effectiveOrderedItemValue_eq {block : Block} (hkind : block.kind = .list) (hordered : block.listKind = .ordered)
    (itemIndex : ℕ) :
    effectiveOrderedItemValue block itemIndex =
      itemValueFrom (orderedListSequenceStep block) (orderedListSequenceStart block) block.listItems itemIndex := by
  rw [effectiveOrderedItemValue]
  split_ifs with h
  · have hle := (h.resolve_left (not_not.mpr hkind)).resolve_left (not_not.mpr hordered)
    exact (itemValueFrom_of_length_le hle).symm
  · rfl

lemma nextAfter_append (step next : ℤ) (items items' : List (ListItem Block)) :
    nextAfter step next (items ++ items') = nextAfter step (nextAfter step next items) items' := by
  induction items generalizing next with
  | nil => rfl
  | cons item items ih => exact ih _

/-- What follows does not change the numbers before it. -/
lemma itemValueFrom_append_left {step next : ℤ} {items : List (ListItem Block)} {index : ℕ}
    (h : index < items.length) (items' : List (ListItem Block)) :
    itemValueFrom step next (items ++ items') index = itemValueFrom step next items index := by
  induction items generalizing next index with
  | nil => exact absurd h (Nat.not_lt_zero _)
  | cons item items ih =>
    cases index with
    | zero => rfl
    | succ index => exact ih (Nat.lt_of_succ_lt_succ h)

/-- What follows goes on from the number after the items. -/
lemma itemValueFrom_append_right (step next : ℤ) (items items' : List (ListItem Block)) (index : ℕ) :
    itemValueFrom step next (items ++ items') (items.length + index) =
      itemValueFrom step (nextAfter step next items) items' index := by
  induction items generalizing next with
  | nil => rw [List.nil_append, List.length_nil, Nat.zero_add, nextAfter]
  | cons item items ih =>
    rw [List.length_cons, Nat.add_right_comm]
    exact ih _

/-- The number of the last item is the one before the next number. -/
lemma itemValueFrom_last {step next : ℤ} {items : List (ListItem Block)} (h : items ≠ []) :
    itemValueFrom step next items (items.length - 1) = some (nextAfter step next items - step) := by
  induction items generalizing next with
  | nil => exact absurd rfl h
  | cons item items ih =>
    cases items with
    | nil =>
      rw [nextAfter, nextAfter, add_sub_cancel_right]
      rfl
    | cons second items => exact ih (List.cons_ne_nil _ _)

/-- The numbers of the items depend on the number of the first one. -/
lemma itemValueFrom_of_head {step next next' : ℤ} {items : List (ListItem Block)}
    (h : itemValueFrom step next items 0 = itemValueFrom step next' items 0) (index : ℕ) :
    itemValueFrom step next items index = itemValueFrom step next' items index := by
  cases items with
  | nil => rfl
  | cons item items =>
    cases index with
    | zero => exact h
    | succ index =>
      have hhead := Option.some.inj h
      rw [itemValueFrom, itemValueFrom, hhead]

/-- So does the number after them. -/
lemma nextAfter_of_head {step next next' : ℤ} {items : List (ListItem Block)} (hne : items ≠ [])
    (h : itemValueFrom step next items 0 = itemValueFrom step next' items 0) :
    nextAfter step next items = nextAfter step next' items := by
  cases items with
  | nil => exact absurd rfl hne
  | cons item items =>
    have hhead := Option.some.inj h
    rw [nextAfter, nextAfter, hhead]

/-- A first item with a number of its own keeps it, and another one keeps its number if the list starts at it. -/
lemma itemValueFrom_start {step next : ℤ} {items : List (ListItem Block)} {value : ℤ}
    (h : itemValueFrom step next items 0 = some value) : itemValueFrom step value items 0 = some value := by
  cases items with
  | nil => exact h
  | cons item items =>
    rw [itemValueFrom] at h ⊢
    cases hvalue : item.number.value with
    | none => rfl
    | some own =>
      rw [hvalue] at h
      exact h

/-- Items without numbers of their own are counted. -/
lemma itemValueFrom_of_plain {step next : ℤ} {items : List (ListItem Block)}
    (hplain : ∀ item ∈ items, item.number = {}) {index : ℕ} (h : index < items.length) :
    itemValueFrom step next items index = some (next + step * index) := by
  induction items generalizing next index with
  | nil => exact absurd h (Nat.not_lt_zero _)
  | cons item items ih =>
    have hvalue : item.number.value = none := by rw [hplain item List.mem_cons_self]
    cases index with
    | zero =>
      rw [itemValueFrom, hvalue]
      simp
    | succ index =>
      rw [itemValueFrom, hvalue, ih (fun item hmem => hplain item (List.mem_cons_of_mem _ hmem))
        (Nat.lt_of_succ_lt_succ h), Option.getD_none]
      congr 1
      push_cast
      ring

lemma nextAfter_of_plain {step next : ℤ} {items : List (ListItem Block)}
    (hplain : ∀ item ∈ items, item.number = {}) : nextAfter step next items = next + step * items.length := by
  induction items generalizing next with
  | nil => simp [nextAfter]
  | cons item items ih =>
    have hvalue : item.number.value = none := by rw [hplain item List.mem_cons_self]
    rw [nextAfter, hvalue, ih fun item hmem => hplain item (List.mem_cons_of_mem _ hmem), Option.getD_none,
      List.length_cons]
    push_cast
    ring

/-- The numbers depend on nothing else of the items. -/
lemma itemValueFrom_congr {step next : ℤ} {items items' : List (ListItem Block)}
    (h : items.map ListItem.number = items'.map ListItem.number) (index : ℕ) :
    itemValueFrom step next items index = itemValueFrom step next items' index := by
  induction items generalizing next items' index with
  | nil =>
    rw [List.map_nil, eq_comm, List.map_eq_nil_iff] at h
    rw [h]
  | cons item items ih =>
    cases items' with
    | nil => exact absurd h (List.cons_ne_nil _ _)
    | cons item' items' =>
      rw [List.map_cons, List.map_cons, List.cons.injEq] at h
      cases index with
      | zero => rw [itemValueFrom, itemValueFrom, h.1]
      | succ index => rw [itemValueFrom, itemValueFrom, h.1, ih h.2]

/-- The style that the number of an item is written in. -/
def effectiveTypeAt (block : Block) (itemIndex : ℕ) : Option PreparedOrderedListType :=
  (block.listItems[itemIndex]?).map (effectiveOrderedListType block)

/-- The items of a part have the numbers that the whole has from an index on. -/
def SameValues (whole : Block) (offset : ℕ) (part : Block) : Prop :=
  ∀ index < part.listItems.length,
    effectiveOrderedItemValue whole (offset + index) = effectiveOrderedItemValue part index

/-- The numbers of the items of a part are written as those of the whole from an index on. -/
def SameTypes (whole : Block) (offset : ℕ) (part : Block) : Prop :=
  ∀ index < part.listItems.length, effectiveTypeAt whole (offset + index) = effectiveTypeAt part index

/-- The items of a whole from an index on are numbered after those before it. -/
def Continues (whole : Block) (offset count : ℕ) : Prop :=
  ∀ index < count, effectiveOrderedItemValue whole (offset + index) =
    (effectiveOrderedItemValue whole (offset - 1)).map (· + 1 + (index : ℤ))

/-! ### A split keeps the numbers -/

/-- What is normalised within the items leaves the items themselves alone. -/
lemma normalizeItems_map {α : Type} (field : TaskState → OrderedListItemData → Text → RichText → α)
    (items : List (ListItem Block)) :
    (normalizeItems items).map (fun item => field item.taskState item.number item.anchorId item.text) =
      items.map fun item => field item.taskState item.number item.anchorId item.text := by
  induction items with
  | nil => rfl
  | cons item items ih =>
    obtain ⟨taskState, number, anchorId, text, blocks⟩ := item
    rw [normalizeItems, List.map_cons, List.map_cons, ih]

lemma normalizeItems_numbers (items : List (ListItem Block)) :
    (normalizeItems items).map ListItem.number = items.map ListItem.number :=
  normalizeItems_map (fun _ number _ _ => number) items

/-- An ordered list keeps its metadata. -/
lemma normalizeInserted_of_ordered {block : Block} (hordered : block.listKind = .ordered) :
    normalizeInsertedOrderedListMetadata block =
      { block with blocks := normalizeBlocks block.blocks, listItems := normalizeItems block.listItems } := by
  obtain ⟨kind, anchorId, text, listKind, orderedList, blocks, listItems⟩ := block
  dsimp only at hordered
  rw [normalizeInsertedOrderedListMetadata]
  dsimp only
  rw [hordered, if_neg (not_not.mpr rfl)]
  split_ifs <;> rfl

/-- A part of an ordered list that starts at the number of its first item has the numbers of the list. -/
lemma sameValues_of_start (whole part : Block) (hkind : whole.kind = .list) (hordered : whole.listKind = .ordered)
    (hpartKind : part.kind = .list) (hpartOrdered : part.listKind = .ordered)
    (hreversed : part.orderedList.reversed = whole.orderedList.reversed) (items rest : List (ListItem Block))
    (hitems : whole.listItems = items ++ rest) {length : ℕ} (hlength : length ≤ rest.length)
    (hpart : part.listItems.map ListItem.number = (rest.take length).map ListItem.number)
    (hstart : part.orderedList.start = effectiveOrderedItemValue whole items.length) :
    SameValues whole items.length part := by
  intro index hindex
  have hcount : part.listItems.length = length := by
    have h := congrArg List.length hpart
    rwa [List.length_map, List.length_map, List.length_take, min_eq_left hlength] at h
  have hstep : orderedListSequenceStep part = orderedListSequenceStep whole := by
    rw [orderedListSequenceStep, orderedListSequenceStep, hreversed]
  -- the numbers of the whole from the part on
  have hwhole : ∀ index, effectiveOrderedItemValue whole (items.length + index) =
      itemValueFrom (orderedListSequenceStep whole)
        (nextAfter (orderedListSequenceStep whole) (orderedListSequenceStart whole) items) rest index := by
    intro index
    rw [effectiveOrderedItemValue_eq hkind hordered, hitems, itemValueFrom_append_right]
  have htake : ∀ next index, index < length →
      itemValueFrom (orderedListSequenceStep whole) next (rest.take length) index =
        itemValueFrom (orderedListSequenceStep whole) next rest index := fun next index h => by
    conv_rhs => rw [← List.take_append_drop length rest]
    rw [itemValueFrom_append_left]
    rwa [List.length_take, min_eq_left hlength]
  have hpos : 0 < length := by omega
  obtain ⟨value, hvalue⟩ : ∃ value, itemValueFrom (orderedListSequenceStep whole)
      (nextAfter (orderedListSequenceStep whole) (orderedListSequenceStart whole) items) rest 0 = some value := by
    cases rest with
    | nil => exact absurd hlength (by rw [List.length_nil]; omega)
    | cons item rest => exact ⟨_, rfl⟩
  have hfirst : orderedListSequenceStart part = value := by
    rw [orderedListSequenceStart, hstart, ← Nat.add_zero items.length, hwhole 0, hvalue, Option.getD_some]
  rw [effectiveOrderedItemValue_eq hpartKind hpartOrdered, hwhole, hstep, hfirst, itemValueFrom_congr hpart,
    htake _ _ (hcount ▸ hindex)]
  exact itemValueFrom_of_head (hvalue.trans (itemValueFrom_start hvalue).symm) index

/-- Items with the same numbers in lists of one style are written the same. -/
lemma sameTypes_of_numbers (whole part : Block)
    (htype : resolvePreparedOrderedListType whole.orderedList.type =
      resolvePreparedOrderedListType part.orderedList.type)
    {offset : ℕ} (hnumbers : ∀ index < part.listItems.length, (whole.listItems[offset + index]?).map ListItem.number =
      (part.listItems[index]?).map ListItem.number) : SameTypes whole offset part := by
  have hnumber : ∀ block : Block, effectiveOrderedListType block =
      (fun number : OrderedListItemData =>
        if number.type.isSome then resolvePreparedOrderedListType number.type
        else resolvePreparedOrderedListType block.orderedList.type) ∘ ListItem.number := fun _ => rfl
  intro index hindex
  rw [effectiveTypeAt, effectiveTypeAt, hnumber, hnumber, ← Option.map_map, ← Option.map_map, hnumbers index hindex,
    htype]

/-- The list that stays before the place of a split. -/
def leadingPart (owner : Block) (insertIndex : ℕ) : Block :=
  { owner with
    listItems := owner.listItems.take insertIndex
    orderedList := { owner.orderedList with start := effectiveOrderedItemValue owner 0 } }

/-- The list that comes after the place of a split. -/
def trailingPart (owner : Block) (insertIndex : ℕ) : Block :=
  { kind := .list
    listKind := .ordered
    orderedList := { owner.orderedList with start := effectiveOrderedItemValue owner insertIndex }
    listItems := normalizeItems (owner.listItems.drop insertIndex) }

/-- What a split of an ordered list gives. -/
lemma splitListAt_of_ordered {owner : Block} (hkind : owner.kind = .list) (hordered : owner.listKind = .ordered)
    {insertIndex : ℕ} (hpos : 0 < insertIndex) (hlt : insertIndex < owner.listItems.length) :
    splitListAt owner insertIndex = (leadingPart owner insertIndex, [trailingPart owner insertIndex]) := by
  have hvalue : ∀ index < owner.listItems.length, (effectiveOrderedItemValue owner index).isSome = true := by
    intro index hindex
    rw [effectiveOrderedItemValue_eq hkind hordered]
    exact itemValueFrom_isSome hindex
  rw [splitListAt, if_pos ⟨hpos, hlt⟩, if_pos hordered, if_pos hordered]
  dsimp only
  rw [if_pos (hvalue 0 (hpos.trans hlt)), if_pos (hvalue insertIndex hlt), normalizeBlocks, normalizeBlocks, hordered,
    normalizeInserted_of_ordered rfl]
  dsimp only
  rw [normalizeBlocks, leadingPart, trailingPart, hordered]

/-- **A split keeps the numbers**: the two lists have the items of the list before and after the place, with the
numbers that they had in it. -/
theorem splitListAt_keeps_numbers {owner : Block} (hkind : owner.kind = .list) (hordered : owner.listKind = .ordered)
    {insertIndex : ℕ} (hpos : 0 < insertIndex) (hlt : insertIndex < owner.listItems.length) :
    ∃ leading trailing, splitListAt owner insertIndex = (leading, [trailing]) ∧
      leading.listItems = owner.listItems.take insertIndex ∧
      trailing.listItems = normalizeItems (owner.listItems.drop insertIndex) ∧
      SameValues owner 0 leading ∧ SameTypes owner 0 leading ∧
      SameValues owner insertIndex trailing ∧ SameTypes owner insertIndex trailing := by
  have htakeLength : (owner.listItems.take insertIndex).length = insertIndex := by
    rw [List.length_take, min_eq_left hlt.le]
  refine ⟨leadingPart owner insertIndex, trailingPart owner insertIndex,
    splitListAt_of_ordered hkind hordered hpos hlt, rfl, rfl, ?_, ?_, ?_, ?_⟩
  · exact sameValues_of_start owner (leadingPart owner insertIndex) hkind hordered hkind hordered rfl []
      owner.listItems rfl hlt.le rfl rfl
  · refine sameTypes_of_numbers owner (leadingPart owner insertIndex) rfl fun index hindex => ?_
    rw [leadingPart, htakeLength] at hindex
    rw [Nat.zero_add, leadingPart, List.getElem?_take_of_lt hindex]
  · conv_lhs => rw [← htakeLength]
    refine sameValues_of_start owner (trailingPart owner insertIndex) hkind hordered rfl rfl rfl
      (owner.listItems.take insertIndex) (owner.listItems.drop insertIndex)
      (List.take_append_drop insertIndex owner.listItems).symm le_rfl ?_ ?_
    · rw [List.take_length]
      exact normalizeItems_numbers _
    · rw [htakeLength]
      rfl
  · refine sameTypes_of_numbers owner (trailingPart owner insertIndex) rfl fun index _ => ?_
    rw [trailingPart, ← List.getElem?_map, ← List.getElem?_map, normalizeItems_numbers, List.getElem?_map,
      List.getElem?_map, List.getElem?_drop]

/-! ### What a join puts together -/

/-- A list among the blocks of a container, with the neighbours that it is joined with. -/
structure Joining where
  before : List Block
  previous : Option Block
  list : Block
  next : Option Block
  after : List Block

namespace Joining

variable (joining : Joining)

/-- The blocks before the join. -/
def blocks : List Block :=
  joining.before ++ joining.previous.toList ++ joining.list :: (joining.next.toList ++ joining.after)

/-- The number of the items before those of the list. -/
def itemsFrom : ℕ := (joining.previous.toList.flatMap Block.listItems).length

/-- The joined list: the first of the lists with the items of all. -/
def joined : Block :=
  { joining.previous.getD joining.list with
    listItems := joining.previous.toList.flatMap Block.listItems ++ joining.list.listItems ++
      joining.next.toList.flatMap Block.listItems }

/-- The neighbours that are joined are those that fit. -/
def Seamless (startExplicit : Bool) : Prop :=
  (∀ previous ∈ joining.previous, listsJoinSeamlessly previous joining.list startExplicit = true) ∧
    ∀ next ∈ joining.next, listsJoinSeamlessly joining.list next false = true

/-- What a join of ordered lists is expected to keep: the items of each list have the numbers that they had in it, or
go on from the list before when theirs has no numbering of its own, and all are written as they were. -/
structure KeepsNumbers (startExplicit : Bool) : Prop where
  previous : ∀ previous ∈ joining.previous,
    SameValues joining.joined 0 previous ∧ SameTypes joining.joined 0 previous
  list : (SameValues joining.joined joining.itemsFrom joining.list ∨
      joining.previous.isSome = true ∧ ownNumbering joining.list startExplicit = false ∧
        Continues joining.joined joining.itemsFrom joining.list.listItems.length) ∧
    SameTypes joining.joined joining.itemsFrom joining.list
  next : ∀ next ∈ joining.next,
    (SameValues joining.joined (joining.itemsFrom + joining.list.listItems.length) next ∨
      ownNumbering next false = false ∧
        Continues joining.joined (joining.itemsFrom + joining.list.listItems.length) next.listItems.length) ∧
    SameTypes joining.joined (joining.itemsFrom + joining.list.listItems.length) next

/-- When all three lists are joined, the last one has no numbering of its own, or its first item has a number of its
own, or the first of them ends where the one between them starts. -/
def NumbersFit : Prop :=
  ∀ previous ∈ joining.previous, ∀ next ∈ joining.next, ownNumbering next false = true →
    (next.listItems.head?.bind fun item => item.number.value).isSome = true ∨
      (effectiveOrderedItemValue previous (previous.listItems.length - 1)).map (· + 1) =
        effectiveOrderedItemValue joining.list 0

end Joining

/-- The first of two blocks that stand side by side takes the items of the second. -/
lemma joinAt_append (before : List Block) (first second : Block) (after : List Block) :
    joinAt (before ++ first :: second :: after) before.length =
      before ++ { first with listItems := first.listItems ++ second.listItems } :: after := by
  have hfirst : (before ++ first :: second :: after)[before.length]? = some first := by
    rw [List.getElem?_append_right le_rfl, Nat.sub_self, List.getElem?_cons_zero]
  have hone : before.length + 1 - before.length = 1 := Nat.add_sub_cancel_left _ _
  have hle : before.length ≤ before.length + 1 := Nat.le_succ _
  have hsecond : (before ++ first :: second :: after)[before.length + 1]? = some second := by
    rw [List.getElem?_append_right hle, hone, List.getElem?_cons_succ, List.getElem?_cons_zero]
  simp only [joinAt, hfirst, hsecond]
  rw [List.set_append_right _ _ le_rfl, Nat.sub_self, List.set_cons_zero, List.eraseIdx_append_of_length_le hle, hone,
    List.eraseIdx_cons_succ, List.eraseIdx_cons_zero]

/-- A block of a container has the ones before and after it. -/
lemma eq_append_of_getElem? {blocks : List Block} {index : ℕ} {block : Block} (h : blocks[index]? = some block) :
    ∃ before after, blocks = before ++ block :: after ∧ before.length = index := by
  obtain ⟨hlt, rfl⟩ := List.getElem?_eq_some_iff.mp h
  refine ⟨blocks.take index, blocks.drop (index + 1), ?_, List.length_take_of_le hlt.le⟩
  rw [List.getElem_cons_drop, List.take_append_drop]

/-- **What a join puts together**: the list and the neighbours that fit, in their order, and the items of the list
are at the range that is returned. -/
theorem joinListWithSiblings_spec {blocks blocks' : List Block} {index : ℕ} {startExplicit : Bool} {join : ListJoin}
    (h : joinListWithSiblings blocks index startExplicit = some (join, blocks')) :
    ∃ joining : Joining, joining.blocks = blocks ∧
      blocks[index]? = some joining.list ∧ joining.list.kind = .list ∧
      (joining.before ++ joining.previous.toList).length = index ∧
      (joining.previous.isSome = true ∨ joining.next.isSome = true) ∧ joining.Seamless startExplicit ∧
      blocks' = joining.before ++ joining.joined :: joining.after ∧
      join = ⟨joining.before.length, joining.itemsFrom, joining.list.listItems.length⟩ := by
  obtain ⟨list, hlist⟩ : ∃ list, blocks[index]? = some list := by
    rcases hlist : blocks[index]? with - | list
    · rw [joinListWithSiblings, hlist] at h
      cases h
    · exact ⟨list, rfl⟩
  rw [joinListWithSiblings, hlist] at h
  dsimp only at h
  by_cases hkind : list.kind = .list
  case neg =>
    rw [if_pos hkind] at h
    cases h
  rw [if_neg (not_not.mpr hkind)] at h
  obtain ⟨before, after, rfl, rfl⟩ := eq_append_of_getElem? hlist
  have hnextBlock : (before ++ list :: after)[before.length + 1]? = after.head? := by
    rw [List.getElem?_append_right (Nat.le_succ _), Nat.succ_sub le_rfl, Nat.sub_self, List.getElem?_cons_succ,
      List.head?_eq_getElem?]
  -- the next list is taken in first, and then the previous one takes in the result
  obtain ⟨next, rest, rfl, hjoinNext, hseamless⟩ : ∃ (next : Option Block) (rest : List Block),
      after = next.toList ++ rest ∧
      ((before ++ list :: after)[before.length + 1]?).any (fun next => listsJoinSeamlessly list next false) =
        next.isSome ∧
      ∀ next' ∈ next, listsJoinSeamlessly list next' false = true := by
    rw [hnextBlock]
    cases after with
    | nil => exact ⟨none, [], rfl, rfl, fun _ h => nomatch h⟩
    | cons next after =>
      by_cases hfits : listsJoinSeamlessly list next false = true
      · exact ⟨some next, after, rfl, hfits, fun next' h => Option.some.inj h ▸ hfits⟩
      · exact ⟨none, next :: after, rfl, Bool.eq_false_iff.mpr hfits, fun _ h => nomatch h⟩
  have htaken : (if next.isSome = true then joinAt (before ++ list :: (next.toList ++ rest)) before.length
      else before ++ list :: (next.toList ++ rest)) =
      before ++ { list with listItems := list.listItems ++ next.toList.flatMap Block.listItems } :: rest := by
    cases next with
    | none =>
      have hsame : ({ list with listItems := list.listItems ++ [] } : Block) = list := by
        rw [List.append_nil]
        cases list
        rfl
      exact (congrArg (fun list => before ++ list :: rest) hsame).symm
    | some next =>
      have hitems : (some next).toList.flatMap Block.listItems = next.listItems := List.append_nil _
      rw [hitems]
      exact joinAt_append before list next rest
  rw [hjoinNext, htaken] at h
  rcases List.eq_nil_or_concat before with rfl | ⟨before, previous, rfl⟩
  · split_ifs at h with hnone hprevious
    · exact absurd hprevious (by simp)
    · cases h
      have hjoined : next.isSome = true := Option.isSome_iff_ne_none.mpr (by simpa using hnone)
      exact ⟨⟨[], none, list, next, rest⟩, rfl, hlist, hkind, rfl, Or.inr hjoined,
        ⟨fun _ h => (nomatch h), hseamless⟩, rfl, rfl⟩
  · rw [List.concat_eq_append] at h hlist ⊢
    have hlength : (before ++ [previous]).length = before.length + 1 := List.length_append
    have hprevious : ∀ blocks,
        (before ++ [previous] ++ blocks)[(before ++ [previous]).length - 1]? = some previous := by
      intro blocks
      rw [hlength, Nat.add_sub_cancel, List.append_assoc, List.getElem?_append_right le_rfl, Nat.sub_self]
      rfl
    have hpos : decide (0 < (before ++ [previous]).length) = true := by
      rw [hlength]
      exact decide_eq_true (Nat.succ_pos _)
    rw [hprevious, hprevious, hpos, Bool.true_and, Option.any_some] at h
    split_ifs at h with hnone hfits
    · cases h
      refine ⟨⟨before, some previous, list, next, rest⟩, rfl, hlist, hkind, rfl, Or.inl rfl,
        ⟨fun _ h => Option.some.inj h ▸ hfits, hseamless⟩, ?_, ?_⟩
      · rw [hlength, Nat.add_sub_cancel, List.append_assoc, List.singleton_append, joinAt_append]
        simp [Joining.joined]
      · simp [Joining.itemsFrom]
    · cases h
      have hjoined : next.isSome = true := by
        rw [Bool.eq_false_iff.mpr hfits, Bool.not_false, Bool.and_true, Bool.not_eq_true'] at hnone
        exact Bool.not_eq_false _ ▸ hnone
      refine ⟨⟨before ++ [previous], none, list, next, rest⟩, by simp [Joining.blocks], hlist, hkind, by simp,
        Or.inr hjoined, ⟨fun _ h => (nomatch h), hseamless⟩, rfl, rfl⟩

/-! ### The numbers of a joined list -/

/-- Two ordered lists that join. -/
structure OrderedFit (first second : Block) (secondStartExplicit : Bool) : Prop where
  firstKind : first.kind = .list
  secondKind : second.kind = .list
  firstOrdered : first.listKind = .ordered
  secondOrdered : second.listKind = .ordered
  firstNotEmpty : first.listItems ≠ []
  secondNotEmpty : second.listItems ≠ []
  firstForward : first.orderedList.reversed = false
  secondForward : second.orderedList.reversed = false
  type : resolvePreparedOrderedListType first.orderedList.type =
    resolvePreparedOrderedListType second.orderedList.type
  numbers : ownNumbering second secondStartExplicit = true →
    (effectiveOrderedItemValue first (first.listItems.length - 1)).map (· + 1) = effectiveOrderedItemValue second 0

/-- What the join of ordered lists asks for. -/
lemma orderedFit_of_seamless {first second : Block} {secondStartExplicit : Bool}
    (h : listsJoinSeamlessly first second secondStartExplicit = true)
    (hordered : first.listKind = .ordered ∨ second.listKind = .ordered) :
    OrderedFit first second secondStartExplicit := by
  rw [listsJoinSeamlessly] at h
  split_ifs at h with hjoinable hkind hreversed htype hown
  · simp only [not_or, Bool.not_eq_true, Bool.not_eq_false', listsJoinable, decide_eq_true_eq] at hjoinable
    exact absurd (hordered.elim id fun h => hjoinable.1.2.2.1.trans h) hkind
  all_goals
    simp only [not_or, Bool.not_eq_true, Bool.not_eq_false', listsJoinable, decide_eq_true_eq,
      List.isEmpty_eq_false_iff] at hjoinable hreversed
    obtain ⟨⟨hfirst, hsecond, hsame, -⟩, hfirstNe, hsecondNe⟩ := hjoinable
  · exact ⟨hfirst, hsecond, not_not.mp hkind, hsame.symm.trans (not_not.mp hkind), hfirstNe, hsecondNe, hreversed.1,
      hreversed.2, not_not.mp htype, fun h => by rw [h] at hown; exact absurd hown (by decide)⟩
  · refine ⟨hfirst, hsecond, not_not.mp hkind, hsame.symm.trans (not_not.mp hkind), hfirstNe, hsecondNe, hreversed.1,
      hreversed.2, not_not.mp htype, fun _ => ?_⟩
    cases hlast : effectiveOrderedItemValue first (first.listItems.length - 1) with
    | none =>
      rw [hlast] at h
      cases h
    | some last =>
      cases hnext : effectiveOrderedItemValue second 0 with
      | none =>
        rw [hlast, hnext] at h
        cases h
      | some next =>
        rw [hlast, hnext] at h
        rw [Option.map_some, of_decide_eq_true h]

/-- The numbers of a list that counts up. -/
lemma effectiveOrderedItemValue_of_forward {block : Block} (hkind : block.kind = .list)
    (hordered : block.listKind = .ordered) (hforward : block.orderedList.reversed = false) (itemIndex : ℕ) :
    effectiveOrderedItemValue block itemIndex =
      itemValueFrom 1 (orderedListSequenceStart block) block.listItems itemIndex := by
  rw [effectiveOrderedItemValue_eq hkind hordered, orderedListSequenceStep, hforward]
  rfl

/-- The number that the items after a list that counts up would get. -/
def numberAfter (block : Block) : ℤ := nextAfter 1 (orderedListSequenceStart block) block.listItems

lemma OrderedFit.numbers_eq {first second : Block} {secondStartExplicit : Bool}
    (h : OrderedFit first second secondStartExplicit) :
    (effectiveOrderedItemValue first (first.listItems.length - 1)).map (· + 1) = some (numberAfter first) := by
  rw [effectiveOrderedItemValue_of_forward h.firstKind h.firstOrdered h.firstForward,
    itemValueFrom_last h.firstNotEmpty, Option.map_some, sub_add_cancel]
  rfl

section Parts

variable {whole part : Block} {before after : List (ListItem Block)}

/-- The numbers of a part of a list that counts up. -/
lemma effectiveOrderedItemValue_part (hkind : whole.kind = .list) (hordered : whole.listKind = .ordered)
    (hforward : whole.orderedList.reversed = false) (hitems : whole.listItems = before ++ part.listItems ++ after)
    {index : ℕ} (hindex : index < part.listItems.length) :
    effectiveOrderedItemValue whole (before.length + index) =
      itemValueFrom 1 (nextAfter 1 (orderedListSequenceStart whole) before) part.listItems index := by
  rw [effectiveOrderedItemValue_of_forward hkind hordered hforward, hitems, List.append_assoc,
    itemValueFrom_append_right, itemValueFrom_append_left hindex]

/-- A part keeps its numbers if its first item does. -/
lemma sameValues_iff (hkind : whole.kind = .list) (hordered : whole.listKind = .ordered)
    (hforward : whole.orderedList.reversed = false) (hitems : whole.listItems = before ++ part.listItems ++ after)
    (hpartKind : part.kind = .list) (hpartOrdered : part.listKind = .ordered)
    (hpartForward : part.orderedList.reversed = false) (hne : part.listItems ≠ []) :
    SameValues whole before.length part ↔
      itemValueFrom 1 (nextAfter 1 (orderedListSequenceStart whole) before) part.listItems 0 =
        effectiveOrderedItemValue part 0 := by
  have hpart := effectiveOrderedItemValue_of_forward hpartKind hpartOrdered hpartForward
  constructor
  · intro h
    have hpos := List.length_pos_iff.mpr hne
    rw [← h 0 hpos, effectiveOrderedItemValue_part hkind hordered hforward hitems hpos]
  · intro h index hindex
    rw [effectiveOrderedItemValue_part hkind hordered hforward hitems hindex, hpart]
    exact itemValueFrom_of_head (h.trans (hpart 0)) index

/-- A part without a numbering of its own goes on from the items before it. -/
lemma continues_of_plain (hkind : whole.kind = .list) (hordered : whole.listKind = .ordered)
    (hforward : whole.orderedList.reversed = false) (hitems : whole.listItems = before ++ part.listItems ++ after)
    (hbefore : before ≠ []) (hplain : ∀ item ∈ part.listItems, item.number = {}) :
    Continues whole before.length part.listItems.length := by
  intro index hindex
  have hlast : effectiveOrderedItemValue whole (before.length - 1) =
      some (nextAfter 1 (orderedListSequenceStart whole) before - 1) := by
    rw [effectiveOrderedItemValue_of_forward hkind hordered hforward, hitems, List.append_assoc,
      itemValueFrom_append_left (Nat.sub_lt (List.length_pos_iff.mpr hbefore) Nat.one_pos),
      itemValueFrom_last hbefore]
  rw [effectiveOrderedItemValue_part hkind hordered hforward hitems hindex, hlast,
    itemValueFrom_of_plain hplain hindex, Option.map_some, sub_add_cancel, one_mul]

/-- The items of a part are written as in the part. -/
lemma sameTypes_part (hitems : whole.listItems = before ++ part.listItems ++ after)
    (htype : resolvePreparedOrderedListType whole.orderedList.type =
      resolvePreparedOrderedListType part.orderedList.type) : SameTypes whole before.length part := by
  refine sameTypes_of_numbers whole part htype fun index hindex => ?_
  rw [hitems, List.append_assoc, List.getElem?_append_right (Nat.le_add_right _ _), Nat.add_sub_cancel_left,
    List.getElem?_append_left hindex]

end Parts

/-- Items of a list without a numbering of its own have none either. -/
lemma plain_of_ownNumbering {block : Block} {startExplicit : Bool} (h : ownNumbering block startExplicit = false) :
    ∀ item ∈ block.listItems, item.number = {} := by
  rw [ownNumbering, Bool.or_eq_false_iff] at h
  intro item hmem
  simpa using List.any_eq_false.mp h.2 item hmem

/-- The first item of a list keeps its number after others if it has one of its own, or if the others end before
it. -/
lemma itemValueFrom_zero_iff {next start value : ℤ} {items : List (ListItem Block)}
    (h : itemValueFrom 1 start items 0 = some value) :
    itemValueFrom 1 next items 0 = some value ↔
      (items.head?.bind fun item => item.number.value).isSome = true ∨ next = value := by
  cases items with
  | nil => cases h
  | cons item items =>
    rw [itemValueFrom] at h ⊢
    rw [List.head?_cons, Option.bind_some]
    cases hvalue : item.number.value with
    | none => simp
    | some own =>
      rw [hvalue] at h
      simpa using Option.some.inj h

/-- The items after two joined lists get the number that they would get after the second one exactly if it starts
where the first one ends. -/
lemma OrderedFit.nextAfter_iff {first second : Block} {secondStartExplicit : Bool}
    (h : OrderedFit first second secondStartExplicit) :
    nextAfter 1 (numberAfter first) second.listItems = numberAfter second ↔
      some (numberAfter first) = effectiveOrderedItemValue second 0 := by
  have hvalue := effectiveOrderedItemValue_of_forward h.secondKind h.secondOrdered h.secondForward 0
  cases hown : ownNumbering second secondStartExplicit with
  | true =>
    have hnumber : some (numberAfter first) = effectiveOrderedItemValue second 0 :=
      h.numbers_eq.symm.trans (h.numbers hown)
    refine iff_of_true (nextAfter_of_head h.secondNotEmpty ?_) hnumber
    rw [← hvalue, ← hnumber]
    exact itemValueFrom_start (hvalue.symm.trans hnumber.symm)
  | false =>
    have hplain := plain_of_ownNumbering hown
    have hpos := List.length_pos_iff.mpr h.secondNotEmpty
    rw [numberAfter, nextAfter_of_plain hplain, hvalue, itemValueFrom_of_plain hplain hpos, numberAfter,
      nextAfter_of_plain hplain, Option.some.injEq]
    constructor
    · intro h
      rw [Nat.cast_zero, mul_zero, add_zero]
      exact add_right_cancel h
    · intro h
      rw [h, Nat.cast_zero, mul_zero, add_zero]

namespace Joining

variable {joining : Joining} {startExplicit : Bool}

/-- The joined list counts up and is written as the list. -/
lemma joined_ordered (hseamless : joining.Seamless startExplicit) (hkind : joining.list.kind = .list)
    (hordered : joining.list.listKind = .ordered)
    (hsome : joining.previous.isSome = true ∨ joining.next.isSome = true) :
    joining.joined.kind = .list ∧ joining.joined.listKind = .ordered ∧
      joining.joined.orderedList.reversed = false ∧
      resolvePreparedOrderedListType joining.joined.orderedList.type =
        resolvePreparedOrderedListType joining.list.orderedList.type := by
  rcases hprevious : joining.previous with - | previous
  · obtain ⟨next, hnext⟩ := Option.isSome_iff_exists.mp (hsome.resolve_left (by rw [hprevious]; decide))
    have hfit := orderedFit_of_seamless (hseamless.2 next hnext) (Or.inl hordered)
    simp only [joined, hprevious, Option.getD_none]
    exact ⟨hkind, hordered, hfit.firstForward, trivial⟩
  · have hfit := orderedFit_of_seamless (hseamless.1 previous hprevious) (Or.inr hordered)
    simp only [joined, hprevious, Option.getD_some]
    exact ⟨hfit.firstKind, hfit.firstOrdered, hfit.firstForward, hfit.type⟩

/-- The items of the joined list, seen from the list. -/
lemma joined_listItems : joining.joined.listItems =
    joining.previous.toList.flatMap Block.listItems ++ joining.list.listItems ++
      joining.next.toList.flatMap Block.listItems := rfl

/-- The joined list starts where the first of its parts starts. -/
lemma joined_start (hforward : joining.joined.orderedList.reversed = false) :
    orderedListSequenceStart joining.joined =
      orderedListSequenceStart (joining.previous.getD joining.list) := by
  have hforward' : (joining.previous.getD joining.list).orderedList.reversed = false := hforward
  rw [orderedListSequenceStart, orderedListSequenceStart, hforward, hforward']
  rfl

section Ordered

variable (hseamless : joining.Seamless startExplicit) (hkind : joining.list.kind = .list)
  (hordered : joining.list.listKind = .ordered)
  (hsome : joining.previous.isSome = true ∨ joining.next.isSome = true)

include hseamless hkind hordered hsome

/-- The items of the list before the joined one stay as they are. -/
lemma keeps_previous {previous : Block} (hprevious : joining.previous = some previous) :
    SameValues joining.joined 0 previous ∧ SameTypes joining.joined 0 previous := by
  obtain ⟨hjoinedKind, hjoinedOrdered, hforward, htype⟩ := joined_ordered hseamless hkind hordered hsome
  have hfit := orderedFit_of_seamless (hseamless.1 previous hprevious) (Or.inr hordered)
  have hitems : joining.joined.listItems = [] ++ previous.listItems ++
      (joining.list.listItems ++ joining.next.toList.flatMap Block.listItems) := by
    rw [joined_listItems, hprevious]
    simp
  have hstart : orderedListSequenceStart joining.joined = orderedListSequenceStart previous := by
    rw [joined_start hforward, hprevious]
    rfl
  refine ⟨(sameValues_iff hjoinedKind hjoinedOrdered hforward hitems hfit.firstKind hfit.firstOrdered
    hfit.firstForward hfit.firstNotEmpty).mpr ?_, sameTypes_part hitems (htype.trans hfit.type.symm)⟩
  rw [effectiveOrderedItemValue_of_forward hfit.firstKind hfit.firstOrdered hfit.firstForward, hstart]
  rfl

/-- The items of the list keep their numbers or go on from the list before it. -/
lemma keeps_list :
    (SameValues joining.joined joining.itemsFrom joining.list ∨
        joining.previous.isSome = true ∧ ownNumbering joining.list startExplicit = false ∧
          Continues joining.joined joining.itemsFrom joining.list.listItems.length) ∧
      SameTypes joining.joined joining.itemsFrom joining.list := by
  obtain ⟨hjoinedKind, hjoinedOrdered, hforward, htype⟩ := joined_ordered hseamless hkind hordered hsome
  have hitems := joining.joined_listItems
  refine ⟨?_, sameTypes_part hitems htype⟩
  rcases hprevious : joining.previous with - | previous
  · obtain ⟨next, hnext⟩ := Option.isSome_iff_exists.mp (hsome.resolve_left (by rw [hprevious]; decide))
    have hfit := orderedFit_of_seamless (hseamless.2 next hnext) (Or.inl hordered)
    refine Or.inl ((sameValues_iff hjoinedKind hjoinedOrdered hforward hitems hkind hordered hfit.firstForward
      hfit.firstNotEmpty).mpr ?_)
    rw [effectiveOrderedItemValue_of_forward hkind hordered hfit.firstForward, joined_start hforward, hprevious]
    rfl
  · have hfit := orderedFit_of_seamless (hseamless.1 previous hprevious) (Or.inr hordered)
    cases hown : ownNumbering joining.list startExplicit with
    | true =>
      refine Or.inl ((sameValues_iff hjoinedKind hjoinedOrdered hforward hitems hkind hordered hfit.secondForward
        hfit.secondNotEmpty).mpr ?_)
      have hnumber : some (numberAfter previous) = effectiveOrderedItemValue joining.list 0 :=
        hfit.numbers_eq.symm.trans (hfit.numbers hown)
      rw [← hnumber, joined_start hforward, hprevious]
      rw [effectiveOrderedItemValue_of_forward hkind hordered hfit.secondForward] at hnumber
      simpa [numberAfter] using itemValueFrom_start hnumber.symm
    | false =>
      refine Or.inr ⟨rfl, rfl, continues_of_plain hjoinedKind hjoinedOrdered hforward hitems ?_
        (plain_of_ownNumbering hown)⟩
      rw [hprevious]
      simpa using hfit.firstNotEmpty

/-- The items of the list after it keep their numbers if they fit, and go on from it without a numbering of their
own. -/
lemma keeps_next {next : Block} (hnext : joining.next = some next) :
    ((SameValues joining.joined (joining.itemsFrom + joining.list.listItems.length) next ∨
        ownNumbering next false = false ∧
          Continues joining.joined (joining.itemsFrom + joining.list.listItems.length) next.listItems.length) ∧
      SameTypes joining.joined (joining.itemsFrom + joining.list.listItems.length) next) ↔
      ∀ previous ∈ joining.previous, ownNumbering next false = true →
        (next.listItems.head?.bind fun item => item.number.value).isSome = true ∨
          (effectiveOrderedItemValue previous (previous.listItems.length - 1)).map (· + 1) =
            effectiveOrderedItemValue joining.list 0 := by
  obtain ⟨hjoinedKind, hjoinedOrdered, hforward, htype⟩ := joined_ordered hseamless hkind hordered hsome
  have hfit := orderedFit_of_seamless (hseamless.2 next hnext) (Or.inl hordered)
  have hitems : joining.joined.listItems =
      (joining.previous.toList.flatMap Block.listItems ++ joining.list.listItems) ++ next.listItems ++ [] := by
    rw [joined_listItems, hnext]
    simp
  have hlength : joining.itemsFrom + joining.list.listItems.length =
      (joining.previous.toList.flatMap Block.listItems ++ joining.list.listItems).length := by
    rw [List.length_append]
    rfl
  rw [hlength, and_iff_left (sameTypes_part hitems (htype.trans hfit.type))]
  cases hown : ownNumbering next false with
  | false =>
    refine iff_of_true (Or.inr ⟨rfl, continues_of_plain hjoinedKind hjoinedOrdered hforward hitems ?_
      (plain_of_ownNumbering hown)⟩) fun _ _ h => Bool.noConfusion h
    exact List.append_ne_nil_of_right_ne_nil _ hfit.firstNotEmpty
  | true =>
    have hnumber : effectiveOrderedItemValue next 0 = some (numberAfter joining.list) :=
      (hfit.numbers hown).symm.trans hfit.numbers_eq
    have hnumber' := hnumber
    rw [effectiveOrderedItemValue_of_forward hfit.secondKind hfit.secondOrdered hfit.secondForward] at hnumber'
    rw [or_iff_left fun h => Bool.noConfusion h.1, sameValues_iff hjoinedKind hjoinedOrdered hforward hitems
      hfit.secondKind hfit.secondOrdered hfit.secondForward hfit.secondNotEmpty, hnumber,
      itemValueFrom_zero_iff hnumber', joined_start hforward]
    rcases hprevious : joining.previous with - | previous
    · exact iff_of_true (Or.inr rfl) fun _ h => nomatch h
    · have hfit' := orderedFit_of_seamless (hseamless.1 previous hprevious) (Or.inr hordered)
      have hbefore : nextAfter 1 (orderedListSequenceStart ((some previous).getD joining.list))
          ((some previous).toList.flatMap Block.listItems ++ joining.list.listItems) =
          nextAfter 1 (numberAfter previous) joining.list.listItems := by
        rw [nextAfter_append]
        simp [numberAfter]
      rw [hbefore, hfit'.nextAfter_iff]
      constructor
      · intro h previous' hprevious' _
        rw [← Option.some.inj hprevious', hfit'.numbers_eq]
        exact h
      · intro h
        have h' := h previous rfl rfl
        rwa [hfit'.numbers_eq] at h'

/-- **The join of ordered lists** keeps the numbers exactly if they fit. -/
theorem keepsNumbers_iff : joining.KeepsNumbers startExplicit ↔ joining.NumbersFit := by
  constructor
  · intro h previous hprevious next hnext
    exact (keeps_next hseamless hkind hordered hsome hnext).mp (h.next next hnext) previous hprevious
  · intro h
    refine ⟨fun previous hprevious => keeps_previous hseamless hkind hordered hsome hprevious,
      keeps_list hseamless hkind hordered hsome, fun next hnext => ?_⟩
    exact (keeps_next hseamless hkind hordered hsome hnext).mpr fun previous hprevious =>
      h previous hprevious next hnext

end Ordered

end Joining

/-! ### Splits and joins -/

/-- **Splits and joins keep the numbers of ordered lists**: a split at an inner place always, and a join exactly if
the numbers fit. The range that the join returns is that of the items of the list. -/
theorem lists_keep_numbers (owner : Block) :
    (∀ insertIndex : ℕ, owner.kind = .list → owner.listKind = .ordered → 0 < insertIndex →
      insertIndex < owner.listItems.length →
      ∃ leading trailing, splitListAt owner insertIndex = (leading, [trailing]) ∧
        leading.listItems = owner.listItems.take insertIndex ∧
        trailing.listItems = normalizeItems (owner.listItems.drop insertIndex) ∧
        SameValues owner 0 leading ∧ SameTypes owner 0 leading ∧
        SameValues owner insertIndex trailing ∧ SameTypes owner insertIndex trailing) ∧
    ∀ (blocks blocks' : List Block) (index : ℕ) (startExplicit : Bool) (join : ListJoin),
      blocks[index]? = some owner → joinListWithSiblings blocks index startExplicit = some (join, blocks') →
      ∃ joining : Joining, joining.blocks = blocks ∧ joining.list = owner ∧
        (joining.before ++ joining.previous.toList).length = index ∧ joining.Seamless startExplicit ∧
        blocks' = joining.before ++ joining.joined :: joining.after ∧ join.index = joining.before.length ∧
        (joining.joined.listItems.drop join.itemsFrom).take join.itemsCount = joining.list.listItems ∧
        (joining.list.listKind = .ordered → (joining.KeepsNumbers startExplicit ↔ joining.NumbersFit)) := by
  refine ⟨fun insertIndex hkind hordered hpos hlt => splitListAt_keeps_numbers hkind hordered hpos hlt,
    fun blocks blocks' index startExplicit join howner h => ?_⟩
  obtain ⟨joining, hblocks, hlist, hkind, hindex, hsome, hseamless, hblocks', rfl⟩ := joinListWithSiblings_spec h
  refine ⟨joining, hblocks, Option.some.inj (hlist.symm.trans howner), hindex, hseamless, hblocks', rfl, ?_,
    fun hordered =>
    Joining.keepsNumbers_iff hseamless hkind hordered hsome⟩
  rw [Joining.joined_listItems, List.append_assoc, Joining.itemsFrom, List.drop_left, List.take_left]

/-- An ordered list with plain items. -/
def plainList (start : Option ℤ) (count : ℕ) : Block :=
  { kind := .list, listKind := .ordered, orderedList := { start }, listItems := List.replicate count {} }

/-- Two items between three others and a list that starts at 3, for which they were the first two: the two become the
fourth and the fifth, and the 3 becomes a 6. -/
theorem join_changes_number :
    ownNumbering (plainList (some 3) 1) false = true ∧
      effectiveOrderedItemValue (plainList (some 3) 1) 0 = some 3 ∧
      (joinListWithSiblings [plainList none 3, plainList none 2, plainList (some 3) 1] 1 false).map
        (fun result => (result.1, result.2.map fun list => effectiveOrderedItemValue list 5)) =
          some ({ index := 0, itemsFrom := 3, itemsCount := 2 }, [some 6]) := by
  decide

end RichPage.Editor
