import Telegravim.RichPage.Blocks

set_option autoImplicit false

/-!
# Rich pages: simple messages

A page of paragraphs, code and quotes can be sent as a simple message. One function goes through the page, and
one sink builds the text, where another only counts its units. Quotes are collected in a sink of their own, and
the builder trims them once more.

## Main definitions

* `RichPage.Accumulator`, `RichPage.simpleTextBuilder`, `RichPage.simpleTextCounter` — the two sinks.
* `RichPage.serializeAsSimpleTo` — a page as a simple message.
* `RichPage.Counts` — a count and the text that it counts.

## Main results

* `RichPage.trimmedLength_eq` — what is counted of a text is what is left of it.
* `RichPage.counts_collect` — a sink that counts another counts it after the whole page.
* `RichPage.counter_eq_builder` — the two sinks agree.
-/

namespace RichPage

open Text

/-! ### The sinks -/

/-- Where a page is serialized to. -/
structure Accumulator (Sink : Type) where
  empty : Sink
  append : Sink → TextWithEntities → EntityType → Text → Sink
  appendQuote : Sink → Sink → Bool → Sink
  length : Sink → ℕ

section Sinks

variable (library : TextLibrary)

def appendSimpleBlock (result block : TextWithEntities) (wrap : EntityType) (wrapData : Text) :
    TextWithEntities :=
  let block := library.trim block
  if block.empty then result
  else
    let block :=
      if wrap ≠ .invalid then
        { block with entities := block.entities ++ [⟨wrap, 0, block.text.length, wrapData⟩] }
      else block
    let result := if result.empty then result else result.append { text := [10] }
    result.append block

/-- The number of trimmed units from a position to a limit. -/
def leadingTrimmed (limit position : ℕ) : Text → ℕ
  | [] => position
  | unit :: rest =>
    if position ≠ limit ∧ library.isTrimmed unit then leadingTrimmed limit (position + 1) rest else position

/-- The length that a text has after it is trimmed. -/
def trimmedLength (text : TextWithEntities) : ℕ :=
  let body := library.trimmedEnd text.text
  if body = [] then 0
  else body.length - leadingTrimmed library (library.firstMonospaceOffset text.entities body.length) 0 body

/-- `SimpleTextBuilder`. -/
def simpleTextBuilder : Accumulator TextWithEntities where
  empty := {}
  append result text wrap wrapData := appendSimpleBlock library result text wrap wrapData
  appendQuote result body collapsed :=
    appendSimpleBlock library result body .blockquote (if collapsed then u "1" else [])
  length result := result.text.length

/-- `SimpleTextCounter::appendLength`: the one is for the line break before the block. -/
def appendLength (result length : ℕ) : ℕ :=
  if 0 < length then result + ((if 0 < result then 1 else 0) + length) else result

/-- `SimpleTextCounter`. -/
def simpleTextCounter : Accumulator ℕ where
  empty := 0
  append result text _ _ := appendLength result (trimmedLength library text)
  appendQuote result body _ := appendLength result body
  length result := result

end Sinks

/-! ### Pages -/

section Pages

variable {Sink : Type} (sink : Accumulator Sink)

/-- The entities that a simple message may have: no subscript, superscript or mark, and no object that stands
in the text as a custom emoji. -/
def simpleTextEntitiesAllowed (text : TextWithEntities) : Bool :=
  text.entities.all fun entity =>
    entity.type ≠ .subscript && entity.type ≠ .superscript && entity.type ≠ .marked &&
      !(entity.type = .customEmoji && (parseInlineTextObjectEntity entity.data).isSome)

def richBlockquoteIsCollapsible (block : Block) : Bool :=
  block.kind = .quote && !block.pullquote && block.blocks.isEmpty

/-- The paragraphs of a quote; a simple message has no other blocks in it. -/
def collectSimpleParagraphs (body : Sink) : List Block → Option Sink
  | [] => some body
  | child :: rest =>
    if child.kind ≠ .paragraph ∨ simpleTextEntitiesAllowed child.text.text = false then none
    else collectSimpleParagraphs (sink.append body child.text.text .invalid []) rest

def collectSimpleQuote (quote : Block) (body : Sink) : Option Sink :=
  if quote.pullquote ∨ stringIsEmpty quote.author = false ∨ stringIsEmpty quote.caption.text.text = false then
    none
  else if quote.text.text.empty = false then
    if simpleTextEntitiesAllowed quote.text.text = false then none
    else collectSimpleParagraphs sink (sink.append body quote.text.text .invalid []) quote.blocks
  else collectSimpleParagraphs sink body quote.blocks

/-- A block of a simple message; there are no others. -/
def serializeBlockTo (result : Sink) (block : Block) : Option Sink :=
  match block.kind with
  | .paragraph =>
    if simpleTextEntitiesAllowed block.text.text = false then none
    else some (sink.append result block.text.text .invalid [])
  | .code =>
    if block.text.text.entities ≠ [] then none
    else some (sink.append result block.text.text .pre block.language)
  | .quote =>
    (collectSimpleQuote sink block sink.empty).map fun body =>
      sink.appendQuote result body (block.collapsed && richBlockquoteIsCollapsible block)
  | _ => none

/-- The blocks of a page, up to the first that a simple message cannot carry: the sink that was reached, and
whether all blocks are in it. -/
def serializeBlocksTo (result : Sink) : List Block → Sink × Bool
  | [] => (result, true)
  | block :: rest =>
    match serializeBlockTo sink result block with
    | none => (result, false)
    | some result => serializeBlocksTo result rest

/-- A page as a simple message: the sink, and whether the page can be sent so. -/
def serializeAsSimpleTo (messageLengthCurrent : ℕ) (page : List Block) : Sink × Bool :=
  let collected := serializeBlocksTo sink sink.empty page
  (collected.1, collected.2 && decide (sink.length collected.1 ≠ 0) &&
    decide (sink.length collected.1 ≤ messageLengthCurrent))

end Pages

/-! ### What is counted -/

section Counts

variable {library : TextLibrary}

lemma leadingTrimmed_eq {limit position : ℕ} (h : position ≤ limit) (text : Text) :
    leadingTrimmed library limit position text =
      position + min (text.takeWhile library.isTrimmed).length (limit - position) := by
  induction text generalizing position with
  | nil => simp [leadingTrimmed]
  | cons unit rest ih =>
    unfold leadingTrimmed
    by_cases hlimit : position = limit
    · rw [if_neg fun hboth => hboth.1 hlimit]
      omega
    · cases hunit : library.isTrimmed unit with
      | true =>
        rw [if_pos ⟨hlimit, rfl⟩, ih (by omega), List.takeWhile_cons_of_pos hunit, List.length_cons]
        omega
      | false =>
        rw [if_neg (by simp), List.takeWhile_cons_of_neg (by rw [hunit]; decide), List.length_nil]
        omega

/-- **What is counted of a text** is what is left of it after it is trimmed. -/
theorem trimmedLength_eq (h : library.Documented) (text : TextWithEntities) :
    trimmedLength library text = (library.trim text).text.length := by
  unfold trimmedLength
  dsimp only
  rcases h.trim_eq text with ⟨hblank, htrim⟩ | ⟨hvisible, -, hlength⟩
  · rw [if_pos hblank, htrim]
    rfl
  · rw [if_neg hvisible, leadingTrimmed_eq (Nat.zero_le _), Nat.zero_add, Nat.sub_zero, hlength]

/-- What is left of a text is nothing, or trimming leaves it as it is. -/
lemma trim_settled (h : library.Documented) (text : TextWithEntities) :
    (library.trim text).text = [] ∨ library.Settled (library.trim text) := by
  rcases h.trim_eq text with ⟨-, htrim⟩ | ⟨-, hsettled, -⟩
  · rw [htrim]
    exact Or.inl rfl
  · exact Or.inr hsettled

variable (library) in
/-- A count and the text that it counts: the text is empty, or trimming leaves it as it is. -/
structure Counts (count : ℕ) (text : TextWithEntities) : Prop where
  length : count = text.text.length
  settled : text.text = [] ∨ library.Settled text
  entities : text.text = [] → text.entities = []

lemma counts_empty : Counts library 0 {} := ⟨rfl, Or.inl rfl, fun _ => rfl⟩

/-- A text stays as it is by trimming behind nothing. -/
lemma settled_append {result block : TextWithEntities} (hblock : library.Settled block)
    (hresult : result.text = [] ∧ result.entities = []) : library.Settled (result.append block) := by
  obtain ⟨unit, hlast, hunit⟩ := hblock.last
  obtain ⟨htext, hentities⟩ := hresult
  unfold TextWithEntities.append
  rw [htext, hentities, List.nil_append, List.nil_append]
  refine ⟨⟨unit, hlast, hunit⟩, ?_⟩
  rcases hblock.first with hfirst | ⟨entity, hmem, hmono, hoffset⟩
  · exact Or.inl hfirst
  · exact Or.inr ⟨entity.shiftRight 0, List.mem_map_of_mem hmem, hmono, hoffset⟩

/-- A line break behind a text keeps how the text starts. -/
lemma settled_append_break {result block : TextWithEntities} (hresult : library.Settled result)
    (hblock : library.Settled block) : library.Settled ((result.append { text := [10] }).append block) := by
  obtain ⟨unit, hlast, hunit⟩ := hblock.last
  constructor
  · refine ⟨unit, ?_, hunit⟩
    unfold TextWithEntities.append
    rw [List.getLast?_append, hlast]
    rfl
  · rcases hresult.first with ⟨first, hfirst, hnot⟩ | ⟨entity, hmem, hmono, hoffset⟩
    · refine Or.inl ⟨first, ?_, hnot⟩
      unfold TextWithEntities.append
      rw [List.head?_append, List.head?_append, hfirst]
      rfl
    · exact Or.inr ⟨entity, List.mem_append_left _ (List.mem_append_left _ hmem), hmono, hoffset⟩

lemma settled_wrap {block : TextWithEntities} (h : library.Settled block) (entity : EntityInText) :
    library.Settled { block with entities := block.entities ++ [entity] } where
  last := h.last
  first := h.first.imp_right fun ⟨other, hmem, hmono, hoffset⟩ =>
    ⟨other, List.mem_append_left _ hmem, hmono, hoffset⟩

/-- A block that is counted as long as what is left of it. -/
lemma Counts.appendSimpleBlock (h : library.Documented) {count length : ℕ} {result block : TextWithEntities}
    (hcounts : Counts library count result) (hlength : length = (library.trim block).text.length)
    (wrap : EntityType) (wrapData : Text) :
    Counts library (appendLength count length) (appendSimpleBlock library result block wrap wrapData) := by
  unfold appendLength RichPage.appendSimpleBlock TextWithEntities.empty
  dsimp only
  rcases trim_settled h block with hblank | hsettled
  · rw [hblank, List.length_nil] at hlength
    rw [hlength, if_neg (lt_irrefl 0), hblank, decide_eq_true rfl, if_pos rfl]
    exact hcounts
  · have hvisible : (library.trim block).text ≠ [] := by
      obtain ⟨unit, hlast, -⟩ := hsettled.last
      intro hnil
      rw [hnil] at hlast
      cases hlast
    have hpos : 0 < length := by
      rw [hlength]
      exact List.length_pos_iff.mpr hvisible
    rw [if_pos hpos, decide_eq_false hvisible, if_neg Bool.false_ne_true]
    have hwrapped : ∃ wrapped : TextWithEntities, (if wrap ≠ .invalid then
        { library.trim block with
          entities := (library.trim block).entities ++
            [⟨wrap, 0, (library.trim block).text.length, wrapData⟩] }
        else library.trim block) = wrapped ∧ wrapped.text = (library.trim block).text ∧
        library.Settled wrapped := by
      refine ⟨_, rfl, ?_, ?_⟩
      · split_ifs <;> rfl
      · split_ifs
        · exact settled_wrap hsettled _
        · exact hsettled
    obtain ⟨wrapped, hwrap, htext, hwrappedSettled⟩ := hwrapped
    rw [hwrap]
    have hwrappedVisible : wrapped.text ≠ [] := by
      rw [htext]
      exact hvisible
    rcases hcounts.settled with hnil | hresult
    · have hzero : count = 0 := by rw [hcounts.length, hnil, List.length_nil]
      rw [hnil, decide_eq_true rfl, if_pos rfl, hzero, if_neg (lt_irrefl 0)]
      refine ⟨?_, Or.inr (settled_append hwrappedSettled ⟨hnil, hcounts.entities hnil⟩), ?_⟩
      · unfold TextWithEntities.append
        rw [hnil, List.nil_append, htext, hlength]
        omega
      · intro happend
        exact absurd (List.append_eq_nil_iff.mp happend).2 hwrappedVisible
    · have hne : result.text ≠ [] := by
        obtain ⟨unit, hlast, -⟩ := hresult.last
        intro hnil
        rw [hnil] at hlast
        cases hlast
      have hcount : 0 < count := by
        rw [hcounts.length]
        exact List.length_pos_iff.mpr hne
      rw [decide_eq_false hne, if_neg Bool.false_ne_true, if_pos hcount]
      refine ⟨?_, Or.inr (settled_append_break hresult hwrappedSettled), ?_⟩
      · unfold TextWithEntities.append
        dsimp only
        rw [List.length_append, List.length_append, List.length_singleton, htext, hlength, hcounts.length]
        omega
      · intro happend
        exact absurd (List.append_eq_nil_iff.mp happend).2 hwrappedVisible

/-- What a quote collected is trimmed once more, and stays as long. -/
lemma Counts.length_trim (h : library.Documented) {count : ℕ} {body : TextWithEntities}
    (hcounts : Counts library count body) : count = (library.trim body).text.length := by
  rw [hcounts.length]
  rcases hcounts.settled with hnil | hsettled
  · rcases h.trim_eq body with ⟨-, htrim⟩ | ⟨hvisible, -, -⟩
    · rw [hnil, htrim]
    · exact absurd (show library.trimmedEnd body.text = [] by rw [hnil]; rfl) hvisible
  · exact (h.trim_of_settled hsettled).1.symm

end Counts

/-! ### Sinks that correspond -/

/-- Two sinks that correspond stay so: at the start, after a text, and after a quote that was collected in
sinks that correspond. -/
structure Corresponds {First Second : Type} (first : Accumulator First) (second : Accumulator Second)
    (related : First → Second → Prop) : Prop where
  empty : related first.empty second.empty
  append : ∀ ⦃a b⦄, related a b → ∀ text wrap wrapData,
    related (first.append a text wrap wrapData) (second.append b text wrap wrapData)
  appendQuote : ∀ ⦃a b⦄, related a b → ∀ ⦃body other⦄, related body other → ∀ collapsed,
    related (first.appendQuote a body collapsed) (second.appendQuote b other collapsed)

section Corresponding

variable {First Second : Type} {first : Accumulator First} {second : Accumulator Second}
  {related : First → Second → Prop}

/-- Paragraphs are collected in both sinks, or in none. -/
lemma Corresponds.collectSimpleParagraphs (h : Corresponds first second related) {a : First} {b : Second}
    (hab : related a b) (blocks : List Block) :
    Option.Rel related (collectSimpleParagraphs first a blocks) (collectSimpleParagraphs second b blocks) := by
  induction blocks generalizing a b with
  | nil => exact Option.Rel.some hab
  | cons child rest ih =>
    unfold RichPage.collectSimpleParagraphs
    split_ifs
    · exact Option.Rel.none
    · exact ih (h.append hab _ _ _)

lemma Corresponds.collectSimpleQuote (h : Corresponds first second related) {a : First} {b : Second}
    (hab : related a b) (quote : Block) :
    Option.Rel related (collectSimpleQuote first quote a) (collectSimpleQuote second quote b) := by
  unfold RichPage.collectSimpleQuote
  split_ifs
  · exact Option.Rel.none
  · exact Option.Rel.none
  · exact h.collectSimpleParagraphs (h.append hab _ _ _) _
  · exact h.collectSimpleParagraphs hab _

lemma Corresponds.serializeBlockTo (h : Corresponds first second related) {a : First} {b : Second}
    (hab : related a b) (block : Block) :
    Option.Rel related (serializeBlockTo first a block) (serializeBlockTo second b block) := by
  unfold RichPage.serializeBlockTo
  cases block.kind
  case paragraph =>
    dsimp only
    split_ifs
    · exact Option.Rel.none
    · exact Option.Rel.some (h.append hab _ _ _)
  case code =>
    dsimp only
    split_ifs
    · exact Option.Rel.none
    · exact Option.Rel.some (h.append hab _ _ _)
  case quote =>
    dsimp only
    have hquote := h.collectSimpleQuote h.empty block
    generalize RichPage.collectSimpleQuote first block first.empty = body at hquote ⊢
    generalize RichPage.collectSimpleQuote second block second.empty = other at hquote ⊢
    cases hquote with
    | none => exact Option.Rel.none
    | some hbody => exact Option.Rel.some (h.appendQuote hab hbody _)
  all_goals exact Option.Rel.none

/-- Both sinks stop at the same block, and correspond there. -/
lemma Corresponds.serializeBlocksTo (h : Corresponds first second related) {a : First} {b : Second}
    (hab : related a b) (blocks : List Block) :
    related (serializeBlocksTo first a blocks).1 (serializeBlocksTo second b blocks).1 ∧
      (serializeBlocksTo first a blocks).2 = (serializeBlocksTo second b blocks).2 := by
  induction blocks generalizing a b with
  | nil => exact ⟨hab, rfl⟩
  | cons block rest ih =>
    unfold RichPage.serializeBlocksTo
    have hblock := h.serializeBlockTo hab block
    generalize RichPage.serializeBlockTo first a block = next at hblock ⊢
    generalize RichPage.serializeBlockTo second b block = other at hblock ⊢
    cases hblock with
    | none => exact ⟨hab, rfl⟩
    | some hnext => exact ih hnext

end Corresponding

variable {library : TextLibrary}

/-- **The counter counts what the builder builds.** -/
theorem counts_collect (h : library.Documented) :
    Corresponds (simpleTextCounter library) (simpleTextBuilder library) (Counts library) where
  empty := counts_empty
  append _ _ hcounts text wrap wrapData :=
    hcounts.appendSimpleBlock h (trimmedLength_eq h text) wrap wrapData
  appendQuote _ _ hcounts _ _ hbody _ := hcounts.appendSimpleBlock h (hbody.length_trim h) _ _

/-- **The cheap check is the real one.** For every page the counter and the builder give the same verdict, and
the counter has the length of the text that is built.

**Proof sketch.** The counter corresponds to the builder: what is counted of a text is what is left of it, a
text that was built ends and starts so that trimming it again changes nothing, and so do the texts of quotes. -/
theorem counter_eq_builder (h : library.Documented) (messageLengthCurrent : ℕ) (page : List Block) :
    (serializeAsSimpleTo (simpleTextCounter library) messageLengthCurrent page).2 =
        (serializeAsSimpleTo (simpleTextBuilder library) messageLengthCurrent page).2 ∧
      (simpleTextCounter library).length
          (serializeAsSimpleTo (simpleTextCounter library) messageLengthCurrent page).1 =
        (serializeAsSimpleTo (simpleTextBuilder library) messageLengthCurrent page).1.text.length := by
  obtain ⟨hcounts, hreached⟩ := (counts_collect h).serializeBlocksTo (counts_collect h).empty page
  have hlength : (simpleTextCounter library).length (serializeBlocksTo (simpleTextCounter library)
      (simpleTextCounter library).empty page).1 = (simpleTextBuilder library).length
        (serializeBlocksTo (simpleTextBuilder library) (simpleTextBuilder library).empty page).1 :=
    hcounts.length
  unfold serializeAsSimpleTo
  dsimp only
  rw [hreached, hlength]
  exact ⟨rfl, rfl⟩

/-- A paragraph and a quote of two paragraphs, of which the first starts with a blank in code. -/
def quotedPage : List Block :=
  [{ kind := .paragraph, text := { text := { text := u " a " } } },
    { kind := .quote
      text := { text := { text := u "  b", entities := [⟨.code, 1, 2, []⟩] } }
      blocks := [{ kind := .paragraph, text := { text := { text := u "c " } } }] }]

/-- The page has six units as a simple message. -/
theorem counter_eq_builder_quoted :
    (serializeAsSimpleTo (simpleTextCounter (.ofTrimmed LocalData.isSpace)) 4096 quotedPage).2 =
        (serializeAsSimpleTo (simpleTextBuilder (.ofTrimmed LocalData.isSpace)) 4096 quotedPage).2 ∧
      (simpleTextCounter (.ofTrimmed LocalData.isSpace)).length
          (serializeAsSimpleTo (simpleTextCounter (.ofTrimmed LocalData.isSpace)) 4096 quotedPage).1 =
        (serializeAsSimpleTo (simpleTextBuilder (.ofTrimmed LocalData.isSpace)) 4096
          quotedPage).1.text.length :=
  counter_eq_builder (TextLibrary.documented_ofTrimmed LocalData.isSpace) 4096 quotedPage

example : (serializeAsSimpleTo (simpleTextBuilder (.ofTrimmed LocalData.isSpace)) 4096 quotedPage).1.text =
    u "a\n b\nc" := by
  decide

end RichPage
