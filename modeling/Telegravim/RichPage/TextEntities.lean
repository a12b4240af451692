import Telegravim.Foundation.Text
import Mathlib.Data.List.DropRight
import Mathlib.Data.List.MinMax

set_option autoImplicit false

/-!
# Rich pages: formatted texts

A formatted text is a text with entities: each is of a type, stands over a part of the text and may carry data.
The library of texts is not part of the repository. What it is used for here stands as functions, with what
they are documented to do.

## Main definitions

* `RichPage.EntityInText`, `RichPage.TextWithEntities` — entities and formatted texts.
* `RichPage.TextLibrary`, `RichPage.TextLibrary.Documented` — trimming.

## Main results

* `RichPage.TextLibrary.Documented.trim_eq` — what is left of a text that is trimmed.
* `RichPage.TextLibrary.Documented.trim_of_settled` — a text that ends and starts well is not trimmed.
-/

namespace RichPage

open Text

inductive EntityType where
  | invalid
  | url
  | customUrl
  | email
  | hashtag
  | cashtag
  | mention
  | mentionName
  | customEmoji
  | formattedDate
  | botCommand
  | mediaTimestamp
  | colorized
  | phone
  | bankCard
  | bold
  | semibold
  | italic
  | underline
  | strikeOut
  | code
  | pre
  | blockquote
  | spoiler
  | subscript
  | superscript
  | marked
  deriving DecidableEq

structure EntityInText where
  type : EntityType
  offset : ℕ
  length : ℕ
  data : Text := []
  deriving DecidableEq

namespace EntityInText

/-- Where an entity ends. -/
def till (entity : EntityInText) : ℕ := entity.offset + entity.length

def shiftRight (shift : ℕ) (entity : EntityInText) : EntityInText :=
  { entity with offset := entity.offset + shift }

/-- An entity of a text that loses its first units. -/
def shiftLeft (shift : ℕ) (entity : EntityInText) : EntityInText :=
  { entity with offset := entity.offset - shift, length := entity.till - shift - (entity.offset - shift) }

/-- An entity of a text that is cut. -/
def updateTextEnd (textEnd : ℕ) (entity : EntityInText) : EntityInText :=
  { entity with
    offset := min entity.offset textEnd
    length := min entity.till textEnd - min entity.offset textEnd }

/-- Whether an entity is of a type in which blanks are kept. -/
def isMonospace (entity : EntityInText) : Bool := entity.type = .pre || entity.type = .code

end EntityInText

structure TextWithEntities where
  text : Text := []
  entities : List EntityInText := []
  deriving DecidableEq

namespace TextWithEntities

/-- A formatted text without units is empty. -/
def empty (text : TextWithEntities) : Bool := text.text = []

def append (text other : TextWithEntities) : TextWithEntities where
  text := text.text ++ other.text
  entities := text.entities ++ other.entities.map (EntityInText.shiftRight text.text.length)

end TextWithEntities

/-! ### Trimming -/

/-- What is used of the library of texts: which units are trimmed, where the first entity starts in which
blanks are kept, and trimming. -/
structure TextLibrary where
  isTrimmed : UInt16 → Bool
  firstMonospaceOffset : List EntityInText → ℕ → ℕ
  trim : TextWithEntities → TextWithEntities

namespace TextLibrary

variable (library : TextLibrary)

/-- The text without its last trimmed units. -/
def trimmedEnd (text : Text) : Text := text.rdropWhile library.isTrimmed

/-- What the library is documented to do. The first offset is the least, or the length of the text when there is
none. Trimming drops the last trimmed units, and of the first ones those up to the first entity in which blanks
are kept; entities are cut with the text, and dropped when nothing is left of it. -/
structure Documented : Prop where
  firstMonospaceOffset_eq : ∀ entities textLength, library.firstMonospaceOffset entities textLength =
    (((entities.filter EntityInText.isMonospace).map EntityInText.offset).min?).getD textLength
  trim_of_blank : ∀ text : TextWithEntities, library.trimmedEnd text.text = [] → library.trim text = {}
  trim_of_visible : ∀ text : TextWithEntities, library.trimmedEnd text.text ≠ [] →
    let body := library.trimmedEnd text.text
    let entities := text.entities.map (EntityInText.updateTextEnd body.length)
    let start := min (body.takeWhile library.isTrimmed).length
      (library.firstMonospaceOffset entities body.length)
    library.trim text = { text := body.drop start, entities := entities.map (EntityInText.shiftLeft start) }

/-- A library that trims given units, as it is documented. -/
def ofTrimmed (isTrimmed : UInt16 → Bool) : TextLibrary where
  isTrimmed
  firstMonospaceOffset entities textLength :=
    (((entities.filter EntityInText.isMonospace).map EntityInText.offset).min?).getD textLength
  trim text :=
    let body := text.text.rdropWhile isTrimmed
    if body = [] then {}
    else
      let entities := text.entities.map (EntityInText.updateTextEnd body.length)
      let start := min (body.takeWhile isTrimmed).length
        ((((entities.filter EntityInText.isMonospace).map EntityInText.offset).min?).getD body.length)
      { text := body.drop start, entities := entities.map (EntityInText.shiftLeft start) }

lemma documented_ofTrimmed (isTrimmed : UInt16 → Bool) : (ofTrimmed isTrimmed).Documented where
  firstMonospaceOffset_eq _ _ := rfl
  trim_of_blank _ hblank := if_pos hblank
  trim_of_visible _ hvisible := if_neg hvisible

/-- A text that trimming leaves as it is: it has units, its last one is not trimmed, and its first one is not or
stands where blanks are kept. -/
structure Settled (text : TextWithEntities) : Prop where
  last : ∃ unit, text.text.getLast? = some unit ∧ library.isTrimmed unit = false
  first : (∃ unit, text.text.head? = some unit ∧ library.isTrimmed unit = false) ∨
    ∃ entity ∈ text.entities, entity.isMonospace = true ∧ entity.offset = 0

variable {library}

/-- What is left at the end is not trimmed. -/
lemma trimmedEnd_last {text : Text} (h : library.trimmedEnd text ≠ []) :
    ∃ unit, (library.trimmedEnd text).getLast? = some unit ∧ library.isTrimmed unit = false := by
  refine ⟨(library.trimmedEnd text).getLast h, List.getLast?_eq_some_getLast h, ?_⟩
  have hnot := List.rdropWhile_last_not library.isTrimmed text h
  exact Bool.eq_false_of_not_eq_true hnot

/-- A text whose last unit is not trimmed keeps its end. -/
lemma trimmedEnd_eq_self {text : Text} {unit : UInt16} (hlast : text.getLast? = some unit)
    (hunit : library.isTrimmed unit = false) : library.trimmedEnd text = text := by
  unfold trimmedEnd
  rw [List.rdropWhile_eq_self_iff]
  intro hne
  rw [List.getLast?_eq_some_getLast hne, Option.some.injEq] at hlast
  rw [hlast, hunit]
  exact Bool.false_ne_true

/-- A text with a unit that is not trimmed has fewer trimmed units at its start than it has units. -/
lemma length_takeWhile_lt {text : Text} {unit : UInt16} (hlast : text.getLast? = some unit)
    (hunit : library.isTrimmed unit = false) :
    (text.takeWhile library.isTrimmed).length < text.length := by
  refine lt_of_le_of_ne (List.takeWhile_prefix _).length_le fun heq => ?_
  have hall : text.takeWhile library.isTrimmed = text :=
    (List.takeWhile_prefix _).eq_of_length heq
  have hmem : unit ∈ text := List.mem_of_getLast? hlast
  have htrimmed := List.takeWhile_eq_self_iff.mp hall unit hmem
  rw [hunit] at htrimmed
  cases htrimmed

namespace Documented

/-- The first offset does not change below the end when the entities are cut. -/
lemma min_firstMonospaceOffset (h : library.Documented) (entities : List EntityInText) {count size : ℕ}
    (hcount : count ≤ size) :
    min count (library.firstMonospaceOffset (entities.map (EntityInText.updateTextEnd size)) size) =
      min count (library.firstMonospaceOffset entities size) := by
  rw [h.firstMonospaceOffset_eq, h.firstMonospaceOffset_eq]
  have hcut : ((entities.map (EntityInText.updateTextEnd size)).filter EntityInText.isMonospace).map
      EntityInText.offset = ((entities.filter EntityInText.isMonospace).map EntityInText.offset).map
        (min · size) := by
    induction entities with
    | nil => rfl
    | cons entity rest ih =>
      have hsame : (entity.updateTextEnd size).isMonospace = entity.isMonospace := rfl
      rw [List.map_cons]
      cases hmono : entity.isMonospace with
      | true =>
        rw [List.filter_cons_of_pos (hsame.trans hmono), List.filter_cons_of_pos hmono, List.map_cons,
          List.map_cons, List.map_cons, ih]
        rfl
      | false =>
        rw [List.filter_cons_of_neg (by rw [hsame, hmono]; decide),
          List.filter_cons_of_neg (by rw [hmono]; decide), ih]
  rw [hcut]
  generalize ((entities.filter EntityInText.isMonospace).map EntityInText.offset) = offsets
  cases offsets with
  | nil => rfl
  | cons first rest =>
    rw [List.map_cons, List.min?_cons', List.min?_cons', Option.getD_some, Option.getD_some]
    have hfold : ∀ (rest : List ℕ) (first : ℕ),
        (rest.map (min · size)).foldl min (min first size) = min (rest.foldl min first) size := by
      intro rest
      induction rest with
      | nil => exact fun first => rfl
      | cons next rest ih =>
        intro first
        rw [List.map_cons, List.foldl_cons, List.foldl_cons, ← ih]
        congr 1
        omega
    rw [hfold]
    omega

/-- **What is left of a text that is trimmed**: nothing, or a text that trimming leaves as it is. -/
theorem trim_eq (h : library.Documented) (text : TextWithEntities) :
    (library.trimmedEnd text.text = [] ∧ library.trim text = {}) ∨
      (library.trimmedEnd text.text ≠ [] ∧ library.Settled (library.trim text) ∧
        (library.trim text).text.length = (library.trimmedEnd text.text).length -
          min ((library.trimmedEnd text.text).takeWhile library.isTrimmed).length
            (library.firstMonospaceOffset text.entities (library.trimmedEnd text.text).length)) := by
  by_cases hblank : library.trimmedEnd text.text = []
  · exact Or.inl ⟨hblank, h.trim_of_blank text hblank⟩
  right
  obtain ⟨unit, hlast, hunit⟩ := trimmedEnd_last hblank
  have hlt := length_takeWhile_lt hlast hunit
  have htrim := h.trim_of_visible text hblank
  dsimp only at htrim
  rw [h.min_firstMonospaceOffset text.entities hlt.le] at htrim
  generalize library.trimmedEnd text.text = body at hblank hlast hlt htrim ⊢
  generalize hstart : min (body.takeWhile library.isTrimmed).length
    (library.firstMonospaceOffset text.entities body.length) = start at htrim ⊢
  refine ⟨hblank, ⟨⟨unit, ?_, hunit⟩, ?_⟩, by rw [htrim, List.length_drop]⟩
  · rw [htrim]
    dsimp only
    rw [List.getLast?_drop, if_neg (by omega), hlast]
  · rw [htrim]
    dsimp only
    rcases Nat.lt_or_ge start (body.takeWhile library.isTrimmed).length with hkept | hfirst
    · right
      have hoffset : library.firstMonospaceOffset text.entities body.length = start := by omega
      rw [h.firstMonospaceOffset_eq] at hoffset
      cases hmin : ((text.entities.filter EntityInText.isMonospace).map EntityInText.offset).min? with
      | none =>
        rw [hmin, Option.getD_none] at hoffset
        omega
      | some least =>
        rw [hmin, Option.getD_some] at hoffset
        obtain ⟨entity, hentity, hleast⟩ := List.mem_map.mp (List.min?_mem hmin)
        obtain ⟨hmem, hmono⟩ := List.mem_filter.mp hentity
        refine ⟨(entity.updateTextEnd body.length).shiftLeft start,
          List.mem_map_of_mem (List.mem_map_of_mem hmem), hmono, ?_⟩
        show min entity.offset body.length - start = 0
        omega
    · left
      have heq : start = (body.takeWhile library.isTrimmed).length := by omega
      have hdrop : body.drop start = body.dropWhile library.isTrimmed := by
        calc body.drop start = (body.takeWhile library.isTrimmed ++ body.dropWhile library.isTrimmed).drop
              (body.takeWhile library.isTrimmed).length := by rw [List.takeWhile_append_dropWhile, heq]
          _ = body.dropWhile library.isTrimmed := List.drop_left
      have hne : body.dropWhile library.isTrimmed ≠ [] := by
        rw [← hdrop]
        intro hnil
        have hzero := congrArg List.length hnil
        rw [List.length_drop, List.length_nil] at hzero
        omega
      rw [hdrop, List.head?_eq_some_head hne]
      exact ⟨_, rfl, List.head_dropWhile_not _ hne⟩

/-- **A text that ends and starts well** is not trimmed. -/
theorem trim_of_settled (h : library.Documented) {text : TextWithEntities} (hsettled : library.Settled text) :
    (library.trim text).text.length = text.text.length ∧ library.Settled (library.trim text) := by
  obtain ⟨unit, hlast, hunit⟩ := hsettled.last
  have hbody := trimmedEnd_eq_self hlast hunit
  rcases h.trim_eq text with ⟨hblank, -⟩ | ⟨-, htrimmed, hlength⟩
  · rw [hbody] at hblank
    rw [hblank] at hlast
    cases hlast
  · refine ⟨?_, htrimmed⟩
    rw [hlength, hbody]
    have hzero : min (text.text.takeWhile library.isTrimmed).length
        (library.firstMonospaceOffset text.entities text.text.length) = 0 := by
      rcases hsettled.first with ⟨first, hfirst, hnot⟩ | ⟨entity, hmem, hmono, hoffset⟩
      · cases htext : text.text with
        | nil =>
          rw [htext] at hfirst
          cases hfirst
        | cons other rest =>
          rw [htext, List.head?_cons, Option.some.injEq] at hfirst
          subst hfirst
          rw [List.takeWhile_cons_of_neg (by rw [hnot]; decide), List.length_nil, Nat.zero_min]
      · rw [h.firstMonospaceOffset_eq]
        have hzeroMem : 0 ∈ (text.entities.filter EntityInText.isMonospace).map EntityInText.offset :=
          List.mem_map.mpr ⟨entity, List.mem_filter.mpr ⟨hmem, hmono⟩, hoffset⟩
        cases hmin : ((text.entities.filter EntityInText.isMonospace).map EntityInText.offset).min? with
        | none =>
          rw [List.min?_eq_none_iff.mp hmin] at hzeroMem
          cases hzeroMem
        | some least =>
          have hle := (List.min?_eq_some_iff.mp hmin).2 0 hzeroMem
          rw [Option.getD_some]
          omega
    omega

end Documented

end TextLibrary

end RichPage
