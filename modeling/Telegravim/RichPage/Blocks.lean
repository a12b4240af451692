import Telegravim.LocalData.Validate
import Telegravim.RichPage.TextEntities

set_option autoImplicit false

/-!
# Rich pages: blocks

A rich page is a list of blocks. A block of any kind has the same fields, and each kind uses some of them;
quotes, lists and others hold blocks again.

## Main definitions

* `RichPage.RichText`, `RichPage.Block`, `RichPage.ListItem`, `RichPage.TableRow` — what a page is made of.
* `RichPage.stringIsEmpty` — texts of blanks.
* `RichPage.parseInlineTextObjectEntity` — objects that stand in a text as custom emoji.
-/

namespace RichPage

open Text

structure RichText where
  text : TextWithEntities := {}
  anchorId : Text := []
  anchorIds : List Text := []
  deriving DecidableEq

inductive BlockKind where
  | unsupported
  | heading
  | paragraph
  | footer
  | thinking
  | authorDate
  | code
  | divider
  | anchor
  | buttonRow
  | list
  | quote
  | photo
  | video
  | embed
  | embedPost
  | groupedMedia
  | channel
  | audio
  | file
  | math
  | table
  | details
  | relatedArticles
  | map
  deriving DecidableEq

/-- An item of a list of blocks. -/
structure ListItem (Block : Type) where
  anchorId : Text := []
  text : RichText := {}
  blocks : List Block := []

/-- A photo or a video of a group; the objects that are loaded already are numbered. -/
structure GroupedMediaItem where
  kind : BlockKind := .unsupported
  photo : Option ℕ := none
  document : Option ℕ := none
  photoId : ℕ := 0
  documentId : ℕ := 0
  deriving DecidableEq

inductive TableAlignment where
  | left
  | center
  | right
  deriving DecidableEq

inductive TableVerticalAlignment where
  | top
  | middle
  | bottom
  deriving DecidableEq

structure TableCell where
  text : RichText := {}
  colspan : ℤ := 1
  rowspan : ℤ := 1
  header : Bool := false
  alignment : TableAlignment := .left
  verticalAlignment : TableVerticalAlignment := .top
  deriving DecidableEq

structure TableRow where
  cells : List TableCell := []
  deriving DecidableEq

structure Button where
  text : RichText := {}
  deriving DecidableEq

structure Block where
  kind : BlockKind := .unsupported
  anchorId : Text := []
  text : RichText := {}
  caption : RichText := {}
  language : Text := []
  formula : Text := []
  author : Text := []
  date : ℤ := 0
  zoom : ℤ := 0
  photoId : ℕ := 0
  documentId : ℕ := 0
  photo : Option ℕ := none
  document : Option ℕ := none
  pullquote : Bool := false
  collapsed : Bool := false
  blocks : List Block := []
  listItems : List (ListItem Block) := []
  mediaItems : List GroupedMediaItem := []
  tableRows : List TableRow := []
  buttons : List Button := []

/-- Whether a text has blanks only. -/
def stringIsEmpty (text : Text) : Bool := text.all LocalData.isSpace

/-! ### Objects in a text -/

inductive InlineTextObjectKind where
  | formula
  | ivImage
  | button
  deriving DecidableEq

/-- The integer of a text, with blanks around it and a sign before it, when it is in a range; a range without
negative numbers takes no minus. -/
def toInteger (low high : ℤ) (text : Text) : Option ℤ :=
  let trimmed := ((text.dropWhile LocalData.isSpace).reverse.dropWhile LocalData.isSpace).reverse
  let negative := decide (trimmed.head? = some 45)
  let digits := if negative ∨ trimmed.head? = some 43 then trimmed.drop 1 else trimmed
  if digits = [] ∨ digits.all (fun unit => (charOf unit).isDigit) = false ∨ (negative ∧ 0 ≤ low) then none
  else
    let value : ℤ := Nat.ofDigitChars 10 (digits.map charOf) 0
    let signed := if negative then -value else value
    if low ≤ signed ∧ signed ≤ high then some signed else none

def maxInt : ℤ := 2147483647

def maxLongLong : ℤ := 9223372036854775807

/-- `ParseInlineTextObjectEntity`, with the kind of the object. -/
def parseInlineTextObjectEntity (data : Text) : Option InlineTextObjectKind :=
  match split data 59 with
  | head :: kind :: fields =>
    if head ≠ u "iv-markdown:inline-text-object" then none
    else if kind = u "formula" then if fields.length = 2 then some .formula else none
    else if kind = u "iv-image" then
      match fields with
      | [documentId, width, height, _] =>
        if (toInteger 0 (2 * maxLongLong + 1) documentId).isSome ∧
            (toInteger (-maxInt - 1) maxInt width).isSome ∧ (toInteger (-maxInt - 1) maxInt height).isSome then
          some .ivImage
        else none
      | _ => none
    else if kind = u "button" then
      match fields with
      | [_, color, type, _, _, buttonId, peerTypes] =>
        if (toInteger (-maxInt - 1) maxInt color).any (fun color => 0 ≤ color ∧ color ≤ 3) ∧
            (toInteger (-maxInt - 1) maxInt type).any (fun type => 0 ≤ type ∧ type < 22) ∧
            (toInteger (-maxLongLong - 1) maxLongLong buttonId).isSome ∧
            (toInteger 0 (2 * maxInt + 1) peerTypes).any (fun types => types ≤ 255) then
          some .button
        else none
      | _ => none
    else none
  | _ => none

end RichPage
