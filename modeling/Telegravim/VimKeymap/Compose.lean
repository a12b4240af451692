import Telegravim.VimKeymap.ComposeKeys

set_option autoImplicit false

/-!
# Vim keys in the compose field

The handler of the keys pressed in the field where a message is written. It knows the operators
that wait for a motion (delete, change, yank, each also for an inner word), a visual mode by
characters or by lines with the position where it began, and the keys that wait for a second
one. It switches to the input mode, where keys are typed, and back.

The field itself, its document and its cursor belong to the user interface library; they are
known only through their operations (`TextField`), which may do anything. Logging is left out.

## Main definitions

* `Compose.Cursor`, `Compose.TextField` — text cursors, and what the field can do.
* `Compose.Modes`, `Compose.State` — the state of the handler, and that of the field with it.
* `Compose.Command`, `Compose.commandOf`, `Compose.execute` — the keys of the normal mode.
* `Compose.VisualCommand`, `Compose.visualCommandOf`, `Compose.executeVisual` — the keys that mean
  something else in the visual mode.
* `Compose.handleComposeTextKey` — the handler.
-/

namespace VimKeymap.Compose

open Text

/-! ### The field -/

/-- A text cursor: its position and the other end of its selection. -/
structure Cursor where
  position : ℕ
  anchor : ℕ
deriving DecidableEq

namespace Cursor

def hasSelection (c : Cursor) : Bool := c.position != c.anchor

def selectionStart (c : Cursor) : ℕ := min c.position c.anchor

def clearSelection (c : Cursor) : Cursor := { c with anchor := c.position }

/-- Move the cursor, with the other end of the selection or without it. -/
def setPosition (c : Cursor) (position : ℕ) (keepAnchor : Bool) : Cursor :=
  { position := position, anchor := if keepAnchor then c.anchor else position }

end Cursor

/-- The ways a cursor can move. -/
inductive MoveOperation where
  | left | right | down | up | nextWord | previousWord | endOfWord | previousBlock | nextBlock
  | startOfLine | endOfLine
deriving DecidableEq

/-- A paragraph: where it begins, and its text. -/
structure Block where
  position : ℕ
  text : Text

/-- The state of the handler. The last entry says whether the handler switched to the input mode
while it handled the last key. -/
structure Modes where
  operation : ℤ
  visualMode : ℤ
  visualAnchor : ℤ
  pending : ℤ
  normalModeEnabled : Bool
  enteredInput : Bool
deriving DecidableEq

/-- What the field, its document and the windows around it can do, for a state of theirs. -/
structure TextField (σ : Type) where
  isHidden : σ → Bool
  hasFocus : σ → Bool
  empty : σ → Bool
  hasText : σ → Bool
  textCursor : σ → Cursor
  setTextCursor : Cursor → σ → σ
  setFocusFast : σ → σ
  ensureCursorVisible : σ → σ
  refreshCursor : Modes → σ → σ
  saveDraft : σ → σ
  showSuggestionsMenu : σ → σ
  copy : σ → σ
  paste : σ → σ
  undo : σ → σ
  redo : σ → σ
  isUndoAvailable : σ → Bool
  isRedoAvailable : σ → Bool
  characterCount : σ → ℕ
  revision : σ → ℕ
  getTextWithTags : σ → Text
  block : σ → Cursor → Block
  movePosition : σ → Cursor → MoveOperation → Bool → Bool × Cursor
  selectWordUnderCursor : σ → Cursor → Cursor
  selectedText : σ → Cursor → Text
  removeSelectedText : Cursor → σ → Cursor × σ
  insertText : Cursor → Text → σ → Cursor × σ
  deleteChar : Cursor → σ → Cursor × σ
  isSpace : UInt16 → Bool
  isUpper : UInt16 → Bool
  toLower : UInt16 → UInt16
  toUpper : UInt16 → UInt16

/-- The state of the handler and of the field, and the revision of the document for which the
timer of the delete key was started. -/
structure State (σ : Type) where
  modes : Modes
  field : σ
  deleteTimer : Option ℕ

/-- The settings: whether the key map is enabled at all, whether something forces the normal
mode, the keys, and whether the spell checker is built in. -/
structure Settings where
  enabled : Bool
  forcedNormalMode : Bool
  keys : TextKeys
  bindings : Bindings
  spellcheck : Bool

/-! ### Constants -/

def opDelete : ℤ := 1
def opDeleteInner : ℤ := 2
def opYank : ℤ := 3
def opChange : ℤ := 4
def opChangeInner : ℤ := 5
def opYankInner : ℤ := 6

def pendingGoto : ℤ := 1
def pendingReplace : ℤ := 2
def pendingVisualInner : ℤ := 3

/-! ### Modes -/

namespace Modes

/-- No operator, no visual mode, no pending key. -/
def clear (m : Modes) : Modes :=
  { m with operation := 0, visualMode := 0, visualAnchor := -1, pending := 0 }

def clearOperation (m : Modes) : Modes := { m with operation := 0 }

def clearPending (m : Modes) : Modes := { m with pending := 0 }

/-- Leave the visual mode. -/
def clearVisual (m : Modes) : Modes :=
  if m.visualMode = 0 then m else { m with visualMode := 0, visualAnchor := -1 }

/-- Switch to the normal mode or to the input mode. -/
def setNormalMode (m : Modes) (enabled : Bool) : Modes :=
  { m with normalModeEnabled := enabled, enteredInput := m.enteredInput || !enabled }

/-- Whether the normal mode is on. -/
def normalMode (m : Modes) (settings : Settings) : Bool :=
  settings.enabled && (m.normalModeEnabled || settings.forcedNormalMode)

/-- Whether an operator, the visual mode or a pending key waits for more. -/
def stateActive (m : Modes) : Bool := m.operation != 0 || m.visualMode != 0 || m.pending != 0

/-- Whether a motion selects the text it passes. -/
def keepAnchor (m : Modes) : Bool := m.visualMode != 0 || m.operation != 0

end Modes

section Handler

variable {σ : Type} (F : TextField σ) (settings : Settings)

/-! ### Lines and words -/

/-- The separator of lines inside a paragraph. -/
def lineSeparator : UInt16 := 0x2028

/-- `VimKeymapComposeLineAt`: where the line of a cursor begins and ends. -/
def composeLineAt (f : σ) (cursor : Cursor) : ℕ × ℕ :=
  let block := F.block f cursor
  let offset := cursor.position - block.position
  let before := ((block.text.take offset).reverse.findIdx? (· == lineSeparator)).map (offset - 1 - ·)
  let after := ((block.text.drop offset).findIdx? (· == lineSeparator)).map (offset + ·)
  (block.position + before.elim 0 (· + 1), block.position + after.getD block.text.length)

/-- `VimKeymapNormalizeComposeCursor`: a cursor without a selection is not past the last
character of its line. -/
def normalizeComposeCursor (f : σ) (cursor : Cursor) : Cursor :=
  if cursor.hasSelection then cursor
  else
    let line := composeLineAt F f cursor
    if line.1 = line.2 ∨ cursor.position ≠ line.2 then cursor
    else cursor.setPosition (line.2 - 1) false

def focusField (m : Modes) (f : σ) : σ :=
  F.refreshCursor m (F.ensureCursorVisible (F.setFocusFast f))

def refreshMovedCursor (m : Modes) (f : σ) : σ := F.refreshCursor m (F.ensureCursorVisible f)

/-- Take the selection of the cursor of the field back. -/
def clearFieldSelection (f : σ) : σ := F.setTextCursor (F.textCursor f).clearSelection f

def maximumCursorPosition (f : σ) : ℕ := F.characterCount f - 1

/-- The position of the character under the cursor of the visual mode. -/
def visualCharacterPosition (f : σ) : ℕ :=
  let cursor := F.textCursor f
  if cursor.hasSelection ∧ cursor.anchor < cursor.position then cursor.position - 1
  else cursor.position

def lineLastCharacterPosition (f : σ) (cursor : Cursor) : ℕ :=
  let line := composeLineAt F f cursor
  max line.1 (line.2 - 1)

/-- A position after a step to the right or to the left, inside the bounds. -/
def stepped (position first last : ℕ) (right : Bool) : ℕ :=
  (max (first : ℤ) (min last (position + if right then 1 else -1))).toNat

def selectCurrentLine (f : σ) : Cursor :=
  let line := composeLineAt F f (F.textCursor f)
  let finish := min (line.2 + 1) (maximumCursorPosition F f)
  ((F.textCursor f).setPosition line.1 false).setPosition finish true

def selectInnerWordAt (position : ℕ) (f : σ) : Cursor :=
  let start := (F.textCursor f).clearSelection.setPosition
    (min position (maximumCursorPosition F f)) false
  let cursor := F.selectWordUnderCursor f start
  if !cursor.hasSelection || (F.selectedText f cursor).isEmpty then
    F.selectWordUnderCursor f (F.movePosition f start .nextWord false).2
  else cursor

def selectInnerWord (m : Modes) (f : σ) : Cursor :=
  selectInnerWordAt F
    (if m.visualMode ≠ 0 then visualCharacterPosition F f else (F.textCursor f).position) f

/-- Whether a cursor has selected something. -/
def selects (f : σ) (cursor : Cursor) : Bool :=
  cursor.hasSelection && !(F.selectedText f cursor).isEmpty

def currentLineStart (f : σ) : ℕ := (composeLineAt F f (F.textCursor f)).1

def currentLineEnd (f : σ) : ℕ := (composeLineAt F f (F.textCursor f)).2

/-- The first position of the line that is not a blank. -/
def currentLineFirstNonBlank (f : σ) : ℕ :=
  let cursor := F.textCursor f
  let line := composeLineAt F f cursor
  let block := F.block f cursor
  let text := (block.text.drop (line.1 - block.position)).take (line.2 - line.1)
  line.1 + (text.takeWhile F.isSpace).length

def setInputCursorPosition (position : ℕ) (f : σ) : σ :=
  let cursor := (F.textCursor f).clearSelection.setPosition
    (min position (maximumCursorPosition F f)) false
  F.ensureCursorVisible (F.setTextCursor cursor f)

def setInputCursorAfterCurrentCharacter (f : σ) : σ :=
  let cursor := normalizeComposeCursor F f (F.textCursor f).clearSelection
  let cursor := if (F.block f cursor).text.isEmpty then cursor
    else (F.movePosition f cursor .right false).2
  F.ensureCursorVisible (F.setTextCursor cursor f)

/-! ### Changes of the text alone -/

def copyCursorSelection (cursor : Cursor) (f : σ) : Bool × σ :=
  if cursor.hasSelection then (true, F.copy (F.setTextCursor cursor f)) else (false, f)

def deleteSelection (m : Modes) (cursor : Cursor) (f : σ) : Bool × σ :=
  let before := F.getTextWithTags f
  let f := (copyCursorSelection F cursor f).2
  let removed := F.removeSelectedText (F.textCursor f) f
  let f := F.setTextCursor removed.1 removed.2
  if F.getTextWithTags f ≠ before then (true, focusField F m (F.saveDraft f))
  else (false, focusField F m f)

def deleteCurrentLine (m : Modes) (f : σ) : Bool × σ := deleteSelection F m (selectCurrentLine F f) f

def deleteInnerWord (m : Modes) (f : σ) : Bool × σ :=
  let cursor := selectInnerWord F m f
  if selects F f cursor then deleteSelection F m cursor f else (false, f)

def copyInnerWord (m : Modes) (f : σ) : σ :=
  let cursor := selectInnerWord F m f
  let f := if selects F f cursor then (copyCursorSelection F cursor f).2 else f
  focusField F m (clearFieldSelection F f)

/-- Delete the character that a move to one side passes. -/
def deletePassed (m : Modes) (operation : MoveOperation) (f : σ) : σ :=
  let before := F.getTextWithTags f
  let moved := F.movePosition f (F.textCursor f) operation true
  let f := if moved.1 then (deleteSelection F m moved.2 f).2 else f
  if F.getTextWithTags f ≠ before then F.saveDraft f else f

def deletePreviousChar (m : Modes) (f : σ) : σ := focusField F m (deletePassed F m .left f)

def copyCurrentLine (m : Modes) (f : σ) : σ :=
  focusField F m (clearFieldSelection F (copyCursorSelection F (selectCurrentLine F f) f).2)

def toggleCase (m : Modes) (f : σ) : σ :=
  let before := F.getTextWithTags f
  let cursor := (F.movePosition f (F.textCursor f) .right true).2
  let f := match F.selectedText f cursor with
    | [] => f
    | ch :: _ =>
      let inserted := F.insertText cursor [if F.isUpper ch then F.toLower ch else F.toUpper ch] f
      F.setTextCursor inserted.1 inserted.2
  focusField F m (if F.getTextWithTags f ≠ before then F.saveDraft f else f)

def joinLine (m : Modes) (f : σ) : σ :=
  let before := F.getTextWithTags f
  let deleted := F.deleteChar (F.movePosition f (F.textCursor f) .endOfLine false).2 f
  let f := if F.getTextWithTags deleted.2 ≠ before then
      let inserted := F.insertText deleted.1 (u " ") deleted.2
      F.setTextCursor inserted.1 inserted.2
    else deleted.2
  focusField F m (if F.getTextWithTags f ≠ before then F.saveDraft f else f)

/-- Insert a line break at the cursor. -/
def insertLineBreak (f : σ) : σ :=
  let inserted := F.insertText (F.textCursor f) (u "\n") f
  F.setTextCursor inserted.1 inserted.2

/-! ### Changes of the modes -/

/-- Leave the visual mode, and take the selection back. -/
def clearVisual (s : State σ) : State σ :=
  if s.modes.visualMode = 0 then s
  else
    let m := s.modes.clearVisual
    { s with modes := m, field := F.refreshCursor m (clearFieldSelection F s.field) }

/-- Forget the operator, the visual mode and the pending key. -/
def clearAll (s : State σ) : State σ :=
  { s with modes := s.modes.clear, field := F.refreshCursor s.modes.clear s.field }

/-- Apply the pending operator to the selection of a cursor. -/
def finishOperatorWithSelection (cursor : Cursor) (s : State σ) : State σ :=
  let op := s.modes.operation
  let m := s.modes.clear
  if !cursor.hasSelection then
    { s with modes := m, field := focusField F m (F.setTextCursor cursor s.field) }
  else if op = opYank then
    let f := (copyCursorSelection F cursor s.field).2
    { s with modes := m, field := focusField F m (clearFieldSelection F f) }
  else
    let before := F.getTextWithTags s.field
    let f := (copyCursorSelection F cursor s.field).2
    let removed := F.removeSelectedText (F.textCursor f) f
    let f := F.setTextCursor removed.1 removed.2
    let f := if F.getTextWithTags f ≠ before then F.saveDraft f else f
    let m := m.setNormalMode !(op = opChange ∨ op = opChangeInner)
    { s with modes := m, field := focusField F m f }

/-- Where the visual mode began, made valid for the text. -/
def visualAnchor (m : Modes) (f : σ) : ℤ :=
  let maximum := maximumCursorPosition F f
  if m.visualAnchor < 0 ∨ (maximum : ℤ) < m.visualAnchor then
    let cursor := F.textCursor f
    min (if cursor.hasSelection then cursor.selectionStart else cursor.position : ℕ) maximum
  else m.visualAnchor

/-- Select from the beginning of the visual mode to a position, the character at the beginning
included. -/
def setVisualSelection (position : ℕ) (s : State σ) : State σ :=
  let maximum := maximumCursorPosition F s.field
  let anchor := (max 0 (min (visualAnchor F s.modes s.field) maximum)).toNat
  let endpoint := min position maximum
  let cursor := F.textCursor s.field
  let cursor := if anchor ≤ endpoint then
      (cursor.setPosition anchor false).setPosition (min maximum (max endpoint (anchor + 1))) true
    else (cursor.setPosition (min maximum (anchor + 1)) false).setPosition endpoint true
  { s with
    modes := { s.modes with visualAnchor := anchor }
    field := F.setTextCursor cursor s.field }

/-- Select up to the character at a position. -/
def setVisualSelectionCharacter (position : ℕ) (s : State σ) : State σ :=
  let maximum := maximumCursorPosition F s.field
  let found := visualAnchor F s.modes s.field
  let anchor := max 0 (min found maximum)
  let point := min position (maximum - 1)
  let s := { s with modes := { s.modes with visualAnchor := found } }
  setVisualSelection F (if anchor ≤ (point : ℤ) then min maximum (point + 1) else point) s

/-- Move the cursor; with a pending operator, apply it to the text passed. -/
def moveCursor (operation : MoveOperation) (allowPastLineEnd : Bool) (s : State σ) : State σ :=
  let horizontal : Bool := operation = .left ∨ operation = .right
  if s.modes.visualMode = 1 then
    let start := (F.textCursor s.field).setPosition (visualCharacterPosition F s.field) false
    let position :=
      if horizontal then
        stepped start.position (composeLineAt F s.field start).1
          (lineLastCharacterPosition F s.field start) (operation = .right)
      else (F.movePosition s.field start operation false).2.position
    let s := setVisualSelectionCharacter F position s
    { s with field := refreshMovedCursor F s.modes s.field }
  else
    let inNormal := s.modes.normalMode settings && s.modes.operation == 0 && !allowPastLineEnd
    let cursor := F.textCursor s.field
    let cursor := if inNormal then normalizeComposeCursor F s.field cursor else cursor
    if inNormal && horizontal then
      let position := stepped cursor.position (composeLineAt F s.field cursor).1
        (lineLastCharacterPosition F s.field cursor) (operation = .right)
      let f := F.setTextCursor (cursor.setPosition position false) s.field
      { s with field := refreshMovedCursor F s.modes f }
    else
      let moved := (F.movePosition s.field cursor operation s.modes.keepAnchor).2
      if s.modes.operation ≠ 0 then finishOperatorWithSelection F moved s
      else { s with field := focusField F s.modes (F.setTextCursor moved s.field) }

/-- Move the cursor to a position; with a pending operator, apply it to the text passed. -/
def moveCursorTo (position : ℕ) (s : State σ) : State σ :=
  let cursor := F.textCursor s.field
  let position := min position (F.characterCount s.field - 1)
  if s.modes.visualMode = 1 then
    let s := setVisualSelection F position s
    { s with field := refreshMovedCursor F s.modes s.field }
  else
    let cursor := cursor.setPosition position s.modes.keepAnchor
    if s.modes.operation ≠ 0 then finishOperatorWithSelection F cursor s
    else { s with field := focusField F s.modes (F.setTextCursor cursor s.field) }

def undoRedo (redo : Bool) (s : State σ) : State σ :=
  let m := s.modes.clearPending
  let available := if redo then F.isRedoAvailable s.field else F.isUndoAvailable s.field
  let f := if available then
      F.saveDraft (if redo then F.redo s.field else F.undo s.field)
    else s.field
  let m := m.setNormalMode true
  { s with modes := m, field := focusField F m f }

def selectVisualInnerWord (s : State σ) : State σ :=
  let cursor := selectInnerWordAt F (visualCharacterPosition F s.field) s.field
  if selects F s.field cursor then
    let m := { s.modes with visualMode := 1, visualAnchor := cursor.selectionStart }
    { s with modes := m, field := focusField F m (F.setTextCursor cursor s.field) }
  else { s with field := focusField F s.modes s.field }

/-- Switch to the input mode after text was deleted. -/
def changeAfterDelete (s : State σ) : State σ :=
  let m := s.modes.setNormalMode false
  { s with modes := m, field := focusField F m s.field }

def deleteNextChar (inputAfter : Bool) (s : State σ) : State σ :=
  let s := { s with field := deletePassed F s.modes .right s.field }
  if inputAfter then changeAfterDelete F s
  else { s with field := focusField F s.modes s.field }

def replaceNextChar (text : Text) (s : State σ) : State σ :=
  let m := s.modes.clearPending
  if text.isEmpty then { s with modes := m, field := focusField F m s.field }
  else
    let before := F.getTextWithTags s.field
    let moved := F.movePosition s.field (F.textCursor s.field) .right true
    let f := if moved.1 then
        let inserted := F.insertText moved.2 (text.take 1) s.field
        F.setTextCursor inserted.1 inserted.2
      else s.field
    let f := if F.getTextWithTags f ≠ before then F.saveDraft f else f
    let m := m.setNormalMode true
    { s with modes := m, field := focusField F m f }

def deleteToLineEnd (inputAfter : Bool) (s : State σ) : State σ :=
  let cursor := (F.textCursor s.field).setPosition (currentLineEnd F s.field) true
  let s := { s with field := (deleteSelection F s.modes cursor s.field).2 }
  if inputAfter then changeAfterDelete F s else s

def enterInputMode (s : State σ) : State σ :=
  let m := s.modes.clear.setNormalMode false
  { s with modes := m, field := focusField F m s.field }

def startVisualMode (line : Bool) (s : State σ) : State σ :=
  let cursor := if line then selectCurrentLine F s.field
    else normalizeComposeCursor F s.field (F.textCursor s.field)
  let anchor := if cursor.hasSelection then cursor.selectionStart else cursor.position
  let s := { s with
    modes := { s.modes with
      operation := 0, visualMode := if line then 2 else 1, visualAnchor := anchor, pending := 0 } }
  let s := if line then { s with field := F.setTextCursor cursor s.field }
    else setVisualSelection F anchor s
  { s with field := focusField F s.modes s.field }

def linePaste (before : Bool) (s : State σ) : State σ :=
  let m := s.modes.clearPending
  let f := if before then
      F.setTextCursor (F.movePosition s.field (F.textCursor s.field) .startOfLine false).2 s.field
    else
      let cursor := (F.movePosition s.field (F.textCursor s.field) .endOfLine false).2
      let inserted := F.insertText cursor (u "\n") s.field
      F.setTextCursor inserted.1 inserted.2
  { s with modes := m, field := focusField F m (F.saveDraft (F.paste f)) }

/-- Forget the operator, the visual mode and the pending key, and take the selection of the
visual mode back. -/
def clearCommand (s : State σ) : State σ :=
  let s := clearVisual F { s with modes := s.modes.clearOperation }
  { s with modes := s.modes.clearPending }

/-! ### Commands of the visual mode -/

/-- What the keys mean that the visual mode takes for itself. -/
inductive VisualCommand where
  | undo | redo | left | right | yank | delete | inner
deriving DecidableEq

/-- The command of a key in the visual mode. -/
def visualCommandOf (m : Modes) (e : KeyEvent) : Option VisualCommand :=
  let k := settings.keys
  let b := settings.bindings
  let normal := m.normalMode settings
  if b.undoKey normal e then some .undo
  else if b.redoKey normal e then some .redo
  else if k.plainTextKey e 'H' 'h' 'р' then some .left
  else if k.plainTextKey e 'L' 'l' 'д' then some .right
  else if k.plainTextKey e 'Y' 'y' 'н' then some .yank
  else if k.plainTextKey e 'D' 'd' 'в' || k.plainTextKey e 'X' 'x' 'ч' then some .delete
  else if k.plainTextKey e 'I' 'i' 'ш' then some .inner
  else none

/-- Carry out a command of the visual mode. -/
def executeVisual (command : VisualCommand) (s : State σ) : State σ :=
  match command with
  | .undo => undoRedo F false (clearVisual F s)
  | .redo => undoRedo F true (clearVisual F s)
  | .left => moveCursor F settings .left false { s with modes := s.modes.clearPending }
  | .right => moveCursor F settings .right false { s with modes := s.modes.clearPending }
  | .yank =>
    let f := (copyCursorSelection F (F.textCursor s.field) s.field).2
    let s := clearVisual F { s with field := f }
    { s with field := focusField F s.modes s.field }
  | .delete =>
    let f := (deleteSelection F s.modes (F.textCursor s.field) s.field).2
    let m := { s.modes with visualMode := 0, visualAnchor := -1 }
    { s with modes := m, field := F.refreshCursor m f }
  | .inner =>
    let m := { s.modes with pending := pendingVisualInner }
    { s with modes := m, field := focusField F m s.field }

/-! ### Commands of the normal mode -/

/-- What the keys mean in the normal mode. -/
inductive Command where
  | undo | redo | inputLeft | inputRight | inner | insert | insertLine | append | appendLine
  | openBelow | openAbove | visual | visualLine | goto | gotoEnd | left | down | up | right
  | nextWord | previousWord | wordEnd | firstNonBlank | lineStart | lineEnd | paragraphUp
  | paragraphDown | toggleCase | deleteChar | deletePrevious | deleteToEnd | changeToEnd | change
  | delete | substitute | substituteLine | replace | replaceInput | joinLine | yank | yankLine
  | paste | pasteBefore | cancelPending | cancelOperator
deriving DecidableEq

/-- The command of a key in the normal mode. -/
def commandOf (m : Modes) (e : KeyEvent) : Option Command :=
  let k := settings.keys
  let b := settings.bindings
  let normal := m.normalMode settings
  if b.undoKey normal e then some .undo
  else if b.redoKey normal e then some .redo
  else if k.optionTextKey e 'H' 'h' 'р' then some .inputLeft
  else if k.optionTextKey e 'L' 'l' 'д' then some .inputRight
  else if (m.operation = opDelete ∨ m.operation = opChange ∨ m.operation = opYank) ∧
      k.plainTextKey e 'I' 'i' 'ш' then some .inner
  else if k.plainTextKey e 'I' 'i' 'ш' then some .insert
  else if k.shiftTextKey e 'I' 'i' 'ш' then some .insertLine
  else if k.plainTextKey e 'A' 'a' 'ф' then some .append
  else if k.shiftTextKey e 'A' 'a' 'ф' then some .appendLine
  else if k.plainTextKey e 'O' 'o' 'щ' then some .openBelow
  else if k.shiftTextKey e 'O' 'o' 'щ' then some .openAbove
  else if k.plainTextKey e 'V' 'v' 'м' then some .visual
  else if k.shiftTextKey e 'V' 'v' 'м' then some .visualLine
  else if k.plainTextKey e 'G' 'g' 'п' then some .goto
  else if k.shiftTextKey e 'G' 'g' 'п' then some .gotoEnd
  else if k.plainTextKey e 'H' 'h' 'р' then some .left
  else if k.plainTextKey e 'J' 'j' 'о' then some .down
  else if k.plainTextKey e 'K' 'k' 'л' then some .up
  else if k.plainTextKey e 'L' 'l' 'д' then some .right
  else if k.plainOrShiftTextKey e 'W' 'w' 'ц' then some .nextWord
  else if k.plainOrShiftTextKey e 'B' 'b' 'и' then some .previousWord
  else if k.plainOrShiftTextKey e 'E' 'e' 'у' then some .wordEnd
  else if TextKeys.typedText e (u "^") then some .firstNonBlank
  else if b.lineStart e then some .lineStart
  else if b.lineEnd e then some .lineEnd
  else if TextKeys.typedText e (u "\x7b") then some .paragraphUp
  else if TextKeys.typedText e (u "\x7d") then some .paragraphDown
  else if TextKeys.typedText e (u "~") then some .toggleCase
  else if k.plainTextKey e 'X' 'x' 'ч' then some .deleteChar
  else if k.shiftTextKey e 'X' 'x' 'ч' then some .deletePrevious
  else if k.shiftTextKey e 'D' 'd' 'в' then some .deleteToEnd
  else if k.shiftTextKey e 'C' 'c' 'с' then some .changeToEnd
  else if k.plainTextKey e 'C' 'c' 'с' then some .change
  else if k.plainTextKey e 'D' 'd' 'в' then some .delete
  else if k.plainTextKey e 'S' 's' 'ы' then some .substitute
  else if k.shiftTextKey e 'S' 's' 'ы' then some .substituteLine
  else if k.plainTextKey e 'R' 'r' 'к' then some .replace
  else if k.shiftTextKey e 'R' 'r' 'к' then some .replaceInput
  else if k.shiftTextKey e 'J' 'j' 'о' then some .joinLine
  else if k.plainTextKey e 'Y' 'y' 'н' then some .yank
  else if k.shiftTextKey e 'Y' 'y' 'н' then some .yankLine
  else if k.plainTextKey e 'P' 'p' 'з' then some .paste
  else if k.shiftTextKey e 'P' 'p' 'з' then some .pasteBefore
  else if m.pending ≠ 0 then some .cancelPending
  else if m.operation ≠ 0 then some .cancelOperator
  else none

/-- Move with the pending key forgotten. -/
def motion (operation : MoveOperation) (s : State σ) : State σ :=
  moveCursor F settings operation false { s with modes := s.modes.clearPending }

/-- Move to a position with the pending key forgotten. -/
def motionTo (position : ℕ) (s : State σ) : State σ :=
  moveCursorTo F position { s with modes := s.modes.clearPending }

/-- The word motion: with an operator for an inner word, apply it to the word. -/
def executeWord (s : State σ) : State σ :=
  let op := s.modes.operation
  if op = opDeleteInner ∨ op = opChangeInner ∨ op = opYankInner then
    let m := s.modes.clearOperation.clearPending
    let s := { s with modes := m }
    if op = opYankInner then { s with field := copyInnerWord F m s.field }
    else
      let s := { s with field := (deleteInnerWord F m s.field).2 }
      if op = opChangeInner then changeAfterDelete F s else s
  else motion F settings .nextWord s

/-- The change key: it starts the operator, or changes the line when pressed again. -/
def executeChange (s : State σ) : Bool × State σ :=
  let s := { s with modes := s.modes.clearPending }
  if !F.hasText s.field then (false, { s with modes := s.modes.clearOperation })
  else if s.modes.operation = opChange then
    let s := { s with modes := s.modes.clearOperation }
    (true, changeAfterDelete F { s with field := (deleteCurrentLine F s.modes s.field).2 })
  else
    let m := { s.modes with operation := opChange }
    (true, { s with modes := m, field := focusField F m s.field })

/-- The delete key: it starts the operator, or deletes the line when pressed again. If it is
also the key that deletes messages, a timer waits for the second key. -/
def executeDelete (e : KeyEvent) (s : State σ) : Bool × State σ :=
  if e.isAutoRepeat then (true, s)
  else
    let s := { s with modes := s.modes.clearPending }
    if !F.hasText s.field then (false, { s with modes := s.modes.clearOperation })
    else if s.modes.operation = opDelete then
      let m := s.modes.clearOperation
      (true, { s with modes := m, field := (deleteCurrentLine F m s.field).2 })
    else
      let m := { s.modes with operation := opDelete }
      let s := { s with modes := m, field := focusField F m s.field }
      if settings.bindings.actionKey (m.normalMode settings) e = some .deleteMessage then
        (true, { s with deleteTimer := some (F.revision s.field) })
      else (true, s)

/-- The yank key: it starts the operator, or copies the line when pressed again. -/
def executeYank (s : State σ) : Bool × State σ :=
  let s := { s with modes := s.modes.clearPending }
  if !F.hasText s.field then (false, { s with modes := s.modes.clearOperation })
  else if s.modes.operation = opYank then
    let m := s.modes.clearOperation
    (true, { s with modes := m, field := copyCurrentLine F m s.field })
  else
    let m := { s.modes with operation := opYank }
    (true, { s with modes := m, field := focusField F m s.field })

/-- Carry out a command of the normal mode, and say whether the key was handled. -/
def execute (command : Command) (e : KeyEvent) (s : State σ) : Bool × State σ :=
  match command with
  | .undo => (true, undoRedo F false (clearCommand F s))
  | .redo => (true, undoRedo F true (clearCommand F s))
  | .inputLeft => (true, moveCursor F settings .left false (clearCommand F s))
  | .inputRight => (true, moveCursor F settings .right false (clearCommand F s))
  | .inner =>
    let op := s.modes.operation
    let m := { s.modes with
      operation := if op = opDelete then opDeleteInner
        else if op = opChange then opChangeInner else opYankInner
      pending := 0 }
    (true, { s with modes := m, field := focusField F m s.field })
  | .insert => (true, enterInputMode F s)
  | .insertLine =>
    let f := setInputCursorPosition F (currentLineFirstNonBlank F s.field) s.field
    (true, enterInputMode F { s with modes := s.modes.clearPending, field := f })
  | .append =>
    let f := setInputCursorAfterCurrentCharacter F s.field
    (true, enterInputMode F { s with modes := s.modes.clearPending, field := f })
  | .appendLine =>
    let f := setInputCursorPosition F (currentLineEnd F s.field) s.field
    (true, enterInputMode F { s with modes := s.modes.clearPending, field := f })
  | .openBelow =>
    let f := setInputCursorPosition F (currentLineEnd F s.field) s.field
    let f := F.saveDraft (insertLineBreak F f)
    (true, enterInputMode F { s with modes := s.modes.clearPending, field := f })
  | .openAbove =>
    let s := motionTo F (currentLineStart F s.field) s
    let s := moveCursor F settings .left false { s with field := insertLineBreak F s.field }
    (true, enterInputMode F { s with field := F.saveDraft s.field })
  | .visual => (true, startVisualMode F false s)
  | .visualLine => (true, startVisualMode F true s)
  | .goto =>
    if s.modes.pending = pendingGoto then (true, motionTo F 0 s)
    else
      let m := { s.modes with pending := pendingGoto }
      (true, { s with modes := m, field := focusField F m s.field })
  | .gotoEnd => (true, motionTo F (F.characterCount s.field - 1) s)
  | .left => (true, motion F settings .left s)
  | .down => (true, motion F settings .down s)
  | .up => (true, motion F settings .up s)
  | .right => (true, motion F settings .right s)
  | .nextWord => (true, executeWord F settings s)
  | .previousWord => (true, motion F settings .previousWord s)
  | .wordEnd => (true, motion F settings .endOfWord s)
  | .firstNonBlank => (true, motionTo F (currentLineFirstNonBlank F s.field) s)
  | .lineStart => (true, motionTo F (currentLineStart F s.field) s)
  | .lineEnd => (true, motionTo F (currentLineEnd F s.field) s)
  | .paragraphUp => (true, motion F settings .previousBlock s)
  | .paragraphDown => (true, motion F settings .nextBlock s)
  | .toggleCase =>
    let s := clearCommand F s
    (true, { s with field := toggleCase F s.modes s.field })
  | .deleteChar => (true, deleteNextChar F false (clearCommand F s))
  | .deletePrevious =>
    let s := clearCommand F s
    (true, { s with field := deletePreviousChar F s.modes s.field })
  | .deleteToEnd => (true, deleteToLineEnd F false (clearCommand F s))
  | .changeToEnd => (true, deleteToLineEnd F true (clearCommand F s))
  | .change => executeChange F s
  | .delete => executeDelete F settings e s
  | .substitute => (true, deleteNextChar F true (clearCommand F s))
  | .substituteLine =>
    let s := clearCommand F s
    (true, changeAfterDelete F { s with field := (deleteCurrentLine F s.modes s.field).2 })
  | .replace =>
    let s := clearVisual F { s with modes := s.modes.clearOperation }
    let m := { s.modes with pending := pendingReplace }
    (true, { s with modes := m, field := focusField F m s.field })
  | .replaceInput => (true, enterInputMode F s)
  | .joinLine =>
    let s := clearCommand F s
    (true, { s with field := joinLine F s.modes s.field })
  | .yank => executeYank F s
  | .yankLine =>
    let s := clearCommand F s
    (true, { s with field := copyCurrentLine F s.modes s.field })
  | .paste =>
    (true, linePaste F false (clearVisual F { s with modes := s.modes.clearOperation }))
  | .pasteBefore =>
    (true, linePaste F true (clearVisual F { s with modes := s.modes.clearOperation }))
  | .cancelPending => (true, { s with modes := s.modes.clearPending })
  | .cancelOperator => (true, { s with modes := s.modes.clearOperation.clearPending })

/-! ### The handler -/

/-- What is around the field when a key is pressed. -/
structure Surroundings where
  searchActive : Bool
  panelOpen : Bool

/-- The keys of the normal mode, after those that the visual mode takes for itself. -/
def handleCommand (e : KeyEvent) (s : State σ) : Bool × State σ :=
  if s.modes.pending = pendingReplace then
    if cleanModifiers e = noModifier ∨ cleanModifiers e = shiftModifier then
      (true, replaceNextChar F e.text s)
    else
      let m := s.modes.clearPending
      (true, { s with modes := m, field := focusField F m s.field })
  else
    match commandOf settings s.modes e with
    | some command => execute F settings command e s
    | none => (false, s)

/-- The keys of the visual mode and of the normal mode. -/
def handleKey (e : KeyEvent) (s : State σ) : Bool × State σ :=
  if s.modes.pending = pendingVisualInner then
    let s := { s with modes := s.modes.clearPending }
    if settings.keys.plainOrShiftTextKey e 'W' 'w' 'ц' then (true, selectVisualInnerWord F s)
    else (true, { s with field := focusField F s.modes s.field })
  else if s.modes.visualMode ≠ 0 then
    match visualCommandOf settings s.modes e with
    | some command => (true, executeVisual F settings command s)
    | none => handleCommand F settings e s
  else handleCommand F settings e s

/-- The escape key: leave the visual mode, or the input mode. -/
def handleEscape (s : State σ) : State σ :=
  let m := s.modes.clearOperation.clearPending
  if m.visualMode ≠ 0 then
    let m := { m with visualMode := 0, visualAnchor := -1 }
    let f := F.setFocusFast (clearFieldSelection F s.field)
    { s with modes := m, field := F.refreshCursor m f }
  else
    let m := m.setNormalMode true
    { s with modes := m, field := F.refreshCursor m (F.setFocusFast s.field) }

/-- What becomes of a key before the visual mode and the normal mode see it. -/
inductive Early where
  /-- The field is not in use: nothing of the state is kept. -/
  | clear
  /-- The key is for another part of the window. -/
  | leave
  /-- The same, and the cursor is painted again. -/
  | refresh
  /-- The suggestions of the spell checker are shown. -/
  | suggestions
  /-- The escape key. -/
  | escape
deriving DecidableEq

/-- The tests made before the visual mode and the normal mode see a key. -/
def earlyOf (around : Surroundings) (e : KeyEvent) (s : State σ) : Option Early :=
  let k := settings.keys
  let b := settings.bindings
  let normal := s.modes.normalMode settings
  let active := s.modes.stateActive
  let fieldFocused := F.hasFocus s.field
  let inputCursorMove := k.optionTextKey e 'H' 'h' 'р' || k.optionTextKey e 'L' 'l' 'д'
  let composeHorizontalMove := k.plainTextKey e 'H' 'h' 'р' || k.plainTextKey e 'L' 'l' 'д'
  if F.isHidden s.field || around.searchActive then some .clear
  else if b.focusEmojiKey settings.enabled e || b.focusChatKey settings.enabled e ||
      b.emojiPanelKey settings.enabled e then some .leave
  else if around.panelOpen then some .clear
  else if settings.spellcheck && !active && normal && b.spellcheck e then some .suggestions
  else if !active && normal && (b.messageReaction e || b.messageSelection e ||
      b.messageSelectionRange e) then some .leave
  else if emptyComposeDefersToMessageAction active (F.empty s.field) (b.actionKey normal e).isSome
    then some .refresh
  else if !active && b.navigationKey normal e then some .refresh
  else if !e.isAutoRepeat && cleanModifiers e == noModifier && e.key == keyEscape && fieldFocused
    then some .escape
  else if !normal && !inputCursorMove then some .clear
  else if inputCursorMove && !fieldFocused then some .leave
  else if normal && !fieldFocused && F.empty s.field && !active && !inputCursorMove &&
      !composeHorizontalMove then some .refresh
  else none

/-- `HandleComposeTextKey`: handle a key pressed in the field, and say whether it was handled. -/
def handleComposeTextKey (around : Surroundings) (e : KeyEvent) (s : State σ) : Bool × State σ :=
  let s := { s with modes := { s.modes with enteredInput := false } }
  match earlyOf F settings around e s with
  | some .clear => (false, clearAll F s)
  | some .leave => (false, s)
  | some .refresh => (false, { s with field := F.refreshCursor s.modes s.field })
  | some .suggestions =>
    (true, if e.isAutoRepeat then s else { s with field := F.showSuggestionsMenu s.field })
  | some .escape => (true, handleEscape F s)
  | none => handleKey F settings e s

end Handler

end VimKeymap.Compose
