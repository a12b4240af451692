import Telegravim.Foundation.Text

set_option autoImplicit false

/-!
# Keys of the compose field

How a pressed key is recognized: by its key code, by the text it types in the Latin or the
Cyrillic layout, on one platform also by its position, together with the modifiers that are held.
The keys that can be configured are known only through the functions that recognize them.

## Main definitions

* `VimKeymap.KeyEvent` — a pressed key.
* `VimKeymap.TextKeys` — what is used of the text library and of the platform.
* `VimKeymap.TextKeys.plainTextKey`, `shiftTextKey`, `optionTextKey` — letters with modifiers.
* `VimKeymap.Bindings` — the other keys.
-/

namespace VimKeymap

open Text

/-- The modifiers held while a key is pressed. -/
structure Modifiers where
  shift : Bool
  control : Bool
  alt : Bool
  metaKey : Bool
  keypad : Bool
  groupSwitch : Bool
deriving DecidableEq

/-- No modifier. -/
def noModifier : Modifiers := ⟨false, false, false, false, false, false⟩

/-- The shift key alone. -/
def shiftModifier : Modifiers := { noModifier with shift := true }

/-- A pressed key: its code, the modifiers, the text it types, whether the event repeats because
the key is held, and the code of the physical key. -/
structure KeyEvent where
  key : ℕ
  modifiers : Modifiers
  text : Text
  isAutoRepeat : Bool
  nativeVirtualKey : ℕ

/-- The code of the escape key. -/
def keyEscape : ℕ := 0x01000000

/-- The modifiers of a key, without those that only say where it is. -/
def cleanModifiers (e : KeyEvent) : Modifiers :=
  { e.modifiers with keypad := false, groupSwitch := false }

/-- The physical key of a letter on one platform. -/
def macVirtualKey (key : Char) : Option ℕ :=
  [('A', 0), ('B', 11), ('C', 8), ('D', 2), ('E', 14), ('G', 5), ('H', 4), ('I', 34), ('J', 38),
    ('K', 40), ('L', 37), ('O', 31), ('P', 35), ('R', 15), ('S', 1), ('V', 9), ('W', 13),
    ('X', 7), ('Y', 16)].lookup key

/-- What the recognition of text keys uses of the platform and of the text library. -/
structure TextKeys where
  isMac : Bool
  toCaseFolded : Text → Text

namespace TextKeys

variable (k : TextKeys)

/-- Whether the physical key of a letter was pressed; known on one platform only. -/
def macVirtualKeyIs (e : KeyEvent) (key : Char) : Bool :=
  k.isMac && macVirtualKey key == some e.nativeVirtualKey

/-- Whether a letter was pressed, given by its key and by its small letters in both layouts. All
Cyrillic letters in use have their capital 32 places before. -/
def textKey (e : KeyEvent) (key latin cyrillic : Char) : Bool :=
  let text := k.toCaseFolded e.text
  e.key == key.toNat || k.macVirtualKeyIs e key ||
    (e.key == cyrillic.toNat || e.key == cyrillic.toNat - 0x20) ||
    text == [unitOf latin] || text == [unitOf cyrillic]

def plainTextKey (e : KeyEvent) (key latin cyrillic : Char) : Bool :=
  cleanModifiers e == noModifier && k.textKey e key latin cyrillic

def plainOrShiftTextKey (e : KeyEvent) (key latin cyrillic : Char) : Bool :=
  (cleanModifiers e == noModifier || cleanModifiers e == shiftModifier) &&
    k.textKey e key latin cyrillic

def shiftTextKey (e : KeyEvent) (key latin cyrillic : Char) : Bool :=
  cleanModifiers e == shiftModifier && k.textKey e key latin cyrillic

/-- Whether a key types a text. -/
def typedText (e : KeyEvent) (text : Text) : Bool :=
  (cleanModifiers e == noModifier || cleanModifiers e == shiftModifier) && e.text == text

def optionTextKey (e : KeyEvent) (key latin cyrillic : Char) : Bool :=
  (cleanModifiers e == { noModifier with alt := true } ||
      cleanModifiers e == { noModifier with control := true } ||
      (k.isMac && cleanModifiers e == { noModifier with metaKey := true })) &&
    k.textKey e key latin cyrillic

end TextKeys

/-- The actions on messages. -/
inductive Action where
  | reactToMessage | copyMessage | chatPreview | selectMessageText | replyToMessage | editMessage
  | deleteMessage | linkHints | selectMessages | selectMessageRange
deriving DecidableEq

/-- The keys that are recognized elsewhere, most of them by what the user configured. -/
structure Bindings where
  focusEmoji : KeyEvent → Bool
  focusChat : KeyEvent → Bool
  emojiPanel : KeyEvent → Bool
  undo : KeyEvent → Bool
  redo : KeyEvent → Bool
  scrollNavigation : KeyEvent → Bool
  pageNavigation : KeyEvent → Bool
  spellcheck : KeyEvent → Bool
  lineStart : KeyEvent → Bool
  lineEnd : KeyEvent → Bool
  messageReaction : KeyEvent → Bool
  messageSelection : KeyEvent → Bool
  messageSelectionRange : KeyEvent → Bool
  copyMessage : KeyEvent → Bool
  chatPreview : KeyEvent → Bool
  selectMessageText : KeyEvent → Bool
  replyToMessage : KeyEvent → Bool
  editMessage : KeyEvent → Bool
  deleteMessage : KeyEvent → Bool
  focusHints : KeyEvent → Bool

namespace Bindings

variable (b : Bindings) (enabled normalMode : Bool)

def focusEmojiKey (e : KeyEvent) : Bool := enabled && !e.isAutoRepeat && b.focusEmoji e

def focusChatKey (e : KeyEvent) : Bool := enabled && !e.isAutoRepeat && b.focusChat e

def emojiPanelKey (e : KeyEvent) : Bool := enabled && !e.isAutoRepeat && b.emojiPanel e

def undoKey (e : KeyEvent) : Bool := normalMode && !e.isAutoRepeat && b.undo e

def redoKey (e : KeyEvent) : Bool := normalMode && !e.isAutoRepeat && b.redo e

def navigationKey (e : KeyEvent) : Bool := normalMode && b.scrollNavigation e

/-- The action on messages that a key starts. -/
def actionKey (e : KeyEvent) : Option Action :=
  if !normalMode || b.pageNavigation e then none
  else if b.messageReaction e then if e.isAutoRepeat then none else some .reactToMessage
  else if b.copyMessage e then some .copyMessage
  else if b.chatPreview e then some .chatPreview
  else if b.selectMessageText e then some .selectMessageText
  else if b.replyToMessage e then some .replyToMessage
  else if b.editMessage e then some .editMessage
  else if b.deleteMessage e then some .deleteMessage
  else if b.focusHints e then some .linkHints
  else if b.messageSelection e then some .selectMessages
  else if b.messageSelectionRange e then some .selectMessageRange
  else none

end Bindings

/-- An empty field leaves the keys that start an action on messages to the messages. -/
def emptyComposeDefersToMessageAction (composeStateActive fieldEmpty messageAction : Bool) : Bool :=
  !composeStateActive && fieldEmpty && messageAction

end VimKeymap
