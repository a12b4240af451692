import Telegravim.VimKeymap.Compose

set_option autoImplicit false

/-!
# The modes of the compose field

An operator and the visual mode exclude each other, and the input mode excludes both. The handler
keeps this, except where the change key starts its operator without leaving the visual mode.

## Main definitions

* `Compose.Exclusive` — what holds of the modes.
* `Compose.ChangesInVisual` — the change key pressed in the visual mode.
* `Compose.Reachable` — the states of runs in which this does not happen.

## Main results

* `Compose.Exclusive.handleComposeTextKey` — what one key preserves.
* `Compose.reachable_exclusive` — the modes stay exclusive in every such run.
* `Compose.operator_pending_in_visual` — a run in which they do not.
-/

namespace VimKeymap.Compose

open Text

/-- **The modes are exclusive.** No operator is pending in the visual mode, which has its beginning
exactly while it is on; the key after the inner-word key is awaited in the visual mode only; and
when the handler has switched to the input mode, everything is cleared. -/
structure Exclusive (m : Modes) : Prop where
  operator : m.operation ≠ 0 → m.visualMode = 0
  anchor : m.visualMode ≠ 0 → 0 ≤ m.visualAnchor
  noAnchor : m.visualMode = 0 → m.visualAnchor = -1
  inner : m.pending = pendingVisualInner → m.visualMode ≠ 0
  input : m.enteredInput = true →
    m.operation = 0 ∧ m.visualMode = 0 ∧ m.visualAnchor = -1 ∧ m.pending = 0

lemma zero_ne_inner : (0 : ℤ) ≠ pendingVisualInner := by decide

namespace Exclusive

variable {m : Modes}

/-! ### Changes of the modes -/

lemma clear (m : Modes) : Exclusive m.clear where
  operator h := absurd rfl h
  anchor h := absurd rfl h
  noAnchor _ := rfl
  inner h := absurd h zero_ne_inner
  input _ := ⟨rfl, rfl, rfl, rfl⟩

lemma clear_setNormalMode (m : Modes) (enabled : Bool) :
    Exclusive (m.clear.setNormalMode enabled) where
  operator h := absurd rfl h
  anchor h := absurd rfl h
  noAnchor _ := rfl
  inner h := absurd h zero_ne_inner
  input _ := ⟨rfl, rfl, rfl, rfl⟩

lemma clearPending (h : Exclusive m) : Exclusive m.clearPending where
  operator := h.operator
  anchor := h.anchor
  noAnchor := h.noAnchor
  inner hp := absurd hp zero_ne_inner
  input hi := ⟨(h.input hi).1, (h.input hi).2.1, (h.input hi).2.2.1, rfl⟩

lemma clearOperation (h : Exclusive m) : Exclusive m.clearOperation where
  operator ho := absurd rfl ho
  anchor := h.anchor
  noAnchor := h.noAnchor
  inner := h.inner
  input hi := ⟨rfl, (h.input hi).2⟩

/-- Leave the visual mode, when no key after the inner-word key is awaited. -/
lemma leaveVisual (h : Exclusive m) (hpending : m.pending ≠ pendingVisualInner) :
    Exclusive { m with visualMode := 0, visualAnchor := -1 } where
  operator _ := rfl
  anchor hv := absurd rfl hv
  noAnchor _ := rfl
  inner hp := absurd hp hpending
  input hi := ⟨(h.input hi).1, rfl, rfl, (h.input hi).2.2.2⟩

lemma clearVisual (h : Exclusive m) (hpending : m.pending ≠ pendingVisualInner) :
    Exclusive m.clearVisual := by
  unfold Modes.clearVisual
  split
  · exact h
  · exact h.leaveVisual hpending

lemma setNormalMode_true (h : Exclusive m) : Exclusive (m.setNormalMode true) where
  operator := h.operator
  anchor := h.anchor
  noAnchor := h.noAnchor
  inner := h.inner
  input hi := h.input (by simpa [Modes.setNormalMode] using hi)

/-- Switch to the input mode, when everything is cleared. -/
lemma setNormalMode_false (h : Exclusive m) (hop : m.operation = 0) (hvisual : m.visualMode = 0)
    (hpending : m.pending = 0) : Exclusive (m.setNormalMode false) where
  operator := h.operator
  anchor := h.anchor
  noAnchor := h.noAnchor
  inner := h.inner
  input _ := ⟨hop, hvisual, h.noAnchor hvisual, hpending⟩

lemma setAnchor (h : Exclusive m) (hvisual : m.visualMode ≠ 0) {a : ℤ} (ha : 0 ≤ a) :
    Exclusive { m with visualAnchor := a } where
  operator := h.operator
  anchor _ := ha
  noAnchor hv := absurd hv hvisual
  inner := h.inner
  input hi := absurd (h.input hi).2.1 hvisual

/-- Start to wait for a second key. -/
lemma setPending (h : Exclusive m) (hfresh : m.enteredInput = false) {p : ℤ}
    (hp : p = pendingVisualInner → m.visualMode ≠ 0) : Exclusive { m with pending := p } where
  operator := h.operator
  anchor := h.anchor
  noAnchor := h.noAnchor
  inner := hp
  input hi := by rw [hfresh] at hi; cases hi

/-- Start an operator outside the visual mode. -/
lemma setOperation (h : Exclusive m) (hfresh : m.enteredInput = false) (hvisual : m.visualMode = 0)
    (op : ℤ) : Exclusive { m with operation := op } where
  operator _ := hvisual
  anchor := h.anchor
  noAnchor := h.noAnchor
  inner := h.inner
  input hi := by rw [hfresh] at hi; cases hi

/-- In the visual mode nothing has switched to the input mode. -/
lemma fresh_of_visual (h : Exclusive m) (hvisual : m.visualMode ≠ 0) : m.enteredInput = false := by
  by_contra hi
  exact hvisual (h.input (by simpa using hi)).2.1

end Exclusive

section Handler

variable {σ : Type} {F : TextField σ} {settings : Settings} {s : State σ}

/-! ### Moving the cursor -/

lemma clearVisual_modes (s : State σ) : (clearVisual F s).modes = s.modes.clearVisual := by
  unfold clearVisual Modes.clearVisual
  split <;> rfl

/-- After an operator was applied, everything is cleared. -/
lemma finishOperatorWithSelection_exclusive (cursor : Cursor) (s : State σ) :
    Exclusive (finishOperatorWithSelection F cursor s).modes := by
  unfold finishOperatorWithSelection
  dsimp only
  split
  · exact Exclusive.clear _
  split
  · exact Exclusive.clear _
  · exact Exclusive.clear_setNormalMode _ _

/-- A selection in the visual mode changes its beginning only. -/
lemma setVisualSelection_modes (position : ℕ) (s : State σ) : ∃ a : ℕ,
    (setVisualSelection F position s).modes = { s.modes with visualAnchor := a } := ⟨_, rfl⟩

lemma setVisualSelectionCharacter_modes (position : ℕ) (s : State σ) : ∃ a : ℕ,
    (setVisualSelectionCharacter F position s).modes = { s.modes with visualAnchor := a } := by
  unfold setVisualSelectionCharacter
  exact setVisualSelection_modes _ _

lemma setVisualSelection_exclusive (h : Exclusive s.modes) (hvisual : s.modes.visualMode ≠ 0)
    (position : ℕ) : Exclusive (setVisualSelection F position s).modes := by
  obtain ⟨a, ha⟩ := setVisualSelection_modes (F := F) position s
  rw [ha]
  exact h.setAnchor hvisual (Int.natCast_nonneg a)

lemma setVisualSelectionCharacter_exclusive (h : Exclusive s.modes)
    (hvisual : s.modes.visualMode ≠ 0) (position : ℕ) :
    Exclusive (setVisualSelectionCharacter F position s).modes := by
  obtain ⟨a, ha⟩ := setVisualSelectionCharacter_modes (F := F) position s
  rw [ha]
  exact h.setAnchor hvisual (Int.natCast_nonneg a)

lemma moveCursor_exclusive (h : Exclusive s.modes) (operation : MoveOperation) (past : Bool) :
    Exclusive (moveCursor F settings operation past s).modes := by
  unfold moveCursor
  by_cases hvisual : s.modes.visualMode = 1
  · rw [if_pos hvisual]
    dsimp only
    exact setVisualSelectionCharacter_exclusive h (by rw [hvisual]; decide) _
  · rw [if_neg hvisual]
    dsimp only
    split
    · exact h
    split
    · exact finishOperatorWithSelection_exclusive _ _
    · exact h

lemma moveCursorTo_exclusive (h : Exclusive s.modes) (position : ℕ) :
    Exclusive (moveCursorTo F position s).modes := by
  unfold moveCursorTo
  dsimp only
  split
  · next hvisual =>
    dsimp only
    exact setVisualSelection_exclusive h (by rw [hvisual]; decide) _
  · split_ifs
    · exact finishOperatorWithSelection_exclusive _ _
    · exact h

lemma motion_exclusive (h : Exclusive s.modes) (operation : MoveOperation) :
    Exclusive (motion F settings operation s).modes :=
  moveCursor_exclusive (s := { s with modes := s.modes.clearPending }) h.clearPending operation false

lemma motionTo_exclusive (h : Exclusive s.modes) (position : ℕ) :
    Exclusive (motionTo F position s).modes :=
  moveCursorTo_exclusive (s := { s with modes := s.modes.clearPending }) h.clearPending position

/-! ### The other steps -/

/-- After the modes were cleared before a command, nothing waits. -/
lemma clearCommand_modes (s : State σ) :
    (clearCommand F s).modes = s.modes.clearOperation.clearVisual.clearPending := by
  unfold clearCommand
  dsimp only
  rw [clearVisual_modes]

lemma clearCommand_exclusive (h : Exclusive s.modes)
    (hpending : s.modes.pending ≠ pendingVisualInner) : Exclusive (clearCommand F s).modes := by
  rw [clearCommand_modes]
  exact (h.clearOperation.clearVisual hpending).clearPending

lemma undoRedo_exclusive (h : Exclusive s.modes) (redo : Bool) :
    Exclusive (undoRedo F redo s).modes := h.clearPending.setNormalMode_true

lemma enterInputMode_exclusive (s : State σ) : Exclusive (enterInputMode F s).modes :=
  Exclusive.clear_setNormalMode _ _

lemma changeAfterDelete_exclusive (h : Exclusive s.modes) (hop : s.modes.operation = 0)
    (hvisual : s.modes.visualMode = 0) (hpending : s.modes.pending = 0) :
    Exclusive (changeAfterDelete F s).modes := h.setNormalMode_false hop hvisual hpending

lemma clearOperation_clearVisual_visualMode (m : Modes) :
    m.clearOperation.clearVisual.visualMode = 0 := by
  unfold Modes.clearVisual
  split
  · next h => exact h
  · rfl

lemma clearOperation_clearVisual_operation (m : Modes) :
    m.clearOperation.clearVisual.operation = 0 := by
  unfold Modes.clearVisual
  split <;> rfl

/-- Switch to the input mode after everything was cleared and text was deleted. -/
lemma changeAfterDelete_clearCommand_exclusive (h : Exclusive s.modes)
    (hpending : s.modes.pending ≠ pendingVisualInner) (f : σ) :
    Exclusive (changeAfterDelete F { clearCommand F s with field := f }).modes := by
  have hmodes := clearCommand_modes (F := F) s
  refine changeAfterDelete_exclusive (clearCommand_exclusive h hpending) ?_ ?_ ?_
  · show (clearCommand F s).modes.operation = 0
    rw [hmodes]
    exact clearOperation_clearVisual_operation _
  · show (clearCommand F s).modes.visualMode = 0
    rw [hmodes]
    exact clearOperation_clearVisual_visualMode _
  · show (clearCommand F s).modes.pending = 0
    rw [hmodes]
    rfl

lemma startVisualMode_exclusive (hfresh : s.modes.enteredInput = false)
    (line : Bool) : Exclusive (startVisualMode F line s).modes := by
  have hstart : ∀ (n : ℤ) (a : ℕ), n ≠ 0 → Exclusive { s.modes with
      operation := 0, visualMode := n, visualAnchor := a, pending := 0 } := fun n a hn =>
    { operator := fun ho => absurd rfl ho
      anchor := fun _ => Int.natCast_nonneg a
      noAnchor := fun hv => absurd hv hn
      inner := fun _ => hn
      input := fun hi => by rw [hfresh] at hi; cases hi }
  unfold startVisualMode
  cases line with
  | true => exact hstart 2 _ (by decide)
  | false =>
    dsimp only
    exact setVisualSelection_exclusive (hstart 1 _ (by decide)) (by decide : (1 : ℤ) ≠ 0) _

lemma selectVisualInnerWord_exclusive (h : Exclusive s.modes) (hvisual : s.modes.visualMode ≠ 0) :
    Exclusive (selectVisualInnerWord F s).modes := by
  unfold selectVisualInnerWord
  dsimp only
  split
  · have hop : s.modes.operation = 0 := by
      by_contra hop
      exact hvisual (h.operator hop)
    exact
      { operator := fun ho => absurd hop ho
        anchor := fun _ => Int.natCast_nonneg _
        noAnchor := fun hv => absurd hv one_ne_zero
        inner := fun _ => one_ne_zero
        input := fun hi => by rw [h.fresh_of_visual hvisual] at hi; cases hi }
  · exact h

lemma replaceNextChar_exclusive (h : Exclusive s.modes) (text : Text) :
    Exclusive (replaceNextChar F text s).modes := by
  unfold replaceNextChar
  dsimp only
  split
  · exact h.clearPending
  · exact h.clearPending.setNormalMode_true

/-! ### Commands -/

lemma executeVisual_exclusive (h : Exclusive s.modes) (hvisual : s.modes.visualMode ≠ 0)
    (hpending : s.modes.pending ≠ pendingVisualInner) (command : VisualCommand) :
    Exclusive (executeVisual F settings command s).modes := by
  have hleft : Exclusive (clearVisual F s).modes := by
    rw [clearVisual_modes]
    exact h.clearVisual hpending
  cases command with
  | undo => exact undoRedo_exclusive hleft false
  | redo => exact undoRedo_exclusive hleft true
  | left => exact motion_exclusive h .left
  | right => exact motion_exclusive h .right
  | yank =>
    simp only [executeVisual, clearVisual_modes]
    exact h.clearVisual hpending
  | delete => exact h.leaveVisual hpending
  | inner => exact h.setPending (h.fresh_of_visual hvisual) fun _ => hvisual

lemma executeWord_exclusive (h : Exclusive s.modes) :
    Exclusive (executeWord F settings s).modes := by
  unfold executeWord
  dsimp only
  split_ifs with hinner hyank hchange
  · exact h.clearOperation.clearPending
  · -- an operator was pending, so the visual mode is off
    have hvisual := h.operator (by rw [hchange]; decide)
    exact changeAfterDelete_exclusive h.clearOperation.clearPending rfl hvisual rfl
  · exact h.clearOperation.clearPending
  · exact motion_exclusive h .nextWord

lemma executeChange_exclusive (h : Exclusive s.modes) (hfresh : s.modes.enteredInput = false)
    (hvisual : F.hasText s.field = true → s.modes.visualMode = 0) :
    Exclusive (executeChange F s).2.modes := by
  unfold executeChange
  dsimp only
  split_ifs with htext hagain
  · exact h.clearPending.clearOperation
  · exact changeAfterDelete_exclusive h.clearPending.clearOperation rfl
      (hvisual (by simpa using htext)) rfl
  · exact h.clearPending.setOperation hfresh (hvisual (by simpa using htext)) _

lemma executeDelete_exclusive (h : Exclusive s.modes) (hfresh : s.modes.enteredInput = false)
    (hvisual : s.modes.visualMode = 0) (e : KeyEvent) :
    Exclusive (executeDelete F settings e s).2.modes := by
  unfold executeDelete
  dsimp only
  split_ifs
  · exact h
  · exact h.clearPending.clearOperation
  · exact h.clearPending.clearOperation
  · exact h.clearPending.setOperation hfresh hvisual _
  · exact h.clearPending.setOperation hfresh hvisual _

lemma executeYank_exclusive (h : Exclusive s.modes) (hfresh : s.modes.enteredInput = false)
    (hvisual : s.modes.visualMode = 0) : Exclusive (executeYank F s).2.modes := by
  unfold executeYank
  dsimp only
  split_ifs
  · exact h.clearPending.clearOperation
  · exact h.clearPending.clearOperation
  · exact h.clearPending.setOperation hfresh hvisual _

/-- **What one command preserves**, when the keys that start an operator are pressed outside the
visual mode. -/
lemma execute_exclusive (h : Exclusive s.modes) (hfresh : s.modes.enteredInput = false)
    (hpending : s.modes.pending ≠ pendingVisualInner) {command : Command} {e : KeyEvent}
    (hchange : command = .change → F.hasText s.field = true → s.modes.visualMode = 0)
    (hstarts : command = .inner ∨ command = .delete ∨ command = .yank → s.modes.visualMode = 0) :
    Exclusive (execute F settings command e s).2.modes := by
  have hcleared := clearCommand_exclusive (F := F) h hpending
  have hleft : Exclusive (clearVisual F { s with modes := s.modes.clearOperation }).modes := by
    rw [clearVisual_modes]
    exact h.clearOperation.clearVisual hpending
  cases command with
  | undo => exact undoRedo_exclusive hcleared false
  | redo => exact undoRedo_exclusive hcleared true
  | inputLeft => exact moveCursor_exclusive hcleared .left false
  | inputRight => exact moveCursor_exclusive hcleared .right false
  | inner => exact h.clearPending.setOperation hfresh (hstarts (.inl rfl)) _
  | insert => exact enterInputMode_exclusive _
  | insertLine => exact enterInputMode_exclusive _
  | append => exact enterInputMode_exclusive _
  | appendLine => exact enterInputMode_exclusive _
  | openBelow => exact enterInputMode_exclusive _
  | openAbove => exact enterInputMode_exclusive _
  | visual => exact startVisualMode_exclusive hfresh false
  | visualLine => exact startVisualMode_exclusive hfresh true
  | goto =>
    unfold execute
    dsimp only
    split
    · exact motionTo_exclusive h 0
    · exact h.setPending hfresh fun hp => absurd hp (by decide)
  | gotoEnd => exact motionTo_exclusive h _
  | left => exact motion_exclusive h _
  | down => exact motion_exclusive h _
  | up => exact motion_exclusive h _
  | right => exact motion_exclusive h _
  | nextWord => exact executeWord_exclusive h
  | previousWord => exact motion_exclusive h _
  | wordEnd => exact motion_exclusive h _
  | firstNonBlank => exact motionTo_exclusive h _
  | lineStart => exact motionTo_exclusive h _
  | lineEnd => exact motionTo_exclusive h _
  | paragraphUp => exact motion_exclusive h _
  | paragraphDown => exact motion_exclusive h _
  | toggleCase => exact hcleared
  | deleteChar => exact hcleared
  | deletePrevious => exact hcleared
  | deleteToEnd => exact hcleared
  | changeToEnd => exact changeAfterDelete_clearCommand_exclusive h hpending _
  | change => exact executeChange_exclusive h hfresh (hchange rfl)
  | delete => exact executeDelete_exclusive h hfresh (hstarts (.inr (.inl rfl))) e
  | substitute => exact changeAfterDelete_clearCommand_exclusive h hpending _
  | substituteLine => exact changeAfterDelete_clearCommand_exclusive h hpending _
  | replace =>
    refine hleft.setPending ?_ fun hp => absurd hp (by decide)
    rw [clearVisual_modes]
    unfold Modes.clearVisual
    split <;> exact hfresh
  | replaceInput => exact enterInputMode_exclusive _
  | joinLine => exact hcleared
  | yank => exact executeYank_exclusive h hfresh (hstarts (.inr (.inr rfl)))
  | yankLine => exact hcleared
  | paste => exact hleft.clearPending
  | pasteBefore => exact hleft.clearPending
  | cancelPending => exact h.clearPending
  | cancelOperator => exact h.clearOperation.clearPending

/-! ### Which keys start an operator -/

/-- The delete key and the yank key mean something else in the visual mode. -/
lemma visualCommandOf_isSome {m : Modes} {e : KeyEvent}
    (h : settings.keys.plainTextKey e 'D' 'd' 'в' = true ∨
      settings.keys.plainTextKey e 'Y' 'y' 'н' = true) :
    visualCommandOf settings m e ≠ none := by
  unfold visualCommandOf
  dsimp only
  split_ifs <;> simp_all

/-- What holds of every result in a chain of tests. -/
lemma of_chain {α : Type} {c : Prop} [Decidable c] {a : α} {rest : Option α} {P : α → Prop}
    (hhere : c → P a) (hrest : ∀ x, rest = some x → P x) :
    ∀ x, (if c then some a else rest) = some x → P x := by
  intro x h
  split_ifs at h with hc
  · cases h
    exact hhere hc
  · exact hrest x h

/-- A key starts the command for an inner word after an operator only, and deletes or yanks only
if it is the letter for it. -/
lemma commandOf_starts {m : Modes} {e : KeyEvent} :
    ∀ command, commandOf settings m e = some command →
      (command = .inner → m.operation ≠ 0) ∧
      (command = .delete → settings.keys.plainTextKey e 'D' 'd' 'в' = true) ∧
      (command = .yank → settings.keys.plainTextKey e 'Y' 'y' 'н' = true) := by
  unfold commandOf
  dsimp only
  iterate 4 refine of_chain (fun _ => ⟨nofun, nofun, nofun⟩) ?_
  refine of_chain (fun hop => ⟨fun _ => ?_, nofun, nofun⟩) ?_
  · rcases hop.1 with hop | hop | hop <;> rw [hop] <;> decide
  iterate 28 refine of_chain (fun _ => ⟨nofun, nofun, nofun⟩) ?_
  refine of_chain (fun hkey => ⟨nofun, fun _ => hkey, nofun⟩) ?_
  iterate 5 refine of_chain (fun _ => ⟨nofun, nofun, nofun⟩) ?_
  refine of_chain (fun hkey => ⟨nofun, nofun, fun _ => hkey⟩) ?_
  iterate 5 refine of_chain (fun _ => ⟨nofun, nofun, nofun⟩) ?_
  nofun

/-! ### One key -/

variable (F settings) in
/-- The change key pressed in the visual mode: no earlier test stops the key, the visual mode does
not take it for itself, no second key is awaited, and there is a text. -/
def ChangesInVisual (around : Surroundings) (e : KeyEvent) (s : State σ) : Prop :=
  earlyOf F settings around e s = none ∧ s.modes.visualMode ≠ 0 ∧
    s.modes.pending ≠ pendingVisualInner ∧ s.modes.pending ≠ pendingReplace ∧
    visualCommandOf settings s.modes e = none ∧ commandOf settings s.modes e = some .change ∧
    F.hasText s.field = true

lemma handleCommand_exclusive (h : Exclusive s.modes) (hfresh : s.modes.enteredInput = false)
    (hpending : s.modes.pending ≠ pendingVisualInner) {e : KeyEvent}
    (hvisual : s.modes.visualMode ≠ 0 → visualCommandOf settings s.modes e = none)
    (hchange : s.modes.visualMode ≠ 0 → s.modes.pending ≠ pendingReplace →
      commandOf settings s.modes e = some .change → F.hasText s.field = false) :
    Exclusive (handleCommand F settings e s).2.modes := by
  unfold handleCommand
  split
  · split
    · exact replaceNextChar_exclusive h _
    · exact h.clearPending
  · next hreplace =>
    cases hcommand : commandOf settings s.modes e with
    | none => exact h
    | some command =>
      obtain ⟨hinner, hdelete, hyank⟩ := commandOf_starts command hcommand
      refine execute_exclusive h hfresh hpending ?_ ?_
      · rintro rfl htext
        by_contra hon
        rw [hchange hon hreplace hcommand] at htext
        cases htext
      · intro hstarts
        by_contra hon
        rcases hstarts with hstarts | hstarts | hstarts
        · exact hon (h.operator (hinner hstarts))
        · exact visualCommandOf_isSome (.inl (hdelete hstarts)) (hvisual hon)
        · exact visualCommandOf_isSome (.inr (hyank hstarts)) (hvisual hon)

lemma handleKey_exclusive (h : Exclusive s.modes) (hfresh : s.modes.enteredInput = false)
    {e : KeyEvent}
    (hchange : s.modes.visualMode ≠ 0 → s.modes.pending ≠ pendingVisualInner →
      s.modes.pending ≠ pendingReplace → visualCommandOf settings s.modes e = none →
      commandOf settings s.modes e = some .change → F.hasText s.field = false) :
    Exclusive (handleKey F settings e s).2.modes := by
  unfold handleKey
  split
  · next hinner =>
    have hvisual := h.inner hinner
    dsimp only
    split
    · exact selectVisualInnerWord_exclusive (s := { s with modes := s.modes.clearPending })
        h.clearPending hvisual
    · exact h.clearPending
  · next hinner =>
    split
    · next hvisual =>
      cases hcommand : visualCommandOf settings s.modes e with
      | some command => exact executeVisual_exclusive h hvisual hinner command
      | none =>
        exact handleCommand_exclusive h hfresh hinner (fun _ => hcommand) fun hon hreplace =>
          hchange hon hinner hreplace hcommand
    · next hvisual =>
      exact handleCommand_exclusive h hfresh hinner (fun hon => absurd hon hvisual)
        fun hon => absurd hon hvisual

lemma handleEscape_exclusive (h : Exclusive s.modes) : Exclusive (handleEscape F s).modes := by
  have hcleared := h.clearOperation.clearPending
  unfold handleEscape
  dsimp only
  split
  · exact hcleared.leaveVisual zero_ne_inner
  · exact hcleared.setNormalMode_true

/-- What was known before a key is still known when nothing has switched to the input mode yet. -/
lemma Exclusive.fresh {m : Modes} (h : Exclusive m) : Exclusive { m with enteredInput := false } where
  operator := h.operator
  anchor := h.anchor
  noAnchor := h.noAnchor
  inner := h.inner
  input hi := by cases hi

/-- **What one key preserves.** -/
lemma Exclusive.handleComposeTextKey (h : Exclusive s.modes) {around : Surroundings} {e : KeyEvent}
    (hkey : ¬ ChangesInVisual F settings around e s) :
    Exclusive (handleComposeTextKey F settings around e s).2.modes := by
  unfold Compose.handleComposeTextKey
  dsimp only
  have hearly : earlyOf F settings around e
      { s with modes := { s.modes with enteredInput := false } } =
      earlyOf F settings around e s := rfl
  rw [hearly]
  cases hwhen : earlyOf F settings around e s with
  | some early =>
    cases early with
    | clear => exact Exclusive.clear _
    | leave => exact h.fresh
    | refresh => exact h.fresh
    | suggestions =>
      dsimp only
      split <;> exact h.fresh
    | escape => exact handleEscape_exclusive h.fresh
  | none =>
    refine handleKey_exclusive (s := { s with modes := { s.modes with enteredInput := false } })
      h.fresh rfl ?_
    intro hvisual hinner hreplace hnone hcommand
    by_contra htext
    exact hkey ⟨hwhen, hvisual, hinner, hreplace, hnone, hcommand, by simpa using htext⟩

/-- The excluded step breaks the modes: the operator is pending while the visual mode is on. -/
lemma not_exclusive_of_changesInVisual (h : Exclusive s.modes) {around : Surroundings}
    {e : KeyEvent} (hkey : ChangesInVisual F settings around e s) :
    ¬ Exclusive (handleComposeTextKey F settings around e s).2.modes := by
  obtain ⟨hearly, hvisual, hinner, hreplace, hnone, hcommand, htext⟩ := hkey
  have hop : s.modes.operation = 0 := by
    by_contra hop
    exact hvisual (h.operator hop)
  -- the key goes through to the change command
  have hkeyStep : handleComposeTextKey F settings around e s =
      executeChange F { s with modes := { s.modes with enteredInput := false } } := by
    unfold Compose.handleComposeTextKey
    dsimp only
    rw [show earlyOf F settings around e
      { s with modes := { s.modes with enteredInput := false } } = none from hearly]
    unfold handleKey
    rw [if_neg hinner, if_pos hvisual]
    rw [show visualCommandOf settings { s.modes with enteredInput := false } e = none from hnone]
    unfold handleCommand
    rw [if_neg hreplace]
    rw [show commandOf settings { s.modes with enteredInput := false } e = some .change
      from hcommand]
    rfl
  have hmodes : (executeChange F
      { s with modes := { s.modes with enteredInput := false } }).2.modes =
      { s.modes with operation := opChange, pending := 0, enteredInput := false } := by
    unfold executeChange
    dsimp only
    rw [if_neg (by simpa using htext), if_neg (by
      show ¬ s.modes.operation = opChange
      rw [hop]
      decide)]
    rfl
  intro hafter
  rw [hkeyStep, hmodes] at hafter
  exact hvisual (hafter.operator (by show opChange ≠ 0; decide))

/-! ### Runs -/

/-- The states of the handler and the field: at first no operator, no visual mode and no pending
key; then keys are pressed, none of them the change key in the visual mode; the timer of the
delete key, when it fires, takes its operator back and shows what can be deleted; and the field
and the mode change without the handler. -/
inductive Reachable (F : TextField σ) : State σ → Prop where
  | cleared (normal : Bool) (f : σ) (timer : Option ℕ) :
    Reachable F ⟨⟨0, 0, -1, 0, normal, false⟩, f, timer⟩
  | key {s : State σ} (settings : Settings) (around : Surroundings) (e : KeyEvent) :
    Reachable F s → ¬ ChangesInVisual F settings around e s →
      Reachable F (handleComposeTextKey F settings around e s).2
  | timer {s : State σ} (f : σ) : Reachable F s → s.modes.operation = opDelete →
      Reachable F { s with modes := s.modes.clearOperation, field := f }
  | outside {s : State σ} (normal : Bool) (f : σ) : Reachable F s →
      Reachable F { s with modes := { s.modes with normalModeEnabled := normal }, field := f }

/-- **The modes stay exclusive** in every run in which the change key is not pressed in the visual
mode: no operator is pending in the visual mode, which has its beginning exactly while it is on,
and when the handler has switched to the input mode, everything is cleared.

**Proof sketch.** Each command is one step on the modes, or a motion; with a pending operator a
motion clears everything. The operators start outside the visual mode: the delete and the yank
key are taken by the visual mode, the inner-word key needs an operator, and the change key is
excluded. The switch to the input mode follows the clearing of everything. -/
theorem reachable_exclusive (F : TextField σ) (s : State σ) (h : Reachable F s) :
    (s.modes.operation ≠ 0 → s.modes.visualMode = 0) ∧
      (s.modes.visualAnchor < 0 ↔ s.modes.visualMode = 0) ∧
      (s.modes.enteredInput = true → s.modes.operation = 0 ∧ s.modes.visualMode = 0 ∧
        s.modes.visualAnchor = -1 ∧ s.modes.pending = 0) := by
  have hexclusive : Exclusive s.modes := by
    induction h with
    | cleared normal f timer =>
      exact
        { operator := fun ho => absurd rfl ho
          anchor := fun hv => absurd rfl hv
          noAnchor := fun _ => rfl
          inner := fun hp => absurd hp zero_ne_inner
          input := fun hi => by cases hi }
    | key settings around e _ hkey ih => exact ih.handleComposeTextKey hkey
    | timer f _ _ ih => exact ih.clearOperation
    | outside normal f _ ih => exact ⟨ih.operator, ih.anchor, ih.noAnchor, ih.inner, ih.input⟩
  refine ⟨hexclusive.operator, ⟨fun hneg => ?_, fun hoff => ?_⟩, hexclusive.input⟩
  · by_contra hon
    exact absurd (hexclusive.anchor hon) (not_le.2 hneg)
  · rw [hexclusive.noAnchor hoff]
    decide

end Handler

/-! ### A run that breaks the modes -/

/-- A field with one word. -/
structure Word where
  text : Text
  cursor : Cursor
deriving DecidableEq

/-- What a cursor in a word selects. -/
def Word.selected (w : Word) (c : Cursor) : Text :=
  (w.text.drop c.selectionStart).take (max c.position c.anchor - c.selectionStart)

/-- The word with the selection of a cursor replaced. -/
def Word.replaced (w : Word) (c : Cursor) (text : Text) : Cursor × Word :=
  let position := c.selectionStart + text.length
  (⟨position, position⟩,
    { w with text := w.text.take c.selectionStart ++ text ++
        w.text.drop (max c.position c.anchor) })

/-- Where a cursor moves in a word. -/
def Word.target (w : Word) (c : Cursor) : MoveOperation → ℕ
  | .left => c.position - 1
  | .right => min (c.position + 1) w.text.length
  | .previousWord | .startOfLine => 0
  | .nextWord | .endOfWord | .endOfLine => w.text.length
  | .up | .down | .previousBlock | .nextBlock => c.position

/-- The operations of a field with one word, with nothing to undo. -/
def wordField : TextField Word where
  isHidden _ := false
  hasFocus _ := true
  empty w := w.text.isEmpty
  hasText w := !w.text.isEmpty
  textCursor w := w.cursor
  setTextCursor c w := { w with cursor := c }
  setFocusFast w := w
  ensureCursorVisible w := w
  refreshCursor _ w := w
  saveDraft w := w
  showSuggestionsMenu w := w
  copy w := w
  paste w := w
  undo w := w
  redo w := w
  isUndoAvailable _ := false
  isRedoAvailable _ := false
  characterCount w := w.text.length + 1
  revision _ := 0
  getTextWithTags w := w.text
  block w _ := ⟨0, w.text⟩
  movePosition w c operation keep :=
    (w.target c operation != c.position, c.setPosition (w.target c operation) keep)
  selectWordUnderCursor w _ := ⟨w.text.length, 0⟩
  selectedText w c := w.selected c
  removeSelectedText c w := w.replaced c []
  insertText c text w := w.replaced c text
  deleteChar c w := w.replaced ⟨c.position, min (c.position + 1) w.text.length⟩ []
  isSpace c := c == 0x20
  isUpper c := 0x41 ≤ c && c ≤ 0x5A
  toLower c := c + 0x20
  toUpper c := c - 0x20

/-- The key map without configured keys. -/
def letterSettings : Settings where
  enabled := true
  forcedNormalMode := false
  keys := ⟨false, id⟩
  bindings :=
    ⟨fun _ => false, fun _ => false, fun _ => false, fun _ => false, fun _ => false, fun _ => false,
      fun _ => false, fun _ => false, fun _ => false, fun _ => false, fun _ => false,
      fun _ => false, fun _ => false, fun _ => false, fun _ => false, fun _ => false,
      fun _ => false, fun _ => false, fun _ => false, fun _ => false⟩
  spellcheck := false

/-- A letter pressed without modifiers. -/
def letterKey (capital small : Char) : KeyEvent :=
  ⟨capital.toNat, noModifier, [unitOf small], false, 0⟩

/-- Press a letter in a field with one word. -/
def pressLetter (capital small : Char) (s : State Word) : State Word :=
  (handleComposeTextKey wordField letterSettings ⟨false, false⟩ (letterKey capital small) s).2

/-- The normal mode with the cursor at the beginning of a word. -/
def atWord : State Word := ⟨⟨0, 0, -1, 0, true, false⟩, ⟨u "hi", ⟨0, 0⟩⟩, none⟩

/-- **The change key in the visual mode** leaves an operator pending there; pressed again, it deletes
the line and switches to the input mode, with the visual mode still on. -/
theorem operator_pending_in_visual :
    (pressLetter 'C' 'c' (pressLetter 'V' 'v' atWord)).modes.operation = opChange ∧
      (pressLetter 'C' 'c' (pressLetter 'V' 'v' atWord)).modes.visualMode = 1 ∧
      (pressLetter 'C' 'c' (pressLetter 'C' 'c' (pressLetter 'V' 'v' atWord))).modes =
        ⟨0, 1, 0, 0, false, true⟩ ∧
      (pressLetter 'C' 'c' (pressLetter 'C' 'c' (pressLetter 'V' 'v' atWord))).field.text = [] := by
  decide +kernel

/-- The visual mode alone is exclusive. -/
theorem reachable_exclusive_visual :
    let m := (pressLetter 'V' 'v' atWord).modes
    (m.operation ≠ 0 → m.visualMode = 0) ∧ (m.visualAnchor < 0 ↔ m.visualMode = 0) ∧
      (m.enteredInput = true → m.operation = 0 ∧ m.visualMode = 0 ∧ m.visualAnchor = -1 ∧
        m.pending = 0) :=
  have hstart : Reachable wordField atWord := .cleared true (⟨u "hi", ⟨0, 0⟩⟩ : Word) none
  reachable_exclusive wordField (pressLetter 'V' 'v' atWord)
    (.key letterSettings ⟨false, false⟩ (letterKey 'V' 'v') hstart fun h => h.2.1 rfl)

end VimKeymap.Compose
