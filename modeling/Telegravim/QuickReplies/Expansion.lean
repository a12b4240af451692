import Telegravim.Foundation.OrdMap
import Telegravim.Foundation.Text
import Telegravim.Foundation.Replacements

set_option autoImplicit false

/-!
# Expansion of quick reply variables

A quick reply may contain names in double braces. Before it is sent, each of them that has a
value is replaced by it, and the formatting of the text follows. A first step plans the
replacements and their total length, a second one carries them out.

The regular expression engine is part of the string library; its search is written out here:
it looks for the leftmost match, takes as many name characters as it can and gives them back
one by one, and finds nothing at all in a text with unpaired surrogates. Which characters are
letters or numbers is a parameter, and so is the check of a formatting range against a text,
which belongs to the text library. Positions are 32-bit integers in the source; here a position
that does not fit or is negative has no result.

## Main definitions

* `TextWithEntities` — a text with its formatting.
* `globalMatch` — the placeholders of a text.
* `planQuickReplyExpansion`, `applyQuickReplyExpansion`, `expandQuickReplyChecked` — the two
  steps and their composition.
* `replaceNames` — the intended text: the values in the place of the names, nothing else changed.

## Main results

* `expandQuickReplyChecked_inStep` — an expanded reply has the intended text, and its formatting
  follows it.
-/

namespace QuickReplies

open Text Replacement

/-! ### Texts with formatting -/

/-- The kinds of formatting. -/
inductive EntityType where
  | invalid | url | customUrl | email | hashtag | cashtag | mention | mentionName | customEmoji
  | botCommand | mediaTimestamp | colorized | phone | bankCard | bold | semibold | italic
  | underline | strikeOut | code | pre | blockquote | spoiler | subscript | superscript | marked
  | formattedDate
deriving DecidableEq, Repr

/-- A formatted range of a text. -/
structure EntityInText where
  type : EntityType
  offset : ℤ
  length : ℤ
  data : Text
deriving DecidableEq

/-- A text with its formatting. -/
structure TextWithEntities where
  text : Text
  entities : List EntityInText
deriving DecidableEq

/-- What is used of the check of a formatted range against the size of a text: a range it
accepts lies in the text, and it accepts every range of the same kind that is not empty and
lies in its text. -/
structure RangeCheck (validForText : EntityInText → ℤ → Bool) : Prop where
  inside : ∀ {e : EntityInText} {size : ℤ}, validForText e size = true →
    0 ≤ e.offset ∧ 0 ≤ e.length ∧ e.offset + e.length ≤ size
  accepts : ∀ {e : EntityInText} {size : ℤ}, validForText e size = true →
    ∀ {offset length size' : ℤ}, 0 ≤ offset → 0 < length → offset + length ≤ size' →
      validForText ⟨e.type, offset, length, e.data⟩ size' = true

/-! ### Placeholders -/

/-- The first half of a surrogate pair. -/
def isHighSurrogate (c : UInt16) : Bool := 0xD800 ≤ c.toNat && c.toNat < 0xDC00

/-- The second half of a surrogate pair. -/
def isLowSurrogate (c : UInt16) : Bool := 0xDC00 ≤ c.toNat && c.toNat < 0xE000

/-- Whether the surrogates of a text are all paired. -/
def isValidUtf16 : Text → Bool
  | [] => true
  | [c] => !isHighSurrogate c && !isLowSurrogate c
  | c :: d :: rest =>
    if isHighSurrogate c then isLowSurrogate d && isValidUtf16 rest
    else !isLowSurrogate c && isValidUtf16 (d :: rest)

/-- The first character of a text and the number of its units. -/
def codePointAt : Text → Option (ℕ × ℕ)
  | [] => none
  | [c] => some (c.toNat, 1)
  | c :: d :: _ =>
    if isHighSurrogate c && isLowSurrogate d then
      some (0x10000 + (c.toNat - 0xD800) * 0x400 + (d.toNat - 0xDC00), 2)
    else some (c.toNat, 1)

section Matching

variable (letterOrNumber : ℕ → Bool)

/-- The characters of a name: letters, numbers and the underscore. -/
def isNameCharacter (point : ℕ) : Bool := letterOrNumber point || point == 0x5F

/-- The lengths of the names of one character, two characters and so on that a text begins
with, up to a number of characters. -/
def nameLengths : ℕ → Text → List ℕ
  | 0, _ => []
  | limit + 1, text =>
    match codePointAt text with
    | none => []
    | some (point, length) =>
      if isNameCharacter letterOrNumber point then
        length :: (nameLengths limit (text.drop length)).map (· + length)
      else []

/-- The name of the placeholder that a text begins with: the longest one followed by the
closing braces. -/
def matchAt (text : Text) : Option Text :=
  if text.take 2 = u "\x7b\x7b" then
    ((nameLengths letterOrNumber 32 (text.drop 2)).reverse.find? fun length =>
      (text.drop (2 + length)).take 2 == u "\x7d\x7d").map fun length => (text.drop 2).take length
  else none

/-- A match of the pattern. -/
structure Match where
  capturedStart : ℕ
  capturedLength : ℕ
  captured : Text
deriving DecidableEq

/-- The matches in the rest of a text, from a position on, after some units of the current
match have been passed over. -/
def matchesFrom : ℕ → ℕ → Text → List Match
  | _, _, [] => []
  | position, skip + 1, _ :: rest => matchesFrom (position + 1) skip rest
  | position, 0, c :: rest =>
    match matchAt letterOrNumber (c :: rest) with
    | none => matchesFrom (position + 1) 0 rest
    | some name =>
      ⟨position, name.length + 4, name⟩ :: matchesFrom (position + 1) (name.length + 3) rest

/-- All matches of the pattern in a text. -/
def globalMatch (text : Text) : List Match :=
  if isValidUtf16 text then matchesFrom letterOrNumber 0 0 text else []

/-! ### The two steps -/

/-- What an expansion replaces, and the length of its result. -/
structure QuickReplyExpansionPlan where
  length : ℤ
  replacements : List (Replacement UInt16)

/-- The message about a reply that gets too long. -/
def tooLong : Text := u "The expanded quick reply is too long."

/-- Take a match over into the plan if its name has a value. The length is a 64-bit integer in
the source, wider than any sum of sizes of texts in memory. -/
def planMatch (values : OrdMap Text Text) (plan : QuickReplyExpansionPlan) (m : Match) :
    QuickReplyExpansionPlan :=
  match values.find m.captured with
  | none => plan
  | some value =>
    { length := plan.length + ((value.length : ℤ) - m.capturedLength)
      replacements := plan.replacements ++ [⟨m.capturedStart, m.capturedLength, value⟩] }

/-- Plan the expansion of a text, or say why it cannot be expanded. -/
def planQuickReplyExpansion (validForText : EntityInText → ℤ → Bool) (message : TextWithEntities)
    (values : OrdMap Text Text) (maximum : Int32) : Except Text QuickReplyExpansionPlan :=
  if maximum.toInt < message.text.length then .error tooLong
  else if message.entities.any fun entity => !validForText entity message.text.length then
    .error (u "The quick reply has invalid text entities.")
  else
    let plan := (globalMatch letterOrNumber message.text).foldl (planMatch values)
      ⟨message.text.length, []⟩
    if maximum.toInt < plan.length then .error tooLong else .ok plan

end Matching

/-- A 32-bit integer, or no result when the value does not fit. -/
def asInt32 (n : ℤ) : Option ℤ := if -2 ^ 31 ≤ n ∧ n < 2 ^ 31 then some n else none

/-- A position, or no result when the value is negative or does not fit. -/
def asPosition (n : ℤ) : Option ℤ := if 0 ≤ n ∧ n < 2 ^ 31 then some n else none

/-- Where a position of the text goes, after the replacements passed so far shifted it. -/
def mapPosition (atEnd : Bool) : List (Replacement UInt16) → ℤ → ℤ → Option ℤ
  | [], shift, position => asPosition (position + shift)
  | r :: rs, shift, position =>
    if position ≤ r.start then asPosition (position + shift)
    else do
      let finish ← asPosition ((r.start : ℤ) + r.length)
      if position < finish then
        let start ← asPosition (r.start + shift)
        let size ← if atEnd then asInt32 r.text.length else some 0
        asPosition (start + size)
      else
        let size ← asInt32 r.text.length
        let growth ← asInt32 (size - r.length)
        let shift ← asInt32 (shift + growth)
        mapPosition atEnd rs shift position

/-- Append the rest of a text, from a position on, with its replacements. -/
def appendPieces (text : Text) : List (Replacement UInt16) → ℤ → Text → Option Text
  | [], position, result => some (result ++ text.drop position.toNat)
  | r :: rs, position, result => do
    let length ← asPosition (r.start - position)
    let result := result ++ (text.drop position.toNat).take length.toNat ++ r.text
    let position ← asPosition ((r.start : ℤ) + r.length)
    appendPieces text rs position result

/-- The formatted range in the expanded text; it is dropped when nothing of it is left. -/
def mapEntity (plan : QuickReplyExpansionPlan) (entity : EntityInText) :
    Option (Option EntityInText) := do
  let start ← mapPosition false plan.replacements 0 entity.offset
  let finish ← asPosition (entity.offset + entity.length)
  let finish ← mapPosition true plan.replacements 0 finish
  if start < finish then
    let length ← asPosition (finish - start)
    pure (some ⟨entity.type, start, length, entity.data⟩)
  else pure none

/-- Carry out a plan; no result means that a position overflowed or got negative. -/
def applyQuickReplyExpansion (message : TextWithEntities) (plan : QuickReplyExpansionPlan) :
    Option TextWithEntities := do
  let text ← appendPieces message.text plan.replacements 0 []
  let entities ← message.entities.mapM (mapEntity plan)
  pure ⟨text, entities.reduceOption⟩

/-- Plan an expansion and carry it out. -/
def expandQuickReplyChecked (letterOrNumber : ℕ → Bool)
    (validForText : EntityInText → ℤ → Bool) (message : TextWithEntities)
    (values : OrdMap Text Text) (maximum : Int32) : Except Text (Option TextWithEntities) :=
  (planQuickReplyExpansion letterOrNumber validForText message values maximum).map
    (applyQuickReplyExpansion message)

/-! ### The intended text -/

section Specification

variable (letterOrNumber : ℕ → Bool) (values : OrdMap Text Text)

/-- The text in which each name that has a value is replaced by it, after some units of the
current placeholder have been passed over. The values are not searched again. -/
def replaceNamesFrom : ℕ → Text → Text
  | _, [] => []
  | skip + 1, _ :: rest => replaceNamesFrom skip rest
  | 0, c :: rest =>
    match matchAt letterOrNumber (c :: rest) with
    | none => c :: replaceNamesFrom 0 rest
    | some name =>
      (values.find name).getD (u "\x7b\x7b" ++ name ++ u "\x7d\x7d") ++
        replaceNamesFrom (name.length + 3) rest

/-- A text with its names replaced; one with unpaired surrogates stays as it is. -/
def replaceNames (text : Text) : Text :=
  if isValidUtf16 text then replaceNamesFrom letterOrNumber values 0 text else text

/-! ### Placeholders found -/

lemma codePointAt_eq_some {text : Text} {point length : ℕ}
    (h : codePointAt text = some (point, length)) : 0 < length ∧ length ≤ text.length := by
  match text with
  | [] => simp [codePointAt] at h
  | [c] =>
    simp only [codePointAt, Option.some.injEq, Prod.mk.injEq] at h
    simp [← h.2]
  | c :: d :: rest =>
    simp only [codePointAt] at h
    split_ifs at h <;>
    · simp only [Option.some.injEq, Prod.mk.injEq] at h
      simp only [← h.2, List.length_cons]
      omega

variable {letterOrNumber values}

lemma mem_nameLengths {limit : ℕ} :
    ∀ {text : Text} {length : ℕ}, length ∈ nameLengths letterOrNumber limit text →
      0 < length ∧ length ≤ text.length := by
  induction limit with
  | zero => intro text length h; simp [nameLengths] at h
  | succ limit ih =>
    intro text length h
    rw [nameLengths] at h
    cases hpoint : codePointAt text with
    | none => simp [hpoint] at h
    | some result =>
      obtain ⟨point, units⟩ := result
      have hunits := codePointAt_eq_some hpoint
      simp only [hpoint] at h
      split_ifs at h
      · rcases List.mem_cons.1 h with rfl | h
        · exact hunits
        · obtain ⟨more, hmore, rfl⟩ := List.mem_map.1 h
          have hrest := ih hmore
          rw [List.length_drop] at hrest
          omega
      · cases h

/-- A match is the name in double braces, and the name is not empty. -/
lemma matchAt_eq_some {text name : Text} (h : matchAt letterOrNumber text = some name) :
    name ≠ [] ∧ ∃ rest, text = u "\x7b\x7b" ++ name ++ u "\x7d\x7d" ++ rest := by
  unfold matchAt at h
  split_ifs at h with hopen
  obtain ⟨length, hfind, rfl⟩ := Option.map_eq_some_iff.1 h
  have hmem := mem_nameLengths (List.mem_reverse.1 (List.mem_of_find?_eq_some hfind))
  have hclose : (text.drop (2 + length)).take 2 = u "\x7d\x7d" := by
    simpa using List.find?_some hfind
  refine ⟨List.ne_nil_of_length_pos (by rw [List.length_take]; omega),
    (text.drop (2 + length)).drop 2, ?_⟩
  calc text = text.take 2 ++ text.drop 2 := (List.take_append_drop 2 text).symm
    _ = text.take 2 ++ ((text.drop 2).take length ++ (text.drop 2).drop length) := by
      rw [List.take_append_drop length (text.drop 2)]
    _ = text.take 2 ++ ((text.drop 2).take length ++
          ((text.drop (2 + length)).take 2 ++ (text.drop (2 + length)).drop 2)) := by
      rw [List.drop_drop, List.take_append_drop]
    _ = _ := by rw [hopen, hclose]; simp only [List.append_assoc]

/-- The units of a placeholder. -/
lemma length_placeholder (name : Text) :
    (u "\x7b\x7b" ++ name ++ u "\x7d\x7d").length = name.length + 4 := by
  have hopen : (u "\x7b\x7b").length = 2 := by decide
  have hclose : (u "\x7d\x7d").length = 2 := by decide
  rw [List.length_append, List.length_append, hopen, hclose]
  omega

variable (values) in
/-- The replacement of a match, when its name has a value. -/
def replacementOf (m : Match) : Option (Replacement UInt16) :=
  (values.find m.captured).map fun value => ⟨m.capturedStart, m.capturedLength, value⟩

/-- The replacements of a plan are those of the matches, in order. -/
lemma foldl_planMatch (found : List Match) (plan : QuickReplyExpansionPlan) :
    found.foldl (planMatch values) plan =
      ⟨plan.length + totalGrowth (found.filterMap (replacementOf values)),
        plan.replacements ++ found.filterMap (replacementOf values)⟩ := by
  induction found generalizing plan with
  | nil => simp
  | cons m found ih =>
    rw [List.foldl_cons, ih]
    cases hvalue : values.find m.captured with
    | none => simp [planMatch, replacementOf, hvalue]
    | some value =>
      simp [planMatch, replacementOf, hvalue, growth, add_assoc]

variable (letterOrNumber values) in
/-- The matches follow each other without overlap, inside the text. -/
lemma placed_matchesFrom :
    ∀ (rest : Text) (position skip : ℕ), skip ≤ rest.length →
      Placed (position + skip) (position + rest.length)
        ((matchesFrom letterOrNumber position skip rest).filterMap (replacementOf values))
  | [], position, skip, hskip => by
    simp only [matchesFrom, List.filterMap_nil, Placed]
    omega
  | c :: rest, position, skip + 1, hskip => by
    have h := placed_matchesFrom rest (position + 1) skip (by simpa using hskip)
    rw [matchesFrom, List.length_cons,
      show position + (skip + 1) = position + 1 + skip by omega,
      show position + (rest.length + 1) = position + 1 + rest.length by omega]
    exact h
  | c :: rest, position, 0, _ => by
    have hlast : position + (c :: rest).length = position + 1 + rest.length := by
      rw [List.length_cons]; omega
    rw [matchesFrom, hlast]
    cases hmatch : matchAt letterOrNumber (c :: rest) with
    | none => exact (placed_matchesFrom rest (position + 1) 0 (by omega)).mono (by omega)
    | some name =>
      obtain ⟨_, tail, htail⟩ := matchAt_eq_some hmatch
      have hlength := congrArg List.length htail
      rw [List.length_append, length_placeholder, List.length_cons] at hlength
      have h := placed_matchesFrom rest (position + 1) (name.length + 3) (by omega)
      cases hvalue : values.find name with
      | none =>
        simp only [List.filterMap_cons, replacementOf, hvalue, Option.map_none]
        exact h.mono (by omega)
      | some value =>
        simp only [List.filterMap_cons, replacementOf, hvalue, Option.map_some]
        refine ⟨by simp, by simp, ?_⟩
        simpa only [finish, show position + (name.length + 4) = position + 1 + (name.length + 3)
          by omega] using h

/-! ### The expanded text -/

/-- **The plan gives the intended text.** -/
lemma spliced_matchesFrom {text : Text} :
    ∀ (rest : Text) (position skip : ℕ), skip ≤ rest.length → text.drop position = rest →
      position + rest.length = text.length →
      spliced text (position + skip)
          ((matchesFrom letterOrNumber position skip rest).filterMap (replacementOf values)) =
        replaceNamesFrom letterOrNumber values skip rest
  | [], position, skip, hskip, hdrop, _ => by
    obtain rfl : skip = 0 := by simpa using hskip
    simpa [matchesFrom, replaceNamesFrom, spliced] using hdrop
  | c :: rest, position, skip + 1, hskip, hdrop, hlast => by
    have hdrop' : text.drop (position + 1) = rest := by
      rw [← List.drop_drop, hdrop, List.drop_one, List.tail_cons]
    rw [matchesFrom, replaceNamesFrom, ← spliced_matchesFrom rest (position + 1) skip
      (by simpa using hskip) hdrop' (by rw [← hlast, List.length_cons]; omega),
      show position + (skip + 1) = position + 1 + skip by omega]
  | c :: rest, position, 0, _, hdrop, hlast => by
    have hdrop' : text.drop (position + 1) = rest := by
      rw [← List.drop_drop, hdrop, List.drop_one, List.tail_cons]
    have hlast' : position + 1 + rest.length = text.length := by
      rw [← hlast, List.length_cons]; omega
    rw [matchesFrom, replaceNamesFrom, Nat.add_zero]
    cases hmatch : matchAt letterOrNumber (c :: rest) with
    | none =>
      -- one unit is copied
      have hplaced := placed_matchesFrom letterOrNumber values rest (position + 1) 0 (by omega)
      have ih := spliced_matchesFrom rest (position + 1) 0 (by omega) hdrop' hlast'
      rw [hlast', Nat.add_zero] at hplaced
      rw [Nat.add_zero] at ih
      dsimp only
      rw [spliced_eq_take_append hplaced, hdrop, ih]
      rfl
    | some name =>
      obtain ⟨_, tail, htail⟩ := matchAt_eq_some hmatch
      have hlength := congrArg List.length htail
      rw [List.length_append, length_placeholder, List.length_cons] at hlength
      have ih := spliced_matchesFrom rest (position + 1) (name.length + 3) (by omega) hdrop' hlast'
      have hplaced := placed_matchesFrom letterOrNumber values rest (position + 1)
        (name.length + 3) (by omega)
      have hnext : position + 1 + (name.length + 3) = position + (name.length + 4) := by omega
      rw [hlast', hnext] at hplaced
      rw [hnext] at ih
      dsimp only
      cases hvalue : values.find name with
      | none =>
        -- a placeholder without a value is copied
        have htake : (c :: rest).take (name.length + 4) =
            u "\x7b\x7b" ++ name ++ u "\x7d\x7d" := by
          rw [htail, ← length_placeholder, List.take_left]
        simp only [List.filterMap_cons, replacementOf, hvalue, Option.map_none, Option.getD_none]
        rw [← ih, spliced_eq_take_append hplaced, hdrop, htake]
      | some value =>
        simp only [List.filterMap_cons, replacementOf, hvalue, Option.map_some, Option.getD_some]
        rw [spliced, Nat.sub_self, List.take_zero, List.nil_append]
        congr 1

lemma placed_globalMatch (text : Text) :
    Placed 0 text.length
      ((globalMatch letterOrNumber text).filterMap (replacementOf values)) := by
  unfold globalMatch
  split
  · simpa using placed_matchesFrom letterOrNumber values text 0 0 (Nat.zero_le _)
  · exact Nat.zero_le _

lemma spliced_globalMatch (text : Text) :
    spliced text 0 ((globalMatch letterOrNumber text).filterMap (replacementOf values)) =
      replaceNames letterOrNumber values text := by
  unfold globalMatch replaceNames
  split
  · exact spliced_matchesFrom text 0 0 (Nat.zero_le _) rfl (Nat.zero_add _)
  · rfl

end Specification

/-! ### Positions stay in range -/

lemma asInt32_eq_some {n : ℤ} (hlow : -2 ^ 31 ≤ n) (hhigh : n < 2 ^ 31) : asInt32 n = some n :=
  if_pos ⟨hlow, hhigh⟩

lemma asPosition_eq_some {n : ℤ} (hlow : 0 ≤ n) (hhigh : n < 2 ^ 31) : asPosition n = some n :=
  if_pos ⟨hlow, hhigh⟩

/-- A replacement and the rest of the list are no longer than the new list. -/
lemma text_length_le {rs : List (Replacement UInt16)} {first last : ℕ}
    (h : Placed first last rs) : ∀ r ∈ rs, (r.text.length : ℤ) ≤ last - first + totalGrowth rs := by
  induction rs generalizing first with
  | nil => intro r hr; cases hr
  | cons s rs ih =>
    intro r hr
    have hgrown := h.2.2.first_le_grown
    have hfirst := h.1
    rw [totalGrowth_cons]
    rcases List.mem_cons.1 hr with rfl | hr
    · simp only [finish, growth] at *; omega
    · have hrest := ih h.2.2 r hr
      simp only [finish, growth] at *; omega

/-- **The pieces** are put together to the new list, and every position fits. -/
lemma appendPieces_eq_some {text : Text} (hlength : text.length < 2 ^ 31)
    {rs : List (Replacement UInt16)} {first : ℕ} (h : Placed first text.length rs)
    (result : Text) : appendPieces text rs first result = some (result ++ spliced text first rs) := by
  induction rs generalizing first result with
  | nil => simp [appendPieces, spliced]
  | cons r rs ih =>
    have hfirst := h.1
    have hfinish := h.2.2.first_le
    simp only [finish] at hfinish
    have hrest := ih h.2.2 (result ++ (text.drop first).take (r.start - first) ++ r.text)
    have hcast : (r.start : ℤ) - first = ((r.start - first : ℕ) : ℤ) := by omega
    rw [appendPieces, hcast, asPosition_eq_some (by omega) (by omega),
      asPosition_eq_some (by omega) (by omega), spliced]
    simp only [finish, Nat.cast_add, Option.bind_eq_bind, Option.bind_some,
      Int.toNat_natCast] at hrest ⊢
    rw [hrest]
    simp only [List.append_assoc]

/-- **An end of a range** is mapped without overflow. -/
lemma mapPosition_eq_some {bound : ℤ} (hbound : bound < 2 ^ 31) (atEnd : Bool)
    {rs : List (Replacement UInt16)} {first last : ℕ} (h : Placed first last rs)
    (hlast : (last : ℤ) ≤ bound) (shift position : ℤ) (hshift : 0 ≤ first + shift)
    (hgrown : last + totalGrowth rs + shift ≤ bound) (hposition : first ≤ position)
    (hposition' : position ≤ last) :
    mapPosition atEnd rs shift position = some (mapped atEnd rs position + shift) := by
  induction rs generalizing first shift with
  | nil =>
    rw [totalGrowth_nil] at hgrown
    exact asPosition_eq_some (by omega) (by omega)
  | cons r rs ih =>
    have hfirst := h.1
    have hlength := h.2.1
    have hrest := h.2.2.first_le_grown
    have hle := h.2.2.first_le
    have htext := text_length_le h r List.mem_cons_self
    rw [totalGrowth_cons] at hgrown htext
    simp only [finish, growth] at hrest hgrown htext hle
    rw [mapPosition, mapped]
    by_cases hbefore : position ≤ r.start
    · rw [if_pos hbefore, if_pos hbefore]
      exact asPosition_eq_some (by omega) (by omega)
    have hend : asPosition ((r.start : ℤ) + r.length) = some (r.finish : ℤ) := by
      rw [asPosition_eq_some (by omega) (by omega)]
      simp only [finish, Nat.cast_add]
    rw [if_neg hbefore, if_neg hbefore, hend, Option.bind_eq_bind, Option.bind_some]
    by_cases hinside : position < r.finish
    · rw [if_pos hinside, if_pos hinside, asPosition_eq_some (by omega) (by omega),
        Option.bind_some]
      cases atEnd with
      | false =>
        simp only [Bool.false_eq_true, if_false, Option.bind_some]
        rw [asPosition_eq_some (by omega) (by omega), add_right_comm]
      | true =>
        simp only [if_true]
        rw [asInt32_eq_some (by omega) (by omega)]
        simp only [Option.bind_some]
        rw [asPosition_eq_some (by omega) (by omega), add_right_comm]
    · have hmapped := ih h.2.2 (shift + r.growth) (by simp only [finish, growth]; omega)
        (by simp only [growth]; omega) (not_lt.1 hinside)
      rw [if_neg hinside, if_neg hinside, asInt32_eq_some (by omega) (by omega), Option.bind_some,
        asInt32_eq_some (by omega) (by omega), Option.bind_some,
        asInt32_eq_some (by omega) (by omega), Option.bind_some]
      simp only [growth] at hmapped ⊢
      rw [hmapped, Option.some.injEq]
      omega

/-! ### Text and formatting in step -/

/-- Whether a position lies in a formatted range. -/
def EntityInText.Contains (e : EntityInText) (position : ℤ) : Prop :=
  e.offset ≤ position ∧ position < e.offset + e.length

/-- Whether a formatted range overlaps a replaced part of the text. -/
def EntityInText.Overlaps (e : EntityInText) (r : Replacement UInt16) : Prop :=
  e.offset < r.finish ∧ (r.start : ℤ) < e.offset + e.length

/-- Whether a position is formatted by a range that may have been dropped. -/
def Covers (image : Option EntityInText) (position : ℤ) : Prop :=
  ∃ e, image = some e ∧ e.Contains position

/-- The image of a formatted range follows the text: it is of the same kind, it covers a moved
unit exactly when the range contained the unit, and a replacement exactly when the range
overlapped its placeholder; it is dropped exactly when there is nothing it would cover. -/
structure Follows (text : Text) (rs : List (Replacement UInt16)) (e : EntityInText)
    (image : Option EntityInText) : Prop where
  kind : ∀ e', image = some e' → e'.type = e.type ∧ e'.data = e.data
  kept : ∀ i < text.length, Kept rs i → (Covers image (moved rs i) ↔ e.Contains i)
  placed : ∀ r ∈ rs, ∀ k < r.text.length, Covers image (moved rs r.start + k) ↔ e.Overlaps r
  dropped : image = none ↔
    (∀ i < text.length, Kept rs i → ¬ e.Contains i) ∧ ∀ r ∈ rs, e.Overlaps r → r.text = []

/-- **Text and formatting in step.** The text is the intended one, of the planned length and
within the maximum; its units come from the kept units and from the replacements; every
formatted range is valid for it, and is the image of an old one that follows the text. -/
structure InStep (letterOrNumber : ℕ → Bool) (validForText : EntityInText → ℤ → Bool)
    (values : OrdMap Text Text) (maximum : Int32) (message : TextWithEntities)
    (plan : QuickReplyExpansionPlan) (result : TextWithEntities) : Prop where
  replacements : plan.replacements =
    (globalMatch letterOrNumber message.text).filterMap (replacementOf values)
  text : result.text = replaceNames letterOrNumber values message.text
  planned : (result.text.length : ℤ) = plan.length
  fits : plan.length ≤ maximum.toInt
  keptText : ∀ i < message.text.length, Kept plan.replacements i →
    0 ≤ moved plan.replacements i ∧
      result.text[(moved plan.replacements i).toNat]? = message.text[i]?
  placedText : ∀ r ∈ plan.replacements, 0 ≤ moved plan.replacements r.start ∧
    ∀ k < r.text.length, result.text[(moved plan.replacements r.start + k).toNat]? = r.text[k]?
  valid : ∀ e ∈ result.entities, validForText e result.text.length = true
  formatting : ∃ image : EntityInText → Option EntityInText,
    result.entities = message.entities.filterMap image ∧
      ∀ e ∈ message.entities, Follows message.text plan.replacements e (image e)

/-- The image of a formatted range. -/
def imageOf (rs : List (Replacement UInt16)) (e : EntityInText) : Option EntityInText :=
  if mapped false rs e.offset < mapped true rs (e.offset + e.length) then
    some ⟨e.type, mapped false rs e.offset,
      mapped true rs (e.offset + e.length) - mapped false rs e.offset, e.data⟩
  else none

lemma covers_imageOf_iff {rs : List (Replacement UInt16)} {e : EntityInText} {position : ℤ} :
    Covers (imageOf rs e) position ↔
      mapped false rs e.offset ≤ position ∧
        position < mapped true rs (e.offset + e.length) := by
  constructor
  · rintro ⟨e', himage, hlow, hhigh⟩
    unfold imageOf at himage
    split_ifs at himage
    cases himage
    exact ⟨hlow, by simpa using hhigh⟩
  · rintro ⟨hlow, hhigh⟩
    exact ⟨_, if_pos (hlow.trans_lt hhigh), hlow, by simpa using hhigh⟩

/-- **The image follows the text.** -/
lemma follows_imageOf {text : Text} {rs : List (Replacement UInt16)}
    (h : Placed 0 text.length rs) {e : EntityInText} (hoffset : 0 ≤ e.offset)
    (hlast : e.offset + e.length ≤ text.length) : Follows text rs e (imageOf rs e) := by
  have hkept : ∀ i : ℕ, Kept rs i → (Covers (imageOf rs e) (moved rs i) ↔ e.Contains i) := by
    intro i hi
    rw [covers_imageOf_iff, mapped_le_moved_iff h hi, moved_lt_mapped_iff h hi]
    rfl
  have hplaced : ∀ r ∈ rs, ∀ k < r.text.length,
      (Covers (imageOf rs e) (moved rs r.start + k) ↔ e.Overlaps r) := by
    intro r hr k hk
    rw [covers_imageOf_iff, mapped_le_placed_iff h r hr k hk, placed_lt_mapped_iff h r hr k hk]
    rfl
  refine ⟨fun e' he' => ?_, fun i _ => hkept i, hplaced, ?_⟩
  · unfold imageOf at he'
    split_ifs at he'
    cases he'
    exact ⟨rfl, rfl⟩
  constructor
  · intro hnone
    have hcovers : ∀ position, ¬ Covers (imageOf rs e) position := by
      rintro position ⟨e', he', _⟩
      rw [hnone] at he'
      cases he'
    refine ⟨fun i _ hi hin => hcovers _ ((hkept i hi).2 hin), fun r hr hover => ?_⟩
    by_contra hne
    exact hcovers _ ((hplaced r hr 0 (List.length_pos_of_ne_nil hne)).2 hover)
  · rintro ⟨hnotKept, hnotPlaced⟩
    by_contra hsome
    obtain ⟨e', he'⟩ := Option.ne_none_iff_exists'.1 hsome
    -- the first position of the image has a source
    have hlt : mapped false rs e.offset < mapped true rs (e.offset + e.length) := by
      unfold imageOf at he'
      split_ifs at he' with hlt
      exact hlt
    have hcovers := covers_imageOf_iff.2 ⟨le_refl (mapped false rs e.offset), hlt⟩
    rcases exists_source h (p := mapped false rs e.offset)
        (h.le_mapped false (by simpa using hoffset)) (hlt.trans_le (h.mapped_le true hlast)) with
      ⟨i, _, hi, hkeptI, hmoved⟩ | ⟨r, hr, k, hk, hmoved⟩
    · rw [← hmoved] at hcovers
      exact hnotKept i hi hkeptI ((hkept i hkeptI).1 hcovers)
    · rw [← hmoved] at hcovers
      rw [hnotPlaced r hr ((hplaced r hr k hk).1 hcovers)] at hk
      cases hk

/-- **A formatted range** is mapped to its image without overflow. -/
lemma mapEntity_eq_some {plan : QuickReplyExpansionPlan} {size : ℕ} {bound : ℤ}
    (hbound : bound < 2 ^ 31) (h : Placed 0 size plan.replacements) (hsize : (size : ℤ) ≤ bound)
    (hgrown : size + totalGrowth plan.replacements ≤ bound) {e : EntityInText}
    (hoffset : 0 ≤ e.offset) (hlength : 0 ≤ e.length) (hlast : e.offset + e.length ≤ size) :
    mapEntity plan e = some (imageOf plan.replacements e) := by
  have hstart := mapPosition_eq_some hbound false h hsize 0 e.offset
    (by simp) (by omega) (by simpa using hoffset) (by omega)
  have hfinish := mapPosition_eq_some hbound true h hsize 0 (e.offset + e.length)
    (by simp) (by omega) (by simp; omega) hlast
  have hlow := h.le_mapped false (p := e.offset) (by simpa using hoffset)
  have hhigh := h.mapped_le true hlast
  unfold mapEntity imageOf
  rw [hstart, asPosition_eq_some (by omega) (by omega)]
  simp only [Option.bind_eq_bind, Option.bind_some, hfinish, add_zero]
  split_ifs with hlt
  · rw [asPosition_eq_some (by omega) (by omega)]
    rfl
  · rfl

lemma mapM_eq_some {α β : Type} {f : α → Option β} {g : α → β} {l : List α}
    (h : ∀ x ∈ l, f x = some (g x)) : l.mapM f = some (l.map g) := by
  induction l with
  | nil => rfl
  | cons x l ih =>
    rw [List.mapM_cons, h x List.mem_cons_self, ih fun y hy => h y (List.mem_cons_of_mem _ hy)]
    rfl

/-- What a plan that was accepted contains. -/
lemma planQuickReplyExpansion_eq_ok {letterOrNumber : ℕ → Bool}
    {validForText : EntityInText → ℤ → Bool} {message : TextWithEntities}
    {values : OrdMap Text Text} {maximum : Int32} {plan : QuickReplyExpansionPlan}
    (h : planQuickReplyExpansion letterOrNumber validForText message values maximum = .ok plan) :
    (message.text.length : ℤ) ≤ maximum.toInt ∧
      (∀ e ∈ message.entities, validForText e message.text.length = true) ∧
      plan.replacements =
        (globalMatch letterOrNumber message.text).filterMap (replacementOf values) ∧
      plan.length = message.text.length + totalGrowth plan.replacements ∧
      plan.length ≤ maximum.toInt := by
  unfold planQuickReplyExpansion at h
  split_ifs at h with hlong hvalid
  dsimp only at h
  split_ifs at h with hlong'
  cases h
  rw [foldl_planMatch] at hlong' ⊢
  refine ⟨not_lt.1 hlong, fun e he => ?_, List.nil_append _, ?_, not_lt.1 hlong'⟩
  · by_contra hinvalid
    exact hvalid (List.any_eq_true.2 ⟨e, he, by simpa using hinvalid⟩)
  · rw [List.nil_append]

/-- **Variable expansion keeps text and formatting in step.** Whenever a reply is expanded, no
position overflows or gets negative, and text and formatting of the result are in step.

**Proof sketch.** The matches of a text follow each other without overlap, so the general facts
on replaced parts of a list apply: the pieces put together are the spliced list, which is the
intended text by induction on the rest of the text, and the ends of the formatted ranges keep
their order with kept units and replacements. The growth of the replacements passed so far is
never below minus the text passed, and what remains grows the whole to at most the maximum, so
every position fits. -/
theorem expandQuickReplyChecked_inStep (letterOrNumber : ℕ → Bool)
    {validForText : EntityInText → ℤ → Bool} (hcheck : RangeCheck validForText)
    (message : TextWithEntities) (values : OrdMap Text Text) (maximum : Int32)
    {outcome : Option TextWithEntities}
    (h : expandQuickReplyChecked letterOrNumber validForText message values maximum =
      .ok outcome) :
    ∃ plan result,
      planQuickReplyExpansion letterOrNumber validForText message values maximum = .ok plan ∧
      outcome = some result ∧
      InStep letterOrNumber validForText values maximum message plan result := by
  unfold expandQuickReplyChecked at h
  cases hplan : planQuickReplyExpansion letterOrNumber validForText message values maximum with
  | error e => rw [hplan] at h; cases h
  | ok plan =>
    rw [hplan] at h
    cases h
    obtain ⟨hsize, hvalid, hreplacements, hlength, hfits⟩ := planQuickReplyExpansion_eq_ok hplan
    have hmax := maximum.toInt_lt
    have hplaced : Placed 0 message.text.length plan.replacements :=
      hreplacements ▸ placed_globalMatch message.text
    have htext : appendPieces message.text plan.replacements 0 [] =
        some (spliced message.text 0 plan.replacements) := by
      simpa using appendPieces_eq_some (by omega) hplaced []
    have hentities : message.entities.mapM (mapEntity plan) =
        some (message.entities.map (imageOf plan.replacements)) := by
      refine mapM_eq_some fun e he => ?_
      obtain ⟨hoffset, hnonneg, hlast⟩ := hcheck.inside (hvalid e he)
      exact mapEntity_eq_some hmax hplaced hsize (by omega) hoffset hnonneg hlast
    have hspliced : ((spliced message.text 0 plan.replacements).length : ℤ) = plan.length := by
      rw [length_spliced hplaced, hlength]
      omega
    refine ⟨plan, ⟨spliced message.text 0 plan.replacements,
      message.entities.filterMap (imageOf plan.replacements)⟩, rfl, ?_, hreplacements, ?_,
      hspliced, hfits, ?_, ?_, ?_, imageOf plan.replacements, rfl, ?_⟩
    · unfold applyQuickReplyExpansion
      rw [htext, hentities]
      show some (TextWithEntities.mk _ ((message.entities.map _).filterMap id)) = _
      rw [List.filterMap_map]
      rfl
    · rw [hreplacements]
      exact spliced_globalMatch message.text
    · intro i hi hkept
      have hget := getElem?_spliced_moved hplaced (Nat.zero_le i) hi hkept
      have hle := hplaced.le_moved (Nat.zero_le i) hkept
      exact ⟨by simpa using hle, by simpa using hget⟩
    · intro r hr
      have hle := hplaced.le_moved_start r hr
      refine ⟨by simpa using hle, fun k hk => ?_⟩
      simpa using getElem?_spliced_placed hplaced r hr k hk
    · intro e' he'
      obtain ⟨e, he, himage⟩ := List.mem_filterMap.1 he'
      obtain ⟨hoffset, -, hlast⟩ := hcheck.inside (hvalid e he)
      have hlow := hplaced.le_mapped false (p := e.offset) (by simpa using hoffset)
      have hhigh := hplaced.mapped_le true hlast
      unfold imageOf at himage
      split_ifs at himage with hlt
      cases himage
      exact hcheck.accepts (hvalid e he) (by simpa using hlow) (by omega) (by
        rw [hspliced, hlength]; omega)
    · intro e he
      obtain ⟨hoffset, -, hlast⟩ := hcheck.inside (hvalid e he)
      exact follows_imageOf hplaced hoffset hlast

/-- A check of formatted ranges: they lie in the text and are not empty. -/
def liesInText (e : EntityInText) (size : ℤ) : Bool :=
  decide (0 ≤ e.offset ∧ 0 < e.length ∧ e.offset + e.length ≤ size)

lemma rangeCheck_liesInText : RangeCheck liesInText where
  inside h := by
    simp only [liesInText, decide_eq_true_eq] at h
    omega
  accepts _ := by
    intro offset length size' hoffset hlength hlast
    simpa [liesInText] using ⟨hoffset, hlength, hlast⟩

/-- The letters and digits of the ASCII range. -/
def isAsciiLetterOrNumber (point : ℕ) : Bool :=
  0x30 ≤ point && point ≤ 0x39 || 0x41 ≤ point && point ≤ 0x5A || 0x61 ≤ point && point ≤ 0x7A

/-- A greeting with a bold name and an italic exclamation mark is expanded. -/
theorem expandQuickReplyChecked_inStep_greeting :
    ∃ plan result,
      planQuickReplyExpansion isAsciiLetterOrNumber liesInText
          ⟨u "Hi \x7b\x7bname\x7d\x7d!", [⟨.bold, 5, 4, []⟩, ⟨.italic, 11, 1, []⟩]⟩
          ((∅ : OrdMap Text Text).insert (u "name") (u "Ann")) 4096 = .ok plan ∧
      some (⟨u "Hi Ann!", [⟨.bold, 3, 3, []⟩, ⟨.italic, 6, 1, []⟩]⟩ : TextWithEntities) =
        some result ∧
      InStep isAsciiLetterOrNumber liesInText
        ((∅ : OrdMap Text Text).insert (u "name") (u "Ann")) 4096
        ⟨u "Hi \x7b\x7bname\x7d\x7d!", [⟨.bold, 5, 4, []⟩, ⟨.italic, 11, 1, []⟩]⟩ plan result :=
  expandQuickReplyChecked_inStep isAsciiLetterOrNumber rangeCheck_liesInText _ _ _ (by rfl)

end QuickReplies
