import Mathlib.Algebra.Order.BigOperators.Group.List
import Telegravim.LocalData.TransferParser

set_option autoImplicit false

/-!
# Pieces of a transfer package

The parser may be given a package in any pieces: where they are cut changes neither whether the package is
accepted, nor the status, nor what is inspected. This needs that pieces have a size below `2 ^ 31`, because
the cipher takes a size as a 32-bit integer; the program reads pieces of 256 KiB. A run after which the
parser is finished has used exactly one package: a header, a manifest and the files that the manifest lists,
each with its hash.

## Main definitions

* `LocalTransfer.Surroundings.Documented` — what is known of the cipher and of files.
* `LocalTransfer.Opening`, `Progress` — the beginning of a package, and how far it was read.

## Main results

* `LocalTransfer.consume_append` — a piece may be cut in two.
* `LocalTransfer.consume_progress` — what was read is a part of a package.
* `LocalTransfer.feed_package` — the pieces do not matter, and a finished run is a complete package.
* `LocalTransfer.two_pieces_ne_whole` — pieces that are too large do matter.
-/

namespace LocalTransfer

open Text LocalData Chunks

variable {κ : Type} {env : Surroundings κ} {s s' : Parser κ} {input input' : Bytes}

/-! ### One piece -/

lemma consume_of_not_goesOn (h : s.goesOn input = false) : consume env s input = .ok s := by
  rw [consume, dif_neg (by simp [h])]

lemma consume_cancelled (hgoes : s.goesOn input) (h : env.cancelled) :
    consume env s input = .error (cancelFault, s) := by
  rw [consume, dif_pos hgoes, if_pos h]

section

variable (hgoes : s.goesOn input) (hcancel : ¬ env.cancelled)

include hgoes hcancel

lemma consume_error {failed : Fault × Parser κ} (h : turn env s input = .error failed) :
    consume env s input = .error failed := by
  rw [consume, dif_pos hgoes, if_neg hcancel]
  split <;> simp_all

lemma consume_stop (h : turn env s input = .ok (.stop s')) : consume env s input = .ok s' := by
  rw [consume, dif_pos hgoes, if_neg hcancel]
  split <;> simp_all

lemma consume_more (h : turn env s input = .ok (.more s' input')) :
    consume env s input = consume env s' input' := by
  rw [consume, dif_pos hgoes, if_neg hcancel]
  split <;> simp_all

end

lemma goesOn_of_ne_nil (h : input ≠ []) : s.goesOn input := by
  cases input with
  | nil => exact absurd rfl h
  | cons b rest => simp [Parser.goesOn]

lemma goesOn_append (h : s.goesOn input) (rest : Bytes) : s.goesOn (input ++ rest) := by
  unfold Parser.goesOn at h ⊢
  cases input with
  | nil =>
    cases rest with
    | nil => exact h
    | cons b rest => simp
  | cons b input => simp

lemma goesOn_of_not_loaded (h : s.loaded = false) : s.goesOn [] = false := by
  simp [Parser.goesOn, h]

lemma goesOn_of_remaining (h : s.remaining ≠ 0) : s.goesOn [] = false := by
  simp [Parser.goesOn, h]

/-- The piece is used up only before the manifest is loaded. -/
lemma turn_stop (h : turn env s input = .ok (.stop s')) :
    s.loaded = false ∧ s' = { s with buffer := s.buffer ++ input.take (s.wanted - s.buffer.length) } ∧
      s'.buffer.length < s.wanted := by
  unfold turn at h
  split_ifs at h with hloaded hfinished hremaining
  · unfold turnManifest at h
    simp only [take_min_length, drop_min_length] at h
    split_ifs at h with hlength hsize hmagic hmin
    · obtain rfl := Turn.stop.inj (Except.ok.inj h)
      exact ⟨by simpa using hloaded, rfl, hlength⟩
    · cases Except.ok.inj h
    · exact absurd h (map_more_ne_stop _ _)
  · exact absurd h (map_more_ne_stop _ _)
  · rw [turnEntry_eq] at h
    exact absurd h (map_more_ne_stop _ _)

/-- After a piece no file is complete. -/
lemma consume_ready (h : consume env s input = .ok s') : s'.goesOn [] = false := by
  fun_induction consume env s input with
  | case1 s input hgoes hcancel => cases h
  | case2 s input hgoes hcancel failed hturn => cases h
  | case3 s input hgoes hcancel t hturn =>
    obtain rfl := Except.ok.inj h
    obtain ⟨hloaded, rfl, -⟩ := turn_stop hturn
    exact goesOn_of_not_loaded hloaded
  | case4 s input hgoes hcancel t input' hturn ih => exact ih h
  | case5 s input hgoes =>
    obtain rfl := Except.ok.inj h
    by_contra hcon
    simp only [Bool.not_eq_false] at hcon
    exact hgoes (by simpa using goesOn_append hcon input)

/-! ### Cutting a piece in two -/

/-- **What is known of the cipher and of files.** A cipher that works on a stream, such as this one, gives
the same for two parts as for both together, if their size is one it can be told; a file that can be written
can be written up to any point. -/
structure Surroundings.Documented (env : Surroundings κ) : Prop where
  update_append : ∀ c first second, (first ++ second).length < 2 ^ 31 →
    env.cipherUpdate c (first ++ second) (first ++ second).length =
      (env.cipherUpdate c first first.length).bind fun r =>
        (env.cipherUpdate r.1 second second.length).map fun r' => (r'.1, r.2 ++ r'.2)
  holds_append : ∀ number first second, env.holds number (first ++ second) → env.holds number first

/-- What is compared of a failure: the status and what was inspected. -/
def seen (failed : Fault × Parser κ) : Fault × Inspection := (failed.1, failed.2.result)

lemma asInt_eq {n : ℕ} (h : n < 2 ^ 31) : asInt n = n := by
  unfold asInt
  rw [Int.bmod_eq_of_le] <;> omega

/-- Two parts are encrypted as both together. -/
lemma crypt_append (henv : env.Documented) (cipher : Option κ) {first second : Bytes}
    (hsmall : (first ++ second).length < 2 ^ 31) :
    crypt env cipher (first ++ second) = (crypt env cipher first).bind fun r =>
      (crypt env (some r.1) second).map fun r' => (r'.1, r.2 ++ r'.2) := by
  have hlength : (first ++ second).length = first.length + second.length := List.length_append
  cases cipher with
  | none => rfl
  | some c =>
    simp only [crypt, Option.bind_some]
    rw [asInt_eq hsmall, asInt_eq (n := first.length) (by omega),
      asInt_eq (n := second.length) (by omega)]
    exact henv.update_append c first second hsmall

/-- **A part of a file may be cut in two.** -/
lemma readPart_append (henv : env.Documented) (s : Parser κ) {first second : Bytes}
    (hsmall : (first ++ second).length < 2 ^ 31) :
    observe seen (readPart env s (first ++ second)) =
      observe seen (readPart env s first >>= fun t => readPart env t second) := by
  have hleft : s.remaining - (first ++ second).length =
      s.remaining - first.length - second.length := by
    rw [List.length_append, Nat.sub_sub]
  cases hasset : s.asset with
  | none =>
    simp only [readPart, hasset, Except.ok_bind, hleft, List.append_assoc]
  | some file =>
    simp only [readPart, hasset, crypt_append henv s.cipher hsmall]
    cases hfirst : crypt env s.cipher first with
    | none => rfl
    | some r =>
      obtain ⟨c, encrypted⟩ := r
      dsimp only [Option.bind_some]
      by_cases hholds : env.holds file.number (file.content ++ encrypted)
      · rw [if_pos hholds]
        simp only [Except.ok_bind]
        cases hsecond : crypt env (some c) second with
        | none => rfl
        | some r' =>
          simp only [Option.map_some, hleft, List.append_assoc]
          split <;> rfl
      · rw [if_neg hholds]
        have hlonger : ∀ more, ¬ env.holds file.number (file.content ++ (encrypted ++ more)) := by
          intro more hmore
          rw [← List.append_assoc] at hmore
          exact hholds (henv.holds_append _ _ _ hmore)
        cases hsecond : crypt env (some c) second with
        | none => rfl
        | some r' =>
          simp only [Option.map_some, if_neg (hlonger r'.2)]
          rfl

lemma not_finished_of_remaining (h : s.remaining ≠ 0) : s.finished = false := by
  simp [Parser.finished, h]

lemma turn_of_not_loaded (h : s.loaded = false) (input : Bytes) :
    turn env s input = turnManifest env s input := by
  simp [turn, h]

lemma turn_of_remaining (hloaded : s.loaded = true) (hremaining : s.remaining ≠ 0)
    (input : Bytes) : turn env s input = turnEntry env s input := by
  simp [turn, hloaded, hremaining, not_finished_of_remaining hremaining]

/-- Inside a file, a part of it is read first. -/
lemma consume_part (hcancel : ¬ env.cancelled) (hloaded : s.loaded = true)
    (hremaining : s.remaining ≠ 0) (hinput : input ≠ []) :
    consume env s input = readPart env s (input.take s.remaining) >>= fun t =>
      consume env t (input.drop s.remaining) := by
  have hturn : turn env s input = turnEntry env s input := turn_of_remaining hloaded hremaining input
  rw [turnEntry_eq] at hturn
  cases hread : readPart env s (input.take s.remaining) with
  | error failed =>
    rw [hread] at hturn
    exact consume_error (goesOn_of_ne_nil hinput) hcancel hturn
  | ok t =>
    rw [hread] at hturn
    exact consume_more (goesOn_of_ne_nil hinput) hcancel hturn

/-- States with the same turn go on in the same way. -/
lemma consume_congr (hcancel : ¬ env.cancelled) (hgoes : s.goesOn input) (hgoes' : s'.goesOn input')
    (h : turn env s input = turn env s' input') : consume env s input = consume env s' input' := by
  cases hturn : turn env s input with
  | error failed =>
    rw [consume_error hgoes hcancel hturn, consume_error hgoes' hcancel (h ▸ hturn)]
  | ok next =>
    cases next with
    | stop t => rw [consume_stop hgoes hcancel hturn, consume_stop hgoes' hcancel (h ▸ hturn)]
    | more t rest => rw [consume_more hgoes hcancel hturn, consume_more hgoes' hcancel (h ▸ hturn)]

/-- More input after a turn. -/
def Turn.extend (rest : Bytes) : Turn κ → Turn κ
  | .stop s => .stop s
  | .more s input => .more s (input ++ rest)

lemma map_more_extend (r : Parsed κ (Parser κ)) (input rest : Bytes) :
    ((r.map fun s => Turn.more s input).map (Turn.extend rest)) =
      r.map fun s => Turn.more s (input ++ rest) := by
  cases r <;> rfl

/-- A turn that ends before the piece does is the same with more input. -/
lemma turn_append_of_le (first second : Bytes)
    (hloaded : s.loaded = false → s.wanted ≤ s.buffer.length + first.length)
    (hremaining : s.loaded = true → s.remaining ≤ first.length) :
    turn env s (first ++ second) = (turn env s first).map (Turn.extend second) := by
  unfold turn
  split_ifs with hload hfinished hrem
  · have hle := hloaded (by simpa using hload)
    have htake : (first ++ second).take (s.wanted - s.buffer.length) =
        first.take (s.wanted - s.buffer.length) := List.take_append_of_le_length (by omega)
    have hdrop : (first ++ second).drop (s.wanted - s.buffer.length) =
        first.drop (s.wanted - s.buffer.length) ++ second := List.drop_append_of_le_length (by omega)
    have hlength : ¬ (s.buffer ++ first.take (s.wanted - s.buffer.length)).length < s.wanted := by
      rw [List.length_append, List.length_take]
      omega
    unfold turnManifest
    simp only [take_min_length, drop_min_length, htake, hdrop, if_neg hlength]
    split_ifs
    · rfl
    · rfl
    · rfl
    · exact (map_more_extend _ _ _).symm
  · rfl
  · exact (map_more_extend _ _ _).symm
  · have hle := hremaining (by simpa using hload)
    rw [turnEntry_eq, turnEntry_eq, map_more_extend, List.take_append_of_le_length hle,
      List.drop_append_of_le_length hle]

/-- A turn that collects the whole piece. -/
lemma turnManifest_of_lt (first : Bytes) (h : s.buffer.length + first.length < s.wanted) :
    turnManifest env s first = .ok (.stop { s with buffer := s.buffer ++ first }) := by
  have hlength : (s.buffer ++ first).length < s.wanted := by rwa [List.length_append]
  unfold turnManifest
  simp only [take_min_length]
  rw [List.take_of_length_le (by omega : first.length ≤ s.wanted - s.buffer.length), if_pos hlength]

/-- What is collected in one piece may be collected in two. -/
lemma turnManifest_append (first second : Bytes) (h : s.buffer.length + first.length < s.wanted) :
    turnManifest env s (first ++ second) =
      turnManifest env { s with buffer := s.buffer ++ first } second := by
  have hwanted : ({ s with buffer := s.buffer ++ first } : Parser κ).wanted = s.wanted := rfl
  have hsub : s.wanted - (s.buffer ++ first).length = s.wanted - s.buffer.length - first.length := by
    rw [List.length_append, Nat.sub_sub]
  have htake : (first ++ second).take (s.wanted - s.buffer.length) =
      first ++ second.take (s.wanted - s.buffer.length - first.length) := by
    rw [List.take_append, List.take_of_length_le (by omega)]
  have hdrop : (first ++ second).drop (s.wanted - s.buffer.length) =
      second.drop (s.wanted - s.buffer.length - first.length) := by
    rw [List.drop_append, List.drop_of_length_le (by omega), List.nil_append]
  unfold turnManifest
  simp only [take_min_length, drop_min_length, hwanted, hsub, htake, hdrop, List.append_assoc]

/-- Input that is left after a turn is no longer than before. -/
lemma turn_length_le (h : turn env s input = .ok (.more s' input')) :
    input'.length ≤ input.length := by
  cases turn_moves h <;> simp

/-- Collecting a piece in two. -/
lemma consume_append_collecting (hcancel : ¬ env.cancelled) {first second : Bytes}
    (hfirst : s.goesOn first) (hsecond : second ≠ []) (hloaded : s.loaded = false)
    (h : s.buffer.length + first.length < s.wanted) :
    consume env s (first ++ second) = consume env s first >>= fun t => consume env t second := by
  have hturn : turn env s first = .ok (.stop { s with buffer := s.buffer ++ first }) := by
    rw [turn_of_not_loaded hloaded, turnManifest_of_lt first h]
  rw [consume_stop hfirst hcancel hturn, Except.ok_bind]
  refine consume_congr hcancel (goesOn_append hfirst second) (goesOn_of_ne_nil hsecond) ?_
  rw [turn_of_not_loaded hloaded, turnManifest_append first second h]
  exact (turn_of_not_loaded (s := { s with buffer := s.buffer ++ first }) hloaded second).symm

/-- Reading a part of a file in two. -/
lemma consume_append_inside (henv : env.Documented) (hcancel : ¬ env.cancelled)
    {first second : Bytes} (hfirst : first ≠ []) (hsecond : second ≠ [])
    (hsmall : (first ++ second).length < 2 ^ 31) (hloaded : s.loaded = true)
    (h : first.length < s.remaining) :
    observe seen (consume env s (first ++ second)) =
      observe seen (consume env s first >>= fun t => consume env t second) := by
  have hremaining : s.remaining ≠ 0 := by omega
  have htake : (first ++ second).take s.remaining =
      first ++ second.take (s.remaining - first.length) := by
    rw [List.take_append, List.take_of_length_le h.le]
  have hdrop : (first ++ second).drop s.remaining = second.drop (s.remaining - first.length) := by
    rw [List.drop_append, List.drop_of_length_le h.le, List.nil_append]
  have hlength : (first ++ second.take (s.remaining - first.length)).length < 2 ^ 31 := by
    have hle := List.length_take_le' (s.remaining - first.length) second
    rw [List.length_append] at hsmall ⊢
    omega
  -- after the first part the loop stops inside the file, and the second part goes on there
  have hstop : (consume env s first >>= fun t => consume env t second) =
      (readPart env s first >>= fun t => readPart env t (second.take (s.remaining - first.length))) >>=
        fun t => consume env t (second.drop (s.remaining - first.length)) := by
    rw [consume_part hcancel hloaded hremaining hfirst, List.take_of_length_le h.le,
      List.drop_of_length_le h.le]
    cases hread : readPart env s first with
    | error failed => rfl
    | ok t =>
      have ht := readPart_eq hread
      have htloaded : t.loaded = true := by rw [ht]; exact hloaded
      have htremaining : t.remaining = s.remaining - first.length := by rw [ht]
      have htne : t.remaining ≠ 0 := by omega
      simp only [Except.ok_bind]
      rw [consume_of_not_goesOn (goesOn_of_remaining htne), Except.ok_bind,
        consume_part hcancel htloaded htne hsecond, htremaining]
  rw [hstop, consume_part hcancel hloaded hremaining (by simp [hfirst]), htake, hdrop]
  exact observe_bind_congr (readPart_append henv s hlength) fun t _ => rfl

/-- A piece ends while something is collected or inside a file, where it may be cut in two, or the next
turn ends before it does. -/
lemma append_or_extend (henv : env.Documented) (hcancel : ¬ env.cancelled) {first second : Bytes}
    (hfirst : s.goesOn first) (hsecond : second ≠ [])
    (hsmall : (first ++ second).length < 2 ^ 31) :
    observe seen (consume env s (first ++ second)) =
        observe seen (consume env s first >>= fun t => consume env t second) ∨
      (turn env s (first ++ second) = (turn env s first).map (Turn.extend second) ∧
        ∀ t, turn env s first ≠ .ok (.stop t)) := by
  by_cases hcollect : s.loaded = false ∧ s.buffer.length + first.length < s.wanted
  · left
    rw [consume_append_collecting hcancel hfirst hsecond hcollect.1 hcollect.2]
  by_cases hinside : s.loaded = true ∧ first.length < s.remaining
  · have hne : first ≠ [] := by
      rintro rfl
      rw [goesOn_of_remaining (by omega)] at hfirst
      exact Bool.false_ne_true hfirst
    exact .inl (consume_append_inside henv hcancel hne hsecond hsmall hinside.1 hinside.2)
  refine .inr ⟨turn_append_of_le first second (fun hl => ?_) (fun hl => ?_), fun t ht => ?_⟩
  · by_contra hlt
    exact hcollect ⟨hl, by omega⟩
  · by_contra hlt
    exact hinside ⟨hl, by omega⟩
  · obtain ⟨hl, rfl, hlength⟩ := turn_stop ht
    refine hcollect ⟨hl, ?_⟩
    dsimp only at hlength
    rw [List.length_append, List.length_take] at hlength
    omega

/-- **A piece may be cut in two.**

**Proof sketch.** Induction on the turns for the first part. A turn that ends before the first part does is
the same with more input. Otherwise the first part ends while the header or the manifest is collected, or
inside a file; there the turn for the whole piece is that for the first part and the beginning of the next
one. -/
theorem consume_append (henv : env.Documented) (s : Parser κ) {first second : Bytes}
    (hsmall : (first ++ second).length < 2 ^ 31) :
    observe seen (consume env s (first ++ second)) =
      observe seen (consume env s first >>= fun t => consume env t second) := by
  by_cases hsecond : second = []
  · subst hsecond
    rw [List.append_nil]
    cases hfirst : consume env s first with
    | error failed => rfl
    | ok t => rw [Except.ok_bind, consume_of_not_goesOn (consume_ready hfirst)]
  induction s, first using consume.induct env with
  | case1 s first hgoes hcancel =>
    rw [consume_cancelled hgoes hcancel, consume_cancelled (goesOn_append hgoes second) hcancel]
    rfl
  | case2 s first hgoes hcancel failed hturn =>
    rcases append_or_extend henv hcancel hgoes hsecond hsmall with h | ⟨hextend, -⟩
    · exact h
    · rw [hturn] at hextend
      rw [consume_error hgoes hcancel hturn,
        consume_error (goesOn_append hgoes second) hcancel hextend]
      rfl
  | case3 s first hgoes hcancel t hturn =>
    rcases append_or_extend henv hcancel hgoes hsecond hsmall with h | ⟨-, hstop⟩
    · exact h
    · exact absurd hturn (hstop t)
  | case4 s first hgoes hcancel t first' hturn ih =>
    rcases append_or_extend henv hcancel hgoes hsecond hsmall with h | ⟨hextend, -⟩
    · exact h
    · rw [hturn] at hextend
      rw [consume_more hgoes hcancel hturn,
        consume_more (goesOn_append hgoes second) hcancel hextend]
      refine ih ?_
      have hle := turn_length_le hturn
      rw [List.length_append] at hsmall ⊢
      omega
  | case5 s first hgoes =>
    have hnil : first = [] := by
      by_contra hne
      exact hgoes (goesOn_of_ne_nil hne)
    have hstop : consume env s first = .ok s := consume_of_not_goesOn (by simpa using hgoes)
    rw [hstop, hnil]
    rfl

/-- **Pieces of the program's sizes may be cut.** -/
theorem cuttable (henv : env.Documented) :
    Cuttable (consume env) seen (fun chunk => chunk.length < 2 ^ 31)
      (fun s => s.goesOn [] = false) where
  nil _ hs := consume_of_not_goesOn hs
  next _ _ _ _ h := consume_ready h
  append s _ _ _ hsmall := consume_append henv s hsmall
  small_tail chunk rest h := by
    rw [List.length_append] at h
    omega

/-! ### Complete packages -/

/-- The sizes of the files are not negative. -/
def Listing.Sized (l : Listing) : Prop := ∀ entry ∈ l.entries, 0 ≤ entry.size

lemma readSize_nonneg {value : Option Json} {size : ℤ} (h : readSize value = some size) :
    0 ≤ size := by
  unfold readSize at h
  split at h
  · obtain ⟨n, -, rfl⟩ := Option.map_eq_some_iff.mp h
    exact Int.natCast_nonneg n
  · cases h

lemma listModule_sized {id pathStart : Text} {state state' : Listing × JObject} {value : Json}
    (hsized : state.1.Sized) (h : listModule env id pathStart state value = .ok state') :
    state'.1.Sized := by
  unfold listModule at h
  dsimp only at h
  split_ifs at h
  obtain rfl := Except.ok.inj h
  exact hsized

lemma listProfile_sized {l l' : Listing} {value : Json} (hsized : l.Sized)
    (h : listProfile env l value = .ok l') : l'.Sized := by
  unfold listProfile at h
  dsimp only at h
  split_ifs at h
  obtain ⟨⟨t, metadata⟩, hmodules, h⟩ := Except.bind_eq_ok_iff.mp h
  obtain rfl := Except.ok.inj h
  exact Except.foldlM_invariant (P := fun state : Listing × JObject => state.1.Sized)
    (fun _ _ _ => listModule_sized) hsized hmodules

lemma listAsset_sized {l l' : Listing} {value : Json} (hsized : l.Sized)
    (h : listAsset env l value = .ok l') : l'.Sized := by
  unfold listAsset at h
  dsimp only at h
  split_ifs at h
  split at h
  · split_ifs at h
    obtain rfl := Except.ok.inj h
    exact hsized
  · cases h

lemma listFile_sized {l l' : Listing} {value : Json} (hsized : l.Sized)
    (h : listFile env l value = .ok l') : l'.Sized := by
  unfold listFile at h
  dsimp only at h
  split_ifs at h
  split at h
  · cases h
  · rename_i size hsize
    split_ifs at h
    obtain ⟨t, ht, h⟩ := Except.bind_eq_ok_iff.mp h
    have hentries : t.entries = l.entries := by
      unfold keepEntry at ht
      dsimp only at ht
      split at ht
      · split_ifs at ht
        obtain rfl := Except.ok.inj ht
        rfl
      · split at ht
        · cases ht
        · split_ifs at ht
          obtain rfl := Except.ok.inj ht
          rfl
    split_ifs at h
    obtain rfl := Except.ok.inj h
    intro entry hentry
    rw [hentries] at hentry
    rcases List.mem_append.mp hentry with hold | hnew
    · exact hsized entry hold
    · rw [List.mem_singleton.mp hnew]
      exact readSize_nonneg hsize

lemma readManifest_sized {r : Inspection} {buffer : Bytes} {l : Listing}
    (h : readManifest env r buffer = .ok l) : l.Sized := by
  unfold readManifest at h
  dsimp only at h
  split at h
  · cases h
  · split_ifs at h
    split at h
    · cases h
    · obtain ⟨profiles, hprofiles, h⟩ := Except.bind_eq_ok_iff.mp h
      obtain ⟨assets, hassets, h⟩ := Except.bind_eq_ok_iff.mp h
      obtain ⟨files, hfiles, h⟩ := Except.bind_eq_ok_iff.mp h
      split_ifs at h
      obtain rfl := Except.ok.inj h
      refine Except.foldlM_invariant (fun _ _ _ => listFile_sized) ?_ hfiles
      refine Except.foldlM_invariant (fun _ _ _ => listAsset_sized) ?_ hassets
      refine Except.foldlM_invariant (fun _ _ _ => listProfile_sized) ?_ hprofiles
      intro entry hentry
      cases hentry

/-- **The beginning of a package**: a header of twelve bytes, and the manifest it gives the size of. -/
structure Opening (env : Surroundings κ) (r : Inspection) (header manifest : Bytes) (l : Listing) :
    Prop where
  header_length : header.length = 12
  magic : header.take 8 = Json.ascii "TGVPKG01"
  manifest_length : manifest.length = fromBigEndian ((header.drop 8).take 4)
  read : readManifest env r manifest = .ok l

/-- The content of a file has the size and the hash of its entry. -/
def Matches (env : Surroundings κ) (part : Bytes) (entry : Entry) : Prop :=
  (part.length : ℤ) = entry.size ∧ toLatin1 (env.sha256 part) = entry.hash

/-- **How far a package was read**: a part of the header, a part of the manifest, or some files and a part
of the next one. -/
inductive Progress (env : Surroundings κ) (r : Inspection) : Bytes → Parser κ → Prop
  | header (s : Parser κ) (hloaded : s.loaded = false) (hsize : s.manifestSize < 0)
      (hindex : s.index = -1) (hremaining : s.remaining = 0) (hresult : s.result = r)
      (hlength : s.buffer.length < 12) : Progress env r s.buffer s
  | manifest (header : Bytes) (s : Parser κ) (hloaded : s.loaded = false)
      (hheader : header.length = 12) (hmagic : header.take 8 = Json.ascii "TGVPKG01")
      (hsize : s.manifestSize = fromBigEndian ((header.drop 8).take 4))
      (hindex : s.index = -1) (hremaining : s.remaining = 0) (hresult : s.result = r)
      (hlength : s.buffer.length < s.manifestSize.toNat) : Progress env r (header ++ s.buffer) s
  | files (header manifest : Bytes) (l : Listing) (parts : List Bytes) (current : Bytes)
      (s : Parser κ) (hloaded : s.loaded = true) (hopening : Opening env r header manifest l)
      (hsize : s.manifestSize = manifest.length) (hentries : s.entries = l.entries)
      (hindex : s.index = parts.length)
      (hparts : List.Forall₂ (Matches env) parts (l.entries.take parts.length))
      (hend : l.entries[parts.length]? = none → current = [] ∧ s.remaining = 0)
      (hcurrent : ∀ entry, l.entries[parts.length]? = some entry →
        s.hashed = current ∧ (current.length + s.remaining : ℤ) = entry.size) :
      Progress env r (header ++ manifest ++ parts.flatten ++ current) s

lemma progress_start (r : Inspection) : Progress env r [] (Parser.start κ r) :=
  .header (Parser.start κ r) rfl (Int.negSucc_lt_zero 0) rfl rfl rfl (Nat.zero_lt_succ 11)

/-- The next file has started, or there is none. -/
lemma Progress.of_started {r : Inspection} {header manifest : Bytes} {l : Listing}
    (parts : List Bytes) (hopening : Opening env r header manifest l) (hloaded : s.loaded = true)
    (hsize : s.manifestSize = manifest.length) (hentries : s.entries = l.entries)
    (hindex : s.index = parts.length)
    (hparts : List.Forall₂ (Matches env) parts (l.entries.take parts.length))
    (hnone : l.entries[s.index.toNat]? = none → s.remaining = 0)
    (hstarted : ∀ entry, l.entries[s.index.toNat]? = some entry →
      s.remaining = entry.size.toNat ∧ s.hashed = []) :
    Progress env r (header ++ manifest ++ parts.flatten) s := by
  have htoNat : s.index.toNat = parts.length := by omega
  rw [htoNat] at hnone hstarted
  have h := Progress.files header manifest l parts [] s hloaded hopening hsize hentries hindex
    hparts (fun hn => ⟨rfl, hnone hn⟩) (fun entry hentry => ?_)
  · rwa [List.append_nil] at h
  · obtain ⟨hremaining, hhashed⟩ := hstarted entry hentry
    have hnonneg := readManifest_sized hopening.read entry (List.mem_of_getElem? hentry)
    refine ⟨hhashed, ?_⟩
    rw [List.length_nil, hremaining]
    omega

/-- **A turn reads on.** -/
lemma Progress.moves {r : Inspection} {done : Bytes} (hprogress : Progress env r done s)
    (h : Moves env s input s' input') :
    ∃ used, input = used ++ input' ∧ Progress env r (done ++ used) s' := by
  cases h with
  | header buffer hloaded hsize hbuffer hlength hmagic hmin =>
    refine ⟨input.take (12 - s.buffer.length), (List.take_append_drop _ _).symm, ?_⟩
    cases hprogress with
    | header s hloaded' hsize' hindex hremaining hresult hshort =>
      have htwelve : buffer.length = 12 := by
        rw [hbuffer, List.length_append, List.length_take] at hlength ⊢
        omega
      rw [← hbuffer]
      let t : Parser κ := { s with manifestSize := fromBigEndian ((buffer.drop 8).take 4), buffer := [] }
      have hroom : t.buffer.length < t.manifestSize.toNat := by
        show 0 < ((fromBigEndian ((buffer.drop 8).take 4) : ℕ) : ℤ).toNat
        omega
      have hnext : Progress env r (buffer ++ t.buffer) t :=
        .manifest buffer t hloaded htwelve hmagic rfl hindex hremaining hresult hroom
      rwa [List.append_nil] at hnext
    | manifest header s hloaded' hheader hmagic' hsize' => omega
    | files header manifest l parts current s hloaded' => simp [hloaded] at hloaded'
  | manifest buffer s' hloaded hsize hbuffer hlength hread =>
    refine ⟨input.take (s.manifestSize.toNat - s.buffer.length), (List.take_append_drop _ _).symm, ?_⟩
    cases hprogress with
    | header s hloaded' hsize' => omega
    | manifest header s hloaded' hheader hmagic hsize' hindex hremaining hresult hshort =>
      have hexact : buffer.length = s.manifestSize.toNat := by
        rw [hbuffer, List.length_append, List.length_take] at hlength ⊢
        omega
      obtain ⟨l, hl, hindex', hentries, hloaded', hsize'', hnone, hstarted⟩ := manifest_next hread
      dsimp only at hl hindex' hsize'' hnone
      rw [hresult] at hl
      have hopening : Opening env r header buffer l := ⟨hheader, hmagic, by omega, hl⟩
      rw [List.append_assoc, ← hbuffer]
      have hnext := Progress.of_started [] hopening hloaded'
        (by rw [hsize'', hexact]; omega) hentries (by rw [hindex', hindex]; rfl) .nil
        (fun hn => by rw [hnone hn, hremaining]) hstarted
      rwa [List.flatten_nil, List.append_nil] at hnext
    | files header manifest l parts current s hloaded' => simp [hloaded] at hloaded'
  | entry s' hloaded hfinished hremaining hentry =>
    refine ⟨[], rfl, ?_⟩
    cases hprogress with
    | header s hloaded' => simp [hloaded] at hloaded'
    | manifest header s hloaded' => simp [hloaded] at hloaded'
    | files header manifest l parts current s hloaded' hopening hsize hentries hindex hparts hend hcurrent =>
      obtain ⟨hnext, entry, hget, hhash⟩ := finishEntry_next hentry
      have htoNat : s.index.toNat = parts.length := by omega
      rw [htoNat, hentries] at hget
      obtain ⟨hhashed, hlength⟩ := hcurrent entry hget
      have hmatches : Matches env current entry := ⟨by omega, hhashed ▸ hhash⟩
      have hlt := (List.getElem?_eq_some_iff.mp hget).1
      have hlen : (parts ++ [current]).length = parts.length + 1 := by simp
      have htake : l.entries.take (parts ++ [current]).length =
          l.entries.take parts.length ++ [entry] := by
        rw [hlen, List.take_add_one, hget]
        rfl
      have hstarted := Progress.of_started (parts ++ [current]) hopening
        (hnext.loaded.trans hloaded) (hnext.manifestSize.trans hsize)
        (hnext.entries.trans hentries) (by rw [hnext.index, hindex, hlen]; rfl)
        (htake ▸ List.rel_append hparts (.cons hmatches .nil))
        (fun hn => by rw [hnext.none_left (by rw [hentries]; exact hn), hremaining])
        (fun e he => hnext.started e (by rw [hentries]; exact he))
      rwa [List.flatten_append, List.flatten_singleton, ← List.append_assoc,
        ← List.append_nil (header ++ manifest ++ parts.flatten ++ current)] at hstarted
  | part s' hloaded hremaining hread =>
    refine ⟨input.take s.remaining, (List.take_append_drop _ _).symm, ?_⟩
    cases hprogress with
    | header s hloaded' => simp [hloaded] at hloaded'
    | manifest header s hloaded' => simp [hloaded] at hloaded'
    | files header manifest l parts current s hloaded' hopening hsize hentries hindex hparts hend hcurrent =>
      rw [readPart_eq hread, List.append_assoc]
      refine .files header manifest l parts (current ++ input.take s.remaining) _ hloaded hopening
        hsize hentries hindex hparts (fun hn => absurd (hend hn).2 hremaining) fun entry hget => ?_
      obtain ⟨hhashed, hlength⟩ := hcurrent entry hget
      refine ⟨by rw [← hhashed], ?_⟩
      dsimp only
      rw [List.length_append, List.length_take]
      omega

/-- What is collected is read. -/
lemma Progress.stop {r : Inspection} {done : Bytes} (hprogress : Progress env r done s)
    (h : turn env s input = .ok (.stop s')) : Progress env r (done ++ input) s' := by
  obtain ⟨hloaded, rfl, hlength⟩ := turn_stop h
  have htake : input.take (s.wanted - s.buffer.length) = input := by
    refine List.take_of_length_le ?_
    dsimp only at hlength
    rw [List.length_append, List.length_take] at hlength
    omega
  rw [htake] at hlength ⊢
  cases hprogress with
  | header s hloaded hsize hindex hremaining hresult hshort =>
    rw [s.wanted_of_neg hsize] at hlength
    exact .header { s with buffer := s.buffer ++ input } hloaded hsize hindex hremaining hresult
      hlength
  | manifest header s hloaded hheader hmagic hsize hindex hremaining hresult hshort =>
    rw [s.wanted_of_nonneg (by omega)] at hlength
    rw [List.append_assoc]
    exact .manifest header { s with buffer := s.buffer ++ input } hloaded hheader hmagic hsize
      hindex hremaining hresult hlength
  | files header manifest l parts current s hloaded' => simp [hloaded] at hloaded'

/-- **A piece reads on.** -/
lemma consume_progress {r : Inspection} {done : Bytes} (hprogress : Progress env r done s)
    (h : consume env s input = .ok s') : Progress env r (done ++ input) s' := by
  induction s, input using consume.induct env generalizing done with
  | case1 s input hgoes hcancel =>
    rw [consume_cancelled hgoes hcancel] at h
    cases h
  | case2 s input hgoes hcancel failed hturn =>
    rw [consume_error hgoes hcancel hturn] at h
    cases h
  | case3 s input hgoes hcancel t hturn =>
    rw [consume_stop hgoes hcancel hturn] at h
    obtain rfl := Except.ok.inj h
    exact hprogress.stop hturn
  | case4 s input hgoes hcancel t input' hturn ih =>
    rw [consume_more hgoes hcancel hturn] at h
    obtain ⟨used, rfl, hnext⟩ := hprogress.moves (turn_moves hturn)
    rw [← List.append_assoc]
    exact ih hnext h
  | case5 s input hgoes =>
    rw [consume_of_not_goesOn (by simpa using hgoes)] at h
    obtain rfl := Except.ok.inj h
    have hnil : input = [] := by
      by_contra hne
      exact hgoes (goesOn_of_ne_nil hne)
    rwa [hnil, List.append_nil]

/-- **A complete package**: its beginning, and the content of every file that the manifest lists. -/
structure Complete (env : Surroundings κ) (r : Inspection) (data header manifest : Bytes)
    (l : Listing) (parts : List Bytes) : Prop where
  opening : Opening env r header manifest l
  files : List.Forall₂ (Matches env) parts l.entries
  data_eq : data = header ++ manifest ++ parts.flatten

/-- The files are together as long as their entries say. -/
lemma flatten_length {parts : List Bytes} {entries : List Entry}
    (h : List.Forall₂ (Matches env) parts entries) :
    (parts.flatten.length : ℤ) = (entries.map Entry.size).sum := by
  induction h with
  | nil => rfl
  | cons hmatches _ ih =>
    rw [List.flatten_cons, List.length_append, List.map_cons, List.sum_cons, Nat.cast_add, ih,
      hmatches.1]

lemma Complete.length_eq {r : Inspection} {data header manifest : Bytes} {l : Listing}
    {parts : List Bytes} (h : Complete env r data header manifest l parts) :
    (data.length : ℤ) = 12 + manifest.length + (l.entries.map Entry.size).sum := by
  rw [h.data_eq, List.length_append, List.length_append, h.opening.header_length, Nat.cast_add,
    flatten_length h.files]
  push_cast
  rfl

/-- A parser that is finished has read a complete package. -/
lemma Progress.complete {r : Inspection} {done : Bytes} (hprogress : Progress env r done s)
    (hfinished : s.finished) :
    ∃ header manifest l parts, Complete env r done header manifest l parts ∧
      s.entries = l.entries ∧ s.manifestSize = manifest.length := by
  simp only [Parser.finished, Bool.and_eq_true, beq_iff_eq] at hfinished
  obtain ⟨⟨hloaded, hall⟩, hremaining⟩ := hfinished
  cases hprogress with
  | header s hloaded' => simp [hloaded] at hloaded'
  | manifest header s hloaded' => simp [hloaded] at hloaded'
  | files header manifest l parts current s hloaded' hopening hsize hentries hindex hparts hend hcurrent =>
    have hlen : parts.length = l.entries.length := by
      rw [hentries, hindex] at hall
      exact_mod_cast hall
    have hnil := (hend (List.getElem?_eq_none hlen.ge)).1
    rw [hlen, List.take_length] at hparts
    exact ⟨header, manifest, l, parts, ⟨hopening, hparts, by rw [hnil, List.append_nil]⟩, hentries,
      hsize⟩

/-- The sizes of all files are at least those of the first ones and of the next one. -/
lemma sum_size_ge {l : Listing} (hsized : l.Sized) {n : ℕ} (hn : n < l.entries.length) :
    ((l.entries.take n).map Entry.size).sum + l.entries[n].size ≤ (l.entries.map Entry.size).sum := by
  have hsplit : l.entries = l.entries.take n ++ l.entries[n] :: l.entries.drop (n + 1) := by
    rw [List.cons_getElem_drop_succ, List.take_append_drop]
  have hrest : 0 ≤ ((l.entries.drop (n + 1)).map Entry.size).sum := by
    refine List.sum_nonneg fun size hsize => ?_
    obtain ⟨entry, hentry, rfl⟩ := List.mem_map.mp hsize
    exact hsized entry (List.mem_of_mem_drop hentry)
  have hsum := congrArg (fun entries => (entries.map Entry.size).sum) hsplit
  simp only [List.map_append, List.map_cons, List.sum_append, List.sum_cons] at hsum
  omega

/-- A parser that has read a complete package is finished.

**Proof sketch.** What it has read begins with the same header and the same manifest, so it expects the same
files. If one of them were left, then what it has read would be too short. -/
lemma Progress.finished {r : Inspection} {done header manifest : Bytes} {l : Listing}
    {parts : List Bytes} (hprogress : Progress env r done s) (hready : s.goesOn [] = false)
    (hcomplete : Complete env r done header manifest l parts) : s.finished := by
  have hheader := hcomplete.opening.header_length
  have hmanifest := hcomplete.opening.manifest_length
  have hdata := hcomplete.data_eq
  rw [List.append_assoc] at hdata
  cases hprogress with
  | header s hloaded hsize hindex hremaining hresult hshort =>
    rw [hdata, List.length_append] at hshort
    omega
  | manifest header' s hloaded hheader' hmagic hsize hindex hremaining hresult hshort =>
    obtain ⟨rfl, hrest⟩ := List.append_inj hdata (by omega)
    rw [hrest, List.length_append] at hshort
    omega
  | files header' manifest' l' parts' current s hloaded hopening hsize hentries hindex hparts hend hcurrent =>
    rw [List.append_assoc, List.append_assoc] at hdata
    obtain ⟨rfl, hrest⟩ := List.append_inj hdata (by rw [hopening.header_length, hheader])
    obtain ⟨rfl, hfiles⟩ := List.append_inj hrest (by rw [hopening.manifest_length, hmanifest])
    obtain rfl := Except.ok.inj (hopening.read.symm.trans hcomplete.opening.read)
    have hle : parts'.length ≤ l'.entries.length := by
      have := hparts.length_eq
      rw [List.length_take] at this
      omega
    rcases hle.eq_or_lt with hall | hlt
    · have hremaining := (hend (List.getElem?_eq_none hall.ge)).2
      simp [Parser.finished, hloaded, hindex, hentries, hall, hremaining]
    · exfalso
      have hget := List.getElem?_eq_getElem hlt
      have hcurrent := (hcurrent _ hget).2
      have hremaining : s.remaining ≠ 0 := by
        intro hzero
        have hne : (s.index == s.entries.length) = false := by
          rw [hindex, hentries, beq_eq_false_iff_ne]
          omega
        simp [Parser.goesOn, Parser.finished, hloaded, hne, hzero] at hready
      have hsum := sum_size_ge (readManifest_sized hopening.read) hlt
      have hlength := congrArg (fun data => (data.length : ℤ)) hfiles
      simp only [List.length_append, Nat.cast_add, flatten_length hparts,
        flatten_length hcomplete.files] at hlength
      omega

/-- What was read after all pieces is a part of a package. -/
lemma feed_progress {r : Inspection} {chunks : List Bytes}
    (h : feed (consume env) (Parser.start κ r) chunks = .ok s) :
    Progress env r chunks.flatten s :=
  feed_invariant (I := Progress env r) (fun _ _ _ _ => consume_progress) [] (progress_start r) h

/-- After all pieces no file is complete. -/
lemma feed_ready {r : Inspection} {chunks : List Bytes}
    (h : feed (consume env) (Parser.start κ r) chunks = .ok s) : s.goesOn [] = false :=
  feed_invariant (I := fun _ s => s.goesOn [] = false)
    (fun _ _ _ _ _ => consume_ready) [] (goesOn_of_not_loaded rfl) h

/-- A parser that is finished takes no further byte. -/
lemma consume_finished (h : s.finished) (b : UInt8) (rest : Bytes) :
    ∃ failed, consume env s (b :: rest) = .error failed := by
  have hgoes : s.goesOn (b :: rest) := goesOn_of_ne_nil (List.cons_ne_nil b rest)
  by_cases hcancel : env.cancelled
  · exact ⟨_, consume_cancelled hgoes hcancel⟩
  · have hloaded : s.loaded = true := by
      simp only [Parser.finished, Bool.and_eq_true] at h
      exact h.1.1
    have hturn : turn env s (b :: rest) = .error (invalidFault, s) := by simp [turn, hloaded, h]
    exact ⟨_, consume_error hgoes hcancel hturn⟩

/-- **The pieces of a package do not matter, and exactly complete packages are accepted.** Any two ways of
cutting the same bytes into pieces smaller than `2 ^ 31` bytes agree in acceptance, in the status and in what
was inspected. A run without a failure ends with a parser that is finished exactly if its bytes are a complete
package; these are then as many as the header, the manifest and the listed files have together, every file was
checked against its own hash, and any further byte is rejected.

**Proof sketch.** A piece may be cut in two (`consume_append`), so every way of cutting the input agrees with
its bytes one after another. The second part is an invariant of the turns (`Progress`). -/
theorem feed_package (henv : env.Documented) (r : Inspection) :
    (∀ chunks chunks' : List Bytes, (∀ chunk ∈ chunks, chunk.length < 2 ^ 31) →
      (∀ chunk ∈ chunks', chunk.length < 2 ^ 31) → chunks.flatten = chunks'.flatten →
      observe seen (feed (consume env) (Parser.start κ r) chunks) =
        observe seen (feed (consume env) (Parser.start κ r) chunks')) ∧
    ∀ (chunks : List Bytes) (s : Parser κ), feed (consume env) (Parser.start κ r) chunks = .ok s →
      (s.finished ↔ ∃ header manifest l parts,
        Complete env r chunks.flatten header manifest l parts ∧ s.entries = l.entries ∧
          s.manifestSize = manifest.length) ∧
      (s.finished → (chunks.flatten.length : ℤ) =
        12 + s.manifestSize + (s.entries.map Entry.size).sum) ∧
      (s.finished → ∀ b rest, ∃ failed, consume env s (b :: rest) = .error failed) := by
  refine ⟨fun chunks chunks' hsmall hsmall' hflatten => ?_, fun chunks s h => ?_⟩
  · exact (cuttable henv).observe_feed_eq (goesOn_of_not_loaded rfl) hsmall hsmall' hflatten
  · have hprogress := feed_progress h
    refine ⟨⟨hprogress.complete, ?_⟩, fun hfinished => ?_, consume_finished⟩
    · rintro ⟨header, manifest, l, parts, hcomplete, -, -⟩
      exact hprogress.finished (feed_ready h) hcomplete
    · obtain ⟨header, manifest, l, parts, hcomplete, hentries, hsize⟩ := hprogress.complete hfinished
      rw [hcomplete.length_eq, hentries, hsize]

/-! ### Pieces that are too large -/

/-- How the values of a manifest without escapes are written. -/
def plainWriter : Json.Writer where
  number q := toLatin1 (decimal q.num.toNat)
  text s := 34 :: toLatin1 s ++ [34]

/-- The hash of `2 ^ 31` zeros. -/
def zerosHash : Text := u "a7c744c13cc101ed66c29f672f92455547889cc586ce6d44fe76ae824958ea51"

/-- An identity. -/
def sampleId : Text := u "00000000-0000-4000-8000-000000000000"

/-- A manifest with one asset, of `2 ^ 31` zeros. -/
def zerosManifest : JObject := object [
  (u "format", .str (u "telegravim-transfer")),
  (u "version", .num 1),
  (u "package_id", .str sampleId),
  (u "device_id", .str sampleId),
  (u "generation", .str sampleId),
  (u "extra", .obj []),
  (u "profiles", .arr []),
  (u "assets", .arr [Json.ofObject (object [
    (u "sha256", .str zerosHash), (u "size", .str (u "2147483648")), (u "extra", .obj [])])]),
  (u "files", .arr [Json.ofObject (object [
    (u "path", .str (u "assets/" ++ zerosHash)), (u "size", .str (u "2147483648")),
    (u "sha256", .str zerosHash)])])]

/-- The text of that manifest. -/
def zerosText : Bytes := Json.compact plainWriter (Json.ofObject zerosManifest)

/-- The header of that package. -/
def zerosHeader : Bytes := Json.ascii "TGVPKG01" ++
  [0, 0, UInt8.ofNat (zerosText.length / 256), UInt8.ofNat zerosText.length]


/-- Surroundings in which everything succeeds, with a cipher that adds a key stream and takes only the size
of its piece. They know one JSON text and one hash. -/
def plainSurroundings : Surroundings ℕ where
  sha256 _ := zerosHash
  fromJson bytes := if bytes = zerosText then some zerosManifest else none
  cancelled := false
  randomKey := some (List.replicate 32 1)
  randomNonce _ := some (List.replicate 12 2)
  cipherInit _ _ _ := some 0
  cipherUpdate position input size :=
    if size = input.length then
      some (position + input.length, input.mapIdx fun i b => b ^^^ UInt8.ofNat (position + i))
    else none
  cipherFinish _ := some (List.replicate 16 0)
  opens _ := true
  holds _ _ := true
  flushes _ _ := true

/-- Nothing is inspected yet. -/
def noInspection : Inspection where
  snapshot := {}
  readers := ∅
  packageId := []
  packageBytes := 0
  assetBytes := 0

lemma plainSurroundings_documented : plainSurroundings.Documented where
  update_append c first second _ := by
    have hposition : ∀ i, c + (i + first.length) = c + first.length + i := by omega
    simp only [plainSurroundings, if_true, Option.bind_some, Option.map_some]
    rw [List.mapIdx_append, List.length_append, Nat.add_assoc]
    simp only [hposition]
  holds_append _ _ _ _ := rfl

/-- What decides how a file goes on. -/
structure Place where
  loaded : Bool
  remaining : ℕ
  index : ℤ
  asset : Option AssetFile
  cipher : Option ℕ
  entries : List Entry
deriving DecidableEq

/-- The place of a state. -/
def Parser.place (s : Parser ℕ) : Place :=
  ⟨s.loaded, s.remaining, s.index, s.asset, s.cipher, s.entries⟩

/-- The entry of the asset. -/
def zerosEntry : Entry where
  path := u "assets/" ++ zerosHash
  size := 2147483648
  hash := toLatin1 zerosHash
  extra := ∅

/-- The state after the header. -/
def zerosStart : Parser ℕ := { Parser.start ℕ noInspection with manifestSize := 533 }

set_option maxRecDepth 20000 in
lemma turn_zerosHeader :
    turn plainSurroundings (Parser.start ℕ noInspection) zerosHeader = .ok (.more zerosStart []) := by
  rfl

/-- The place after a turn that uses its input up. -/
def placeAfter : Parsed ℕ (Turn ℕ) → Option Place
  | .ok (.more s []) => some s.place
  | _ => none

lemma placeAfter_zerosText : placeAfter (turn plainSurroundings zerosStart zerosText) =
    some ⟨true, 2147483648, 0, some ⟨0, []⟩, some 0, [zerosEntry]⟩ := by
  decide +kernel

lemma zerosHeader_length : zerosHeader.length = 12 := rfl

lemma zerosText_length : zerosText.length = 533 := by decide +kernel

/-- After the header and the manifest the parser is inside the asset. -/
lemma exists_inside : ∃ s : Parser ℕ,
    s.place = ⟨true, 2147483648, 0, some ⟨0, []⟩, some 0, [zerosEntry]⟩ ∧
      ∀ rest, rest ≠ [] → consume plainSurroundings (Parser.start ℕ noInspection)
        (zerosHeader ++ (zerosText ++ rest)) = consume plainSurroundings s rest := by
  have hplace := placeAfter_zerosText
  unfold placeAfter at hplace
  split at hplace
  · rename_i s hturn
    refine ⟨s, Option.some.inj hplace, fun rest hrest => ?_⟩
    have hne : zerosText ++ rest ≠ [] := by simp [hrest]
    have hheader : turn plainSurroundings (Parser.start ℕ noInspection)
        (zerosHeader ++ (zerosText ++ rest)) =
        (turn plainSurroundings (Parser.start ℕ noInspection) zerosHeader).map
          (Turn.extend (zerosText ++ rest)) := turn_append_of_le
      zerosHeader (zerosText ++ rest) (fun _ => zerosHeader_length.ge) (fun h => by cases h)
    have htext : turn plainSurroundings zerosStart (zerosText ++ rest) =
        (turn plainSurroundings zerosStart zerosText).map (Turn.extend rest) :=
      turn_append_of_le zerosText rest
      (fun _ => by rw [zerosText_length]; exact le_rfl) (fun h => by cases h)
    rw [turn_zerosHeader] at hheader
    rw [hturn] at htext
    rw [consume_more (goesOn_of_ne_nil (by simp [hne])) Bool.false_ne_true hheader]
    exact consume_more (goesOn_of_ne_nil hne) Bool.false_ne_true htext
  · cases hplace

/-- A part of the asset whose size the cipher can be told. -/
lemma readPart_plain {s : Parser ℕ} {part : Bytes} {file : AssetFile} {position : ℕ}
    (hasset : s.asset = some file) (hcipher : s.cipher = some position)
    (hsmall : part.length < 2 ^ 31) :
    ∃ t content, readPart plainSurroundings s part = .ok t ∧ t.loaded = s.loaded ∧
      t.remaining = s.remaining - part.length ∧ t.index = s.index ∧ t.entries = s.entries ∧
      t.asset = some ⟨file.number, content⟩ ∧ t.cipher = some (position + part.length) := by
  have hcrypt : crypt plainSurroundings s.cipher part = some (position + part.length,
      part.mapIdx fun i b => b ^^^ UInt8.ofNat (position + i)) := by
    rw [hcipher]
    simp only [crypt, Option.bind_some, plainSurroundings, asInt_eq hsmall, if_true]
  unfold readPart
  simp only [hasset, hcrypt]
  exact ⟨_, _, rfl, rfl, rfl, rfl, rfl, rfl, rfl⟩

/-- A part whose size becomes negative as a 32-bit integer. -/
lemma readPart_large {s : Parser ℕ} {part : Bytes} (hasset : s.asset.isSome)
    (hlarge : part.length = 2147483648) :
    ∃ t, readPart plainSurroundings s part = .error (ioFault, t) := by
  obtain ⟨file, hfile⟩ := Option.isSome_iff_exists.mp hasset
  have hint : asInt part.length = -2147483648 := by rw [hlarge]; rfl
  have hcrypt : crypt plainSurroundings s.cipher part = none := by
    cases s.cipher with
    | none => rfl
    | some position =>
      simp only [crypt, Option.bind_some, plainSurroundings, hint]
      exact if_neg (by omega)
  unfold readPart
  simp only [hfile, hcrypt]
  exact ⟨_, rfl⟩

/-- The asset is complete. -/
lemma consume_zerosEntry {s : Parser ℕ} {file : AssetFile} {position : ℕ}
    (hplace : s.place = ⟨true, 0, 0, some file, some position, [zerosEntry]⟩) :
    ∃ t, consume plainSurroundings s [] = .ok t ∧ t.finished := by
  obtain ⟨hloaded, hremaining, hindex, hasset, hcipher, hentries⟩ :
      s.loaded = true ∧ s.remaining = 0 ∧ s.index = 0 ∧ s.asset = some file ∧
        s.cipher = some position ∧ s.entries = [zerosEntry] := by
    simpa only [Parser.place, Place.mk.injEq] using hplace
  have hfinished : s.finished = false := by
    simp [Parser.finished, hindex, hentries]
  have hgoes : s.goesOn [] := by simp [Parser.goesOn, hloaded, hfinished, hremaining]
  have hentry : s.entries[s.index.toNat]? = some zerosEntry := by rw [hentries, hindex]; rfl
  have hhash : toLatin1 (plainSurroundings.sha256 s.hashed) = zerosEntry.hash := rfl
  have hwrite : finishWrite plainSurroundings s file =
      some ⟨file.number, file.content ++ List.replicate 16 0⟩ := by
    simp only [finishWrite, hcipher, Option.bind_some, plainSurroundings, and_self, if_true]
  have hturn : ∃ t, turn plainSurroundings s [] = .ok (.more t []) ∧ t.index = 1 ∧
      t.entries = [zerosEntry] ∧ t.loaded = true ∧ t.remaining = 0 := by
    unfold turn finishEntry
    simp only [hloaded, hfinished, hremaining, hentry, hasset, hhash, hwrite]
    unfold startEntry
    simp only [hindex, hentries]
    exact ⟨_, rfl, rfl, rfl, rfl, rfl⟩
  obtain ⟨t, hturn, hindex', hentries', hloaded', hremaining'⟩ := hturn
  have hfinished' : t.finished := by
    simp [Parser.finished, hloaded', hindex', hentries', hremaining']
  refine ⟨t, ?_, hfinished'⟩
  rw [consume_more hgoes Bool.false_ne_true hturn]
  exact consume_of_not_goesOn (by simp [Parser.goesOn, hfinished'])

/-- The asset is read in one part. -/
lemma consume_inside {s : Parser ℕ} {part : Bytes} {file : AssetFile} {position remaining : ℕ}
    (hplace : s.place = ⟨true, remaining, 0, some file, some position, [zerosEntry]⟩)
    (hpart : part ≠ []) (hle : part.length ≤ remaining) (hsmall : part.length < 2 ^ 31) :
    ∃ t content, consume plainSurroundings s part = consume plainSurroundings t [] ∧
      t.place = ⟨true, remaining - part.length, 0, some ⟨file.number, content⟩,
        some (position + part.length), [zerosEntry]⟩ := by
  obtain ⟨hloaded, hremaining, hindex, hasset, hcipher, hentries⟩ :
      s.loaded = true ∧ s.remaining = remaining ∧ s.index = 0 ∧ s.asset = some file ∧
        s.cipher = some position ∧ s.entries = [zerosEntry] := by
    simpa only [Parser.place, Place.mk.injEq] using hplace
  have hpos := List.length_pos_iff.mpr hpart
  obtain ⟨t, content, hread, hloaded', hremaining', hindex', hentries', hasset', hcipher'⟩ :=
    readPart_plain hasset hcipher hsmall
  refine ⟨t, content, ?_, ?_⟩
  · rw [consume_part Bool.false_ne_true hloaded (by omega) hpart,
      List.take_of_length_le (by omega), List.drop_of_length_le (by omega), hread, Except.ok_bind]
  · simp only [Parser.place, hloaded', hloaded, hremaining', hremaining, hindex', hindex, hasset',
      hcipher', hentries', hentries]

/-- The package is accepted in two pieces. -/
lemma feed_two_pieces {part : Bytes} (hpart : part.length = 1073741824) :
    ∃ s, feed (consume plainSurroundings) (Parser.start ℕ noInspection)
      [zerosHeader ++ (zerosText ++ part), part] = .ok s ∧ s.finished := by
  have hne : part ≠ [] := by
    rintro rfl
    simp at hpart
  obtain ⟨s, hplace, hopening⟩ := exists_inside
  obtain ⟨t, content, hfirst, hplace'⟩ := consume_inside hplace hne (by omega) (by omega)
  have hremaining : t.remaining = 1073741824 := by
    have := congrArg Place.remaining hplace'
    simp only [Parser.place] at this
    omega
  have hstop : consume plainSurroundings t [] = .ok t :=
    consume_of_not_goesOn (goesOn_of_remaining (by omega))
  obtain ⟨v, content', hsecond, hplace''⟩ := consume_inside hplace' hne (by omega) (by omega)
  rw [hpart] at hplace''
  obtain ⟨w, hw, hfinished⟩ := consume_zerosEntry hplace''
  refine ⟨w, ?_, hfinished⟩
  rw [feed_cons, hopening part hne, hfirst, hstop, Except.ok_bind, feed_cons, hsecond, hw]
  rfl

/-- The package fails as one piece. -/
lemma feed_one_piece {whole : Bytes} (hwhole : whole.length = 2147483648) :
    ∃ failed, feed (consume plainSurroundings) (Parser.start ℕ noInspection)
      [zerosHeader ++ (zerosText ++ whole)] = .error failed ∧ failed.1 = ioFault := by
  have hne : whole ≠ [] := by
    rintro rfl
    simp at hwhole
  obtain ⟨s, hplace, hopening⟩ := exists_inside
  obtain ⟨hloaded, hremaining, -, hasset, -, -⟩ :
      s.loaded = true ∧ s.remaining = 2147483648 ∧ s.index = 0 ∧ s.asset = some ⟨0, []⟩ ∧
        s.cipher = some 0 ∧ s.entries = [zerosEntry] := by
    simpa only [Parser.place, Place.mk.injEq] using hplace
  obtain ⟨t, hread⟩ := readPart_large (s := s) (by rw [hasset]; rfl) hwhole
  refine ⟨(ioFault, t), ?_, rfl⟩
  rw [feed_cons, hopening whole hne, consume_part Bool.false_ne_true hloaded (by omega) hne,
    List.take_of_length_le (by omega), hread]
  rfl

/-- **Pieces that are too large change what is accepted.** A package with an asset of `2 ^ 31` zeros is
accepted in two pieces, and as one piece it fails. -/
theorem two_pieces_ne_whole :
    plainSurroundings.Documented ∧
    ∃ first second whole : Bytes,
      whole = zerosHeader ++ (zerosText ++ List.replicate 2147483648 0) ∧
      [first, second].flatten = whole ∧
      (∃ s, feed (consume plainSurroundings) (Parser.start ℕ noInspection) [first, second] = .ok s ∧
        s.finished) ∧
      ∃ failed, feed (consume plainSurroundings) (Parser.start ℕ noInspection) [whole] =
        .error failed ∧ failed.1 = ioFault := by
  refine ⟨plainSurroundings_documented,
    zerosHeader ++ (zerosText ++ List.replicate 1073741824 0), List.replicate 1073741824 0, _, rfl,
    ?_, feed_two_pieces List.length_replicate, feed_one_piece List.length_replicate⟩
  rw [List.flatten_cons, List.flatten_singleton, List.append_assoc, List.append_assoc,
    List.replicate_append_replicate]

/-- The pieces of a package agree in these surroundings. -/
theorem feed_package_plain :
    observe seen (feed (consume plainSurroundings) (Parser.start ℕ noInspection)
        [zerosHeader, zerosText]) =
      observe seen (feed (consume plainSurroundings) (Parser.start ℕ noInspection)
        [zerosHeader ++ zerosText]) :=
  (feed_package plainSurroundings_documented noInspection).1 [zerosHeader, zerosText]
    [zerosHeader ++ zerosText] (by decide +kernel) (by decide +kernel) (by simp)

end LocalTransfer
