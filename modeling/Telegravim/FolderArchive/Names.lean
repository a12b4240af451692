import Mathlib.Data.Finset.Card
import Telegravim.Foundation.Text

set_option autoImplicit false

/-!
# Names in a folder archive

Files from several folders go into one archive under their own names. A name that was used before gets a number before
its last dot. One map counts the names that were asked for and those that were given, both in lower case, and the number
is taken from the count of the name that is asked for. The counts are natural numbers here.

How a text is put in lower case is a parameter. All that is used of it is that a number in brackets stays as it is and
does not change what stands around it.

## Main definitions

* `FolderArchive.dedupedName` — the name for a file, where the number bounds the rounds of the loop.
* `FolderArchive.dedupedNames` — the names for files, one after another.
* `FolderArchive.gatherFiles` — the entries of an archive.
* `FolderArchive.KeepsNumbers` — what is used of the lower case.

## Main results

* `FolderArchive.dedupedName_spec` — one name is new, and comes after as many rounds as there are names at most.
* `FolderArchive.dedupedNames_deduped` — the names differ, and a name that is new is kept.
* `FolderArchive.gatherFiles_gathered` — an archive has every file once.
-/

namespace FolderArchive

open Text (u decimal)

/-! ### The names -/

/-- The counts of names in lower case; a name that is not in the map counts as nothing. -/
abbrev Counts := Text → ℕ

def increment (counts : Counts) (key : Text) : Counts := Function.update counts key (counts key + 1)

/-- The index of the last unit of some kind. -/
def lastIndexOf (text : Text) (unit : UInt16) : Option ℕ :=
  (text.reverse.findIdx? (· = unit)).map fun index => text.length - 1 - index

/-- A number in brackets, behind a blank. -/
def suffix (number : ℕ) : Text := u " (" ++ decimal number ++ u ")"

/-- A name with a number: before the last dot, unless the name has none or starts with it. -/
def numbered (name : Text) (number : ℕ) : Text :=
  match lastIndexOf name 46 with
  | some dot => if dot > 0 then name.take dot ++ suffix number ++ name.drop dot else name ++ suffix number
  | none => name ++ suffix number

section Names

variable (toLower : Text → Text)

/-- The loop of `DedupedName`: numbers are tried until one gives a new name. -/
def dedupedNameLoop (name : Text) : ℕ → Counts → Option (Text × Counts)
  | 0, _ => none
  | fuel + 1, counts =>
    let result := numbered name (counts (toLower name))
    let counts := increment counts (toLower result)
    if counts (toLower result) = 1 then some (result, counts)
    else dedupedNameLoop name fuel (increment counts (toLower name))

/-- **The name for a file.** -/
def dedupedName (fuel : ℕ) (counts : Counts) (name : Text) : Option (Text × Counts) :=
  let counts := increment counts (toLower name)
  if counts (toLower name) = 1 then some (name, counts) else dedupedNameLoop toLower name fuel counts

/-- The names for files, one after another. -/
def dedupedNames (fuel : ℕ) : Counts → List Text → Option (List Text)
  | _, [] => some []
  | counts, name :: names =>
    match dedupedName toLower fuel counts name with
    | none => none
    | some (result, counts) => (dedupedNames fuel counts names).map (result :: ·)

/-! ### The files -/

/-- What is looked up about a path. -/
structure FileInfo where
  absoluteFilePath : Text
  fileName : Text
  isDir : Bool
  fileExists : Bool
  isReadable : Bool
  isFile : Bool
  size : ℕ

structure ArchiveEntry where
  absolute : Text
  name : Text
  size : ℕ

structure ArchiveEntries where
  list : List ArchiveEntry
  total : ℕ

/-- The loop of `GatherFiles`: `none` is a loop without an end, and `some none` a file that cannot be read. -/
def gatherFilesFrom (fuel : ℕ) : Counts → ArchiveEntries → List FileInfo → Option (Option ArchiveEntries)
  | _, result, [] => some (some result)
  | counts, result, info :: infos =>
    if info.isDir then gatherFilesFrom fuel counts result infos
    else if info.fileExists = false ∨ info.isReadable = false then some none
    else if info.isFile = false then gatherFilesFrom fuel counts result infos
    else
      match dedupedName toLower fuel counts info.fileName with
      | none => none
      | some (name, counts) =>
        gatherFilesFrom fuel counts
          { list := result.list ++ [⟨info.absoluteFilePath, name, info.size⟩], total := result.total + info.size } infos

/-- **The entries of an archive**, for the paths of files. -/
def gatherFiles (fuel : ℕ) (infos : List FileInfo) : Option (Option ArchiveEntries) :=
  (gatherFilesFrom toLower fuel (fun _ => 0) ⟨[], 0⟩ infos).map fun result =>
    result.filter fun entries => entries.list ≠ []

/-- The paths that get into an archive. -/
def FileInfo.archived (info : FileInfo) : Bool := !info.isDir && info.isFile

/-- What holds of the entries for some paths, after those that were there before. -/
structure Gathered (before : List Text) (infos : List FileInfo) (entries : ArchiveEntries) : Prop where
  distinct : (entries.list.map fun entry => toLower entry.name).Nodup
  absolute : entries.list.map ArchiveEntry.absolute =
    before ++ (infos.filter FileInfo.archived).map FileInfo.absoluteFilePath
  total : entries.total = (entries.list.map ArchiveEntry.size).sum

/-- **What is used of the lower case**: a number in brackets stays as it is, and so does what stands around it. -/
def KeepsNumbers : Prop := ∀ before after number,
  toLower (before ++ suffix number ++ after) = toLower before ++ suffix number ++ toLower after

/-- **The names that files get**: they differ, also in lower case, and a name that was neither asked for nor given before
is kept. -/
structure Deduped (names results : List Text) : Prop where
  length_eq : results.length = names.length
  distinct : (results.map toLower).Nodup
  kept : ∀ index name, names[index]? = some name → toLower name ∉ (names.take index).map toLower →
    toLower name ∉ (results.take index).map toLower → results[index]? = some name

/-- The map counts exactly some names. -/
def Known (counts : Counts) (seen : Finset Text) : Prop := ∀ key, counts key ≠ 0 ↔ key ∈ seen

/-! ### One name -/

lemma known_nil : Known (fun _ => 0) ∅ := fun key => ⟨fun h => absurd rfl h, fun h => absurd h (Finset.notMem_empty key)⟩

lemma Known.increment {counts : Counts} {seen : Finset Text} (h : Known counts seen) (key : Text) :
    Known (increment counts key) (insert key seen) := by
  intro other
  rw [Finset.mem_insert, FolderArchive.increment]
  by_cases hother : other = key
  · rw [hother, Function.update_self]
    exact ⟨fun _ => .inl rfl, fun _ => Nat.succ_ne_zero _⟩
  · rw [Function.update_of_ne hother, h other]
    exact ⟨.inr, fun hmem => hmem.resolve_left hother⟩

lemma increment_self (counts : Counts) (key : Text) : increment counts key key = counts key + 1 :=
    Function.update_self ..

lemma le_increment (counts : Counts) (key other : Text) : counts other ≤ increment counts key other := by
  by_cases hother : other = key
  · rw [hother, increment_self]
    exact Nat.le_succ _
  · rw [increment, Function.update_of_ne hother]

variable {toLower}

/-- Names with different numbers differ in lower case. -/
lemma numbered_injective (hkeeps : KeepsNumbers toLower) {name : Text} {number other : ℕ}
    (h : toLower (numbered name number) = toLower (numbered name other)) : number = other := by
  have hsuffix (before after : Text)
      (heq : toLower (before ++ suffix number ++ after) = toLower (before ++ suffix other ++ after)) :
      number = other := by
    rw [hkeeps, hkeeps, List.append_assoc, List.append_assoc] at heq
    have hnumbers := List.append_cancel_right (List.append_cancel_left heq)
    rw [suffix, suffix, List.append_assoc, List.append_assoc] at hnumbers
    exact Text.decimal_injective (List.append_cancel_right (List.append_cancel_left hnumbers))
  rw [numbered, numbered] at h
  generalize lastIndexOf name 46 = found at h
  rcases found with - | dot
  · exact hsuffix name [] (by rw [List.append_nil, List.append_nil]; exact h)
  · dsimp only at h
    split_ifs at h
    · exact hsuffix _ _ h
    · exact hsuffix name [] (by rw [List.append_nil, List.append_nil]; exact h)

variable (toLower) in
/-- The names that may still be in the way of the numbers from one on. -/
def inTheWay (seen : Finset Text) (name : Text) (number : ℕ) : Finset Text :=
  seen.filter fun key => ∀ tried < number, key ≠ toLower (numbered name tried)

/-- A number that gives a name which was seen takes one out of the way. -/
lemma card_inTheWay_lt (hkeeps : KeepsNumbers toLower) {seen : Finset Text} {name : Text} {number later : ℕ}
    (hseen : toLower (numbered name number) ∈ seen) (hlater : number < later) :
    (inTheWay toLower seen name later).card < (inTheWay toLower seen name number).card := by
  refine Finset.card_lt_card (Finset.ssubset_iff_subset_ne.mpr ⟨fun key hkey => ?_, fun heq => ?_⟩)
  · rw [inTheWay, Finset.mem_filter] at hkey ⊢
    exact ⟨hkey.1, fun tried htried => hkey.2 tried (htried.trans hlater)⟩
  · have hmem : toLower (numbered name number) ∈ inTheWay toLower seen name number := by
      rw [inTheWay, Finset.mem_filter]
      exact ⟨hseen, fun tried htried h => htried.ne (numbered_injective hkeeps h).symm⟩
    rw [← heq, inTheWay, Finset.mem_filter] at hmem
    exact hmem.2 number hlater rfl

/-- **The loop ends** with a new name, after no more rounds than there are names in the way. -/
theorem dedupedNameLoop_spec (hkeeps : KeepsNumbers toLower) {name : Text} {counts : Counts} {seen : Finset Text}
    (hknown : Known counts seen) (hname : toLower name ∈ seen) {fuel : ℕ}
    (hfuel : (inTheWay toLower seen name (counts (toLower name))).card < fuel) :
    ∃ result next, dedupedNameLoop toLower name fuel counts = some (result, next) ∧ toLower result ∉ seen ∧
      Known next (insert (toLower result) seen) := by
  induction fuel generalizing counts with
  | zero => exact absurd hfuel (Nat.not_lt_zero _)
  | succ fuel ih =>
    rw [dedupedNameLoop]
    rw [increment_self]
    generalize hresult : numbered name (counts (toLower name)) = result
    by_cases hnew : toLower result ∈ seen
    · have hcounted : counts (toLower result) + 1 ≠ 1 := fun h => (hknown _).mpr hnew (Nat.succ.inj h)
      have hnext := (hknown.increment (toLower result)).increment (toLower name)
      rw [Finset.insert_eq_of_mem (Finset.mem_insert_of_mem hname), Finset.insert_eq_of_mem hnew] at hnext
      have hlater : counts (toLower name) < increment (increment counts (toLower result)) (toLower name)
        (toLower name) := by
        rw [increment_self]
        exact Nat.lt_succ_of_le (le_increment _ _ _)
      have hless := card_inTheWay_lt hkeeps (hresult ▸ hnew) hlater
      rw [if_neg hcounted]
      exact ih hnext (by omega)
    · have hzero : counts (toLower result) = 0 := Classical.not_not.mp (mt (hknown _).mp hnew)
      rw [hzero, if_pos rfl]
      exact ⟨_, _, rfl, hnew, hknown.increment _⟩

/-- **One name is new**, and it is the name that was asked for if that is new. -/
theorem dedupedName_spec (hkeeps : KeepsNumbers toLower) {counts : Counts} {seen : Finset Text}
    (hknown : Known counts seen) (name : Text) {fuel : ℕ} (hfuel : seen.card < fuel) :
    ∃ result next, dedupedName toLower fuel counts name = some (result, next) ∧ toLower result ∉ seen ∧
      (toLower name ∉ seen → result = name) ∧ Known next (insert (toLower result) (insert (toLower name) seen)) := by
  rw [dedupedName]
  rw [increment_self]
  have hnext := hknown.increment (toLower name)
  by_cases hnew : toLower name ∈ seen
  · have hcounted : counts (toLower name) + 1 ≠ 1 := fun h => (hknown _).mpr hnew (Nat.succ.inj h)
    rw [Finset.insert_eq_of_mem hnew] at hnext
    have hway := Finset.card_le_card
      (Finset.filter_subset (fun key => ∀ tried < increment counts (toLower name) (toLower name),
        key ≠ toLower (numbered name tried)) seen)
    obtain ⟨result, next, hloop, hresult, hlast⟩ :=
      dedupedNameLoop_spec hkeeps hnext hnew (lt_of_le_of_lt hway hfuel)
    rw [if_neg hcounted, Finset.insert_eq_of_mem hnew]
    exact ⟨result, next, hloop, hresult, fun h => absurd hnew h, hlast⟩
  · have hzero : counts (toLower name) = 0 := Classical.not_not.mp (mt (hknown _).mp hnew)
    rw [hzero, if_pos rfl]
    refine ⟨_, _, rfl, hnew, fun _ => rfl, ?_⟩
    rw [Finset.insert_idem]
    exact hnext

/-! ### All names -/

/-- The names that files get after others that were seen. -/
theorem dedupedNames_spec (hkeeps : KeepsNumbers toLower) {counts : Counts} {seen : Finset Text}
    (hknown : Known counts seen) (names : List Text) {fuel : ℕ} (hfuel : seen.card + 2 * names.length ≤ fuel) :
    ∃ results, dedupedNames toLower fuel counts names = some results ∧ results.length = names.length ∧
      (results.map toLower).Nodup ∧ (∀ result ∈ results, toLower result ∉ seen) ∧
      ∀ index name, names[index]? = some name → toLower name ∉ seen →
        toLower name ∉ (names.take index).map toLower → toLower name ∉ (results.take index).map toLower →
        results[index]? = some name := by
  induction names generalizing counts seen with
  | nil => exact ⟨[], rfl, rfl, List.nodup_nil, nofun, nofun⟩
  | cons name names ih =>
    rw [List.length_cons] at hfuel
    have hless : seen.card < fuel := by omega
    obtain ⟨result, next, hname, hnew, hsame, hnext⟩ := dedupedName_spec hkeeps hknown name hless
    have hcard := (Finset.card_insert_le (toLower result) (insert (toLower name) seen)).trans
      (Nat.succ_le_succ (Finset.card_insert_le (toLower name) seen))
    obtain ⟨results, hresults, hlength, hdistinct, houtside, hkept⟩ := ih hnext (by omega)
    refine ⟨result :: results, ?_, congrArg Nat.succ hlength, ?_, ?_, ?_⟩
    · rw [dedupedNames, hname]
      dsimp only
      rw [hresults]
      rfl
    · refine List.nodup_cons.mpr ⟨fun hmem => ?_, hdistinct⟩
      obtain ⟨other, hother, heq⟩ := List.mem_map.mp hmem
      refine houtside other hother ?_
      rw [heq]
      exact Finset.mem_insert_self _ _
    · intro other hother
      rcases List.mem_cons.mp hother with rfl | hother
      · exact hnew
      · exact fun hseen => houtside other hother (Finset.mem_insert_of_mem (Finset.mem_insert_of_mem hseen))
    · intro index other hother hseen hnames hgiven
      rcases index with - | index
      · obtain rfl := Option.some.inj hother
        exact congrArg some (hsame hseen)
      · rw [List.take_succ_cons, List.map_cons, List.mem_cons, not_or] at hnames hgiven
        refine hkept index other hother ?_ hnames.2 hgiven.2
        rw [Finset.mem_insert, Finset.mem_insert, not_or, not_or]
        exact ⟨hgiven.1, hnames.1, hseen⟩

/-- **Names never collide**, and every loop ends: for so many files, twice as many rounds are enough in each. -/
theorem dedupedNames_deduped (toLower : Text → Text) (hkeeps : KeepsNumbers toLower) (names : List Text) (fuel : ℕ)
    (hfuel : 2 * names.length ≤ fuel) :
    ∃ results, dedupedNames toLower fuel (fun _ => 0) names = some results ∧ Deduped toLower names results := by
  have henough : (∅ : Finset Text).card + 2 * names.length ≤ fuel := (Nat.zero_add _).trans_le hfuel
  obtain ⟨results, hresults, hlength, hdistinct, -, hkept⟩ := dedupedNames_spec hkeeps known_nil names henough
  exact ⟨results, hresults, hlength, hdistinct, fun index name hname => hkept index name hname (Finset.notMem_empty _)⟩

/-- ASCII letters in lower case. -/
def asciiToLower (text : Text) : Text := text.map fun unit => if 65 ≤ unit ∧ unit ≤ 90 then unit + 32 else unit

lemma asciiToLower_keepsNumbers : KeepsNumbers asciiToLower := by
  intro before after number
  have hdecimal : (decimal number).map (fun unit => if 65 ≤ unit ∧ unit ≤ 90 then unit + 32 else unit) =
      decimal number := by
    refine (List.map_congr_left fun unit hunit => if_neg fun hletter => ?_).trans (List.map_id _)
    have hdigit := Text.mem_decimal hunit
    exact absurd (hletter.1.trans hdigit.2) (by decide)
  rw [asciiToLower, suffix, List.map_append, List.map_append, List.map_append, List.map_append, hdecimal]
  rfl

/-- Two files of one name, with a third one that looks like a second of them. -/
theorem dedupedNames_three :
    ∃ results, dedupedNames asciiToLower 6 (fun _ => 0) [u "a (2).txt", u "a.txt", u "A.txt"] = some results ∧
      Deduped asciiToLower [u "a (2).txt", u "a.txt", u "A.txt"] results :=
  dedupedNames_deduped asciiToLower asciiToLower_keepsNumbers _ 6 (by decide)

/-! ### The archive -/

lemma Gathered.skip {before : List Text} {info : FileInfo} {infos : List FileInfo} {entries : ArchiveEntries}
    (h : Gathered toLower before infos entries) (hskip : info.archived = false) :
    Gathered toLower before (info :: infos) entries where
  distinct := h.distinct
  absolute := by rw [h.absolute, List.filter_cons_of_neg (by rw [hskip]; decide)]
  total := h.total

/-- The loop gathers the files that are left. -/
theorem gatherFilesFrom_gathered (hkeeps : KeepsNumbers toLower) {counts : Counts} {seen : Finset Text}
    (hknown : Known counts seen) (infos : List FileInfo) {fuel : ℕ} (hfuel : seen.card + 2 * infos.length ≤ fuel)
    {result : ArchiveEntries} (hresult : (result.list.map fun entry => toLower entry.name).Nodup)
    (hseen : ∀ entry ∈ result.list, toLower entry.name ∈ seen)
    (htotal : result.total = (result.list.map ArchiveEntry.size).sum) :
    ∃ gathered, gatherFilesFrom toLower fuel counts result infos = some gathered ∧
      ∀ entries, gathered = some entries → Gathered toLower (result.list.map ArchiveEntry.absolute) infos entries := by
  induction infos generalizing counts seen result with
  | nil =>
    refine ⟨_, rfl, fun entries hentries => ?_⟩
    obtain rfl := Option.some.inj hentries
    exact ⟨hresult, (List.append_nil _).symm, htotal⟩
  | cons info infos ih =>
    rw [List.length_cons] at hfuel
    rw [gatherFilesFrom]
    split_ifs with hdir hunread hfile
    · obtain ⟨gathered, hgathered, hspec⟩ := ih hknown (by omega) hresult hseen htotal
      exact ⟨gathered, hgathered, fun entries hentries =>
        (hspec entries hentries).skip (by rw [FileInfo.archived, hdir]; rfl)⟩
    · exact ⟨_, rfl, nofun⟩
    · obtain ⟨gathered, hgathered, hspec⟩ := ih hknown (by omega) hresult hseen htotal
      exact ⟨gathered, hgathered, fun entries hentries =>
        (hspec entries hentries).skip (by rw [FileInfo.archived, hfile, Bool.and_false])⟩
    · have hless : seen.card < fuel := by omega
      obtain ⟨name, next, hname, hnew, -, hnext⟩ := dedupedName_spec hkeeps hknown info.fileName hless
      have hcard := (Finset.card_insert_le (toLower name) (insert (toLower info.fileName) seen)).trans
        (Nat.succ_le_succ (Finset.card_insert_le (toLower info.fileName) seen))
      have hnames : ((result.list ++ [ArchiveEntry.mk info.absoluteFilePath name info.size]).map fun entry =>
          toLower entry.name).Nodup := by
        rw [List.map_append, List.map_singleton, List.nodup_append]
        refine ⟨hresult, List.nodup_singleton _, fun key hkey other hother heq => ?_⟩
        obtain ⟨entry, hentry, rfl⟩ := List.mem_map.mp hkey
        rw [List.mem_singleton.mp hother] at heq
        exact hnew (heq ▸ hseen entry hentry)
      obtain ⟨gathered, hgathered, hspec⟩ := @ih _ _ hnext (by omega)
        ⟨result.list ++ [⟨info.absoluteFilePath, name, info.size⟩], result.total + info.size⟩ hnames
        (fun entry hentry => by
          rcases List.mem_append.mp hentry with hentry | hentry
          · exact Finset.mem_insert_of_mem (Finset.mem_insert_of_mem (hseen entry hentry))
          · obtain rfl := List.mem_singleton.mp hentry
            exact Finset.mem_insert_self _ _)
        (by rw [htotal, List.map_append, List.sum_append, List.map_singleton, List.sum_singleton])
      rw [hname]
      refine ⟨gathered, hgathered, fun entries hentries => ⟨(hspec entries hentries).distinct, ?_,
        (hspec entries hentries).total⟩⟩
      rw [(hspec entries hentries).absolute, List.filter_cons_of_pos (by
        rw [FileInfo.archived, Bool.eq_false_iff.mpr hdir, Bool.eq_true_of_not_eq_false hfile]
        rfl), List.map_append, List.append_assoc]
      rfl

/-- **An archive has every file once**, in the order of the paths and under names that differ in lower case too; its
total is that of their sizes, and it is gathered to its end. -/
theorem gatherFiles_gathered (hkeeps : KeepsNumbers toLower) (infos : List FileInfo) {fuel : ℕ}
    (hfuel : 2 * infos.length ≤ fuel) :
    ∃ gathered, gatherFiles toLower fuel infos = some gathered ∧
      ∀ entries, gathered = some entries → Gathered toLower [] infos entries := by
  have henough : (∅ : Finset Text).card + 2 * infos.length ≤ fuel := (Nat.zero_add _).trans_le hfuel
  have hstart : ((ArchiveEntries.mk [] 0).list.map fun entry => toLower entry.name).Nodup := List.nodup_nil
  obtain ⟨gathered, hgathered, hspec⟩ :=
    gatherFilesFrom_gathered hkeeps known_nil infos henough hstart nofun rfl
  refine ⟨_, congrArg (Option.map _) hgathered, fun entries hentries => ?_⟩
  rw [Option.filter_eq_some_iff] at hentries
  exact hspec entries hentries.1

/-- Two files of one name in two folders. -/
theorem gatherFiles_two :
    let infos := [FileInfo.mk (u "/x/a.txt") (u "a.txt") false true true true 3,
      FileInfo.mk (u "/y/A.txt") (u "A.txt") false true true true 4]
    ∃ entries, gatherFiles asciiToLower 4 infos = some (some entries) ∧ Gathered asciiToLower [] infos entries := by
  intro infos
  obtain ⟨gathered, hgathered, hspec⟩ := gatherFiles_gathered asciiToLower_keepsNumbers infos (show 4 ≤ 4 from le_rfl)
  cases gathered with
  | none => exact absurd (congrArg (Option.map Option.isNone) hgathered) (by decide)
  | some entries => exact ⟨entries, hgathered, hspec entries rfl⟩

end Names

end FolderArchive
