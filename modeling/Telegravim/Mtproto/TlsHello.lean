import Telegravim.Mtproto.TlsRecords

set_option autoImplicit false

/-!
# The greeting in the disguise of TLS

The greeting of the server has four parts, two of them of a length that stands before them. It has to be of a limited
size and to carry a digest. The socket takes it apart anew with each arrival, as far as it has come; the outcome is that
of all bytes at once.

## Main definitions

* `Tls.greeting` — what the first bytes of the stream decide.
* `Tls.GoodHello` — a greeting as it has to be.

## Main results

* `Tls.GoodHello.greeting`, `Tls.goodHello_of_greeting` — the bytes decide for a good greeting.
* `Tls.readHello_spec` — the socket finds out what the bytes decide.
-/

namespace Tls

open Positional (bigEndian ofBigEndian)

section Greeting

variable (HmacSha256 : Bytes → Bytes → Bytes) (key digest : Bytes)

/-- The digest in a greeting. -/
def digestOf (hello : Bytes) : Bytes := (hello.drop kServerHelloDigestPosition).take kHelloDigestLength

/-- A greeting with zeros in place of the digest. -/
def zeroed (hello : Bytes) : Bytes :=
  hello.take kServerHelloDigestPosition ++ List.replicate kHelloDigestLength 0 ++
    hello.drop (kServerHelloDigestPosition + kHelloDigestLength)

/-- **A greeting as it has to be**: of four parts, with the two lengths before the second and the fourth; not too long,
long enough for the digest, and with the digest that the key gives. -/
structure GoodHello (hello : Bytes) : Prop where
  parts : ∃ part2 part4 : Bytes, part2.length < 65536 ∧ part4.length < 65536 ∧
    hello = kServerHelloPart1 ++ bigEndian kLengthSize part2.length ++ part2 ++
      (kServerHelloPart3 ++ bigEndian kLengthSize part4.length ++ part4)
  small : hello.length ≤ kMaxServerHelloLength
  long : kServerHelloDigestPosition + kHelloDigestLength ≤ hello.length
  good : digestOf hello = HmacSha256 key (digest ++ zeroed hello)

/-- What the first bytes of a stream decide: more of them are needed, up to a length, or they are no good greeting, or
so many of them are one. -/
inductive Greeting where
  | wait (length : ℕ)
  | bad
  | good (length : ℕ)

/-- The length of the first three parts of a greeting, with the length before the fourth. -/
def parts123Size (bytes : Bytes) : ℕ := 5 + ReadPartLength bytes 3 + 9 + 2

def goodParts12 (bytes : Bytes) : Prop :=
  parts123Size bytes ≤ kMaxServerHelloLength ∧ CheckPart bytes kServerHelloPart1 = true

/-- The length of a greeting. -/
def fullSize (bytes : Bytes) : ℕ := parts123Size bytes + ReadPartLength bytes (parts123Size bytes - 2)

def goodParts34 (bytes : Bytes) : Prop :=
  fullSize bytes ≤ kMaxServerHelloLength ∧
    CheckPart (bytes.drop (parts123Size bytes - 2 - 9)) kServerHelloPart3 = true

def goodDigest (bytes : Bytes) : Prop :=
  43 ≤ fullSize bytes ∧
    digestOf (bytes.take (fullSize bytes)) = HmacSha256 key (digest ++ zeroed (bytes.take (fullSize bytes)))

instance instDecidableGoodParts12 (bytes : Bytes) : Decidable (goodParts12 bytes) :=
  inferInstanceAs (Decidable (_ ∧ _))

instance instDecidableGoodParts34 (bytes : Bytes) : Decidable (goodParts34 bytes) :=
  inferInstanceAs (Decidable (_ ∧ _))

instance instDecidableGoodDigest (bytes : Bytes) : Decidable (goodDigest HmacSha256 key digest bytes) :=
  inferInstanceAs (Decidable (_ ∧ _))

/-- **What the first bytes of a stream decide.** -/
def greeting (bytes : Bytes) : Greeting :=
  if bytes.length < 5 then .wait 5
  else if ¬goodParts12 bytes then .bad
  else if bytes.length < parts123Size bytes then .wait (parts123Size bytes)
  else if ¬goodParts34 bytes then .bad
  else if bytes.length < fullSize bytes then .wait (fullSize bytes)
  else if ¬goodDigest HmacSha256 key digest bytes then .bad
  else .good (fullSize bytes)

/-! ### The bytes decide for a good greeting -/

variable {HmacSha256 key digest}

lemma parts123Size_append {bytes : Bytes} (h : 5 ≤ bytes.length) (more : Bytes) :
    parts123Size (bytes ++ more) = parts123Size bytes := by
  rw [parts123Size, parts123Size, ReadPartLength_append (by rw [kLengthSize]; omega)]

lemma goodParts12_append {bytes : Bytes} (h : 5 ≤ bytes.length) (more : Bytes) :
    goodParts12 (bytes ++ more) ↔ goodParts12 bytes := by
  have hcheck : kServerHelloPart1.length ≤ bytes.length := le_trans (by decide) h
  rw [goodParts12, goodParts12, parts123Size_append h, CheckPart_append hcheck]

lemma sixteen_le_parts123Size (bytes : Bytes) : 16 ≤ parts123Size bytes := by
  rw [parts123Size]
  omega

lemma fullSize_append {bytes : Bytes} (h : parts123Size bytes ≤ bytes.length) (more : Bytes) :
    fullSize (bytes ++ more) = fullSize bytes := by
  have hsixteen := sixteen_le_parts123Size bytes
  rw [fullSize, fullSize, parts123Size_append (by omega), ReadPartLength_append (by rw [kLengthSize]; omega)]

lemma goodParts34_append {bytes : Bytes} (h : parts123Size bytes ≤ bytes.length) (more : Bytes) :
    goodParts34 (bytes ++ more) ↔ goodParts34 bytes := by
  have hsixteen := sixteen_le_parts123Size bytes
  have hpart : kServerHelloPart3.length = 9 := rfl
  rw [goodParts34, goodParts34, fullSize_append h, parts123Size_append (by omega),
    List.drop_append_of_le_length (by omega), CheckPart_append (by rw [List.length_drop, hpart]; omega)]

lemma parts123Size_le_fullSize (bytes : Bytes) : parts123Size bytes ≤ fullSize bytes := Nat.le_add_right _ _

lemma goodDigest_append {bytes : Bytes} (h : fullSize bytes ≤ bytes.length) (more : Bytes) :
    goodDigest HmacSha256 key digest (bytes ++ more) ↔ goodDigest HmacSha256 key digest bytes := by
  rw [goodDigest, goodDigest, fullSize_append (le_trans (parts123Size_le_fullSize bytes) h),
    List.take_append_of_le_length h]

/-- Once the bytes have decided, more of them change nothing. -/
theorem greeting_append {bytes : Bytes} (h : ∀ length, greeting HmacSha256 key digest bytes ≠ .wait length)
    (more : Bytes) : greeting HmacSha256 key digest (bytes ++ more) = greeting HmacSha256 key digest bytes := by
  have hlength : (bytes ++ more).length = bytes.length + more.length := List.length_append
  by_cases hfive : bytes.length < 5
  · exact absurd (if_pos hfive) (h 5)
  have h12 := goodParts12_append (Nat.le_of_not_lt hfive) more
  have hsize := parts123Size_append (Nat.le_of_not_lt hfive) more
  rw [greeting, if_neg hfive] at h
  rw [greeting, greeting, if_neg hfive, if_neg (by omega), hsize]
  by_cases hgood12 : goodParts12 bytes
  swap
  · rw [if_pos hgood12, if_pos (mt h12.mp hgood12)]
  rw [if_neg (not_not_intro hgood12)] at h
  rw [if_neg (not_not_intro hgood12), if_neg (not_not_intro (h12.mpr hgood12))]
  by_cases hparts : bytes.length < parts123Size bytes
  · exact absurd (if_pos hparts) (h _)
  have h34 := goodParts34_append (Nat.le_of_not_lt hparts) more
  have hfull := fullSize_append (Nat.le_of_not_lt hparts) more
  rw [if_neg hparts] at h
  rw [if_neg hparts, if_neg (by omega), hfull]
  by_cases hgood34 : goodParts34 bytes
  swap
  · rw [if_pos hgood34, if_pos (mt h34.mp hgood34)]
  rw [if_neg (not_not_intro hgood34)] at h
  rw [if_neg (not_not_intro hgood34), if_neg (not_not_intro (h34.mpr hgood34))]
  by_cases hwhole : bytes.length < fullSize bytes
  · exact absurd (if_pos hwhole) (h _)
  have hdigest : goodDigest HmacSha256 key digest (bytes ++ more) ↔ goodDigest HmacSha256 key digest bytes :=
    goodDigest_append (Nat.le_of_not_lt hwhole) more
  rw [if_neg hwhole, if_neg (by omega)]
  exact if_congr (not_congr hdigest) rfl rfl

/-- What is known of the bytes where they are a good greeting. -/
lemma greeting_good {bytes : Bytes} {length : ℕ} (h : greeting HmacSha256 key digest bytes = .good length) :
    length = fullSize bytes ∧ fullSize bytes ≤ bytes.length ∧ goodParts12 bytes ∧ goodParts34 bytes ∧
      goodDigest HmacSha256 key digest bytes := by
  rw [greeting] at h
  split_ifs at h with hfive h12 hparts h34 hwhole hdigest
  cases h
  exact ⟨rfl, Nat.le_of_not_lt hwhole, h12, h34, hdigest⟩

/-- **Where the bytes decide for a good greeting** there is one. -/
theorem goodHello_of_greeting {bytes : Bytes} {length : ℕ} (h : greeting HmacSha256 key digest bytes = .good length) :
    length ≤ bytes.length ∧ GoodHello HmacSha256 key digest (bytes.take length) := by
  obtain ⟨rfl, hwhole, h12, h34, hdigest⟩ := greeting_good h
  have hle := parts123Size_le_fullSize bytes
  have hfull : fullSize bytes = parts123Size bytes + ReadPartLength bytes (parts123Size bytes - 2) := rfl
  have hparts : parts123Size bytes = 5 + ReadPartLength bytes 3 + 9 + 2 := rfl
  have hlength : (bytes.take (fullSize bytes)).length = fullSize bytes := by
    rw [List.length_take]
    omega
  generalize h2 : ReadPartLength bytes 3 = length2 at hparts
  generalize h4 : ReadPartLength bytes (parts123Size bytes - 2) = length4 at hfull
  have hpart1 : bytes.take 3 = kServerHelloPart1 := CheckPart_eq_true h12.2
  have hlength2 : (bytes.drop 3).take 2 = bigEndian kLengthSize length2 := by
    rw [← h2, bigEndian_ReadPartLength (by omega)]
    rfl
  have hpart3 : (bytes.drop (3 + (2 + length2))).take 9 = kServerHelloPart3 := by
    have hplace : parts123Size bytes - 2 - 9 = 3 + (2 + length2) := by omega
    have hcheck := CheckPart_eq_true h34.2
    rwa [hplace] at hcheck
  have hlength4 : (bytes.drop (3 + (2 + length2) + 9)).take 2 = bigEndian kLengthSize length4 := by
    have hplace : parts123Size bytes - 2 = 3 + (2 + length2) + 9 := by omega
    rw [← h4, bigEndian_ReadPartLength (by omega), hplace]
    rfl
  have hpart2 : ((bytes.drop 5).take length2).length = length2 := by
    rw [List.length_take, List.length_drop]
    omega
  have hpart4 : ((bytes.drop (parts123Size bytes)).take length4).length = length4 := by
    rw [List.length_take, List.length_drop]
    omega
  refine ⟨hwhole, ⟨(bytes.drop 5).take length2, (bytes.drop (parts123Size bytes)).take length4, ?_, ?_, ?_⟩, ?_, ?_,
    hdigest.2⟩
  · rw [hpart2, ← h2]
    exact ReadPartLength_lt _ _
  · rw [hpart4, ← h4]
    exact ReadPartLength_lt _ _
  · have hsum : fullSize bytes = 3 + (2 + length2) + (9 + (2 + length4)) := by omega
    have hfive : (bytes.drop 3).drop 2 = bytes.drop 5 := List.drop_drop
    have hbehind : ((bytes.drop (3 + (2 + length2))).drop 9).drop 2 = bytes.drop (parts123Size bytes) := by
      rw [List.drop_drop, List.drop_drop]
      exact congrArg bytes.drop (by omega)
    have hfirst : bytes.take (3 + (2 + length2)) =
        kServerHelloPart1 ++ bigEndian kLengthSize length2 ++ (bytes.drop 5).take length2 := by
      rw [List.take_add, List.take_add, hpart1, hlength2, hfive, List.append_assoc]
    have hsecond : (bytes.drop (3 + (2 + length2))).take (9 + (2 + length4)) =
        kServerHelloPart3 ++ bigEndian kLengthSize length4 ++ (bytes.drop (parts123Size bytes)).take length4 := by
      rw [List.take_add, List.take_add, hpart3, hbehind, List.drop_drop, hlength4, List.append_assoc]
    rw [hpart2, hpart4, hsum, List.take_add, hfirst, hsecond]
  · rw [hlength]
    exact h34.1
  · rw [hlength]
    exact hdigest.1

lemma CheckPart_append_left (check more : Bytes) : CheckPart (check ++ more) check = true := by
  rw [CheckPart, if_neg (by rw [List.length_append]; omega), List.take_left, decide_eq_true rfl]

lemma ReadPartLength_append_left {before : Bytes} {offset length : ℕ} (hoffset : before.length = offset)
    (hlength : length < 65536) (more : Bytes) :
    ReadPartLength (before ++ (bigEndian kLengthSize length ++ more)) offset = length := by
  rw [ReadPartLength, List.drop_left' hoffset, List.take_left' (Positional.length_bigEndian _ _),
    Positional.ofBigEndian_bigEndian]
  exact Nat.mod_eq_of_lt hlength

/-- **A good greeting** is what the bytes decide for. -/
theorem GoodHello.greeting {hello : Bytes} (h : GoodHello HmacSha256 key digest hello) (rest : Bytes) :
    Tls.greeting HmacSha256 key digest (hello ++ rest) = .good hello.length := by
  obtain ⟨⟨part2, part4, hpart2, hpart4, hhello⟩, hsmall, hlong, hgood⟩ := h
  have htwo (length : ℕ) : (bigEndian kLengthSize length).length = 2 := Positional.length_bigEndian _ _
  have hone : kServerHelloPart1.length = 3 := rfl
  have hthree : kServerHelloPart3.length = 9 := rfl
  have hbytes : hello ++ rest = kServerHelloPart1 ++ (bigEndian kLengthSize part2.length ++
      (part2 ++ (kServerHelloPart3 ++ (bigEndian kLengthSize part4.length ++ (part4 ++ rest))))) := by
    rw [hhello]
    simp only [List.append_assoc]
  have hlength : hello.length = 5 + part2.length + 9 + 2 + part4.length := by
    rw [hhello]
    simp only [List.length_append, htwo, hone, hthree]
    omega
  have hparts : parts123Size (hello ++ rest) = 5 + part2.length + 9 + 2 := by
    rw [parts123Size, hbytes, ReadPartLength_append_left hone hpart2]
  have hfull : fullSize (hello ++ rest) = hello.length := by
    have hbefore : hello ++ rest = (kServerHelloPart1 ++ bigEndian kLengthSize part2.length ++ part2 ++
        kServerHelloPart3) ++ (bigEndian kLengthSize part4.length ++ (part4 ++ rest)) := by
      rw [hbytes]
      simp only [List.append_assoc]
    have hplace : (kServerHelloPart1 ++ bigEndian kLengthSize part2.length ++ part2 ++ kServerHelloPart3).length =
        parts123Size (hello ++ rest) - 2 := by
      rw [hparts]
      simp only [List.length_append, htwo, hone, hthree]
      omega
    have hread := ReadPartLength_append_left hplace hpart4 (part4 ++ rest)
    rw [← hbefore] at hread
    rw [fullSize, hread, hparts, hlength]
  have hsize : (hello ++ rest).length = hello.length + rest.length := List.length_append
  have h12 : goodParts12 (hello ++ rest) := by
    refine ⟨by omega, ?_⟩
    rw [hbytes]
    exact CheckPart_append_left _ _
  have h34 : goodParts34 (hello ++ rest) := by
    refine ⟨by rw [hfull]; exact hsmall, ?_⟩
    have hbefore : hello ++ rest = (kServerHelloPart1 ++ bigEndian kLengthSize part2.length ++ part2) ++
        (kServerHelloPart3 ++ (bigEndian kLengthSize part4.length ++ (part4 ++ rest))) := by
      rw [hbytes]
      simp only [List.append_assoc]
    have hplace : (kServerHelloPart1 ++ bigEndian kLengthSize part2.length ++ part2).length =
        parts123Size (hello ++ rest) - 2 - 9 := by
      rw [hparts]
      simp only [List.length_append, htwo, hone]
      omega
    rw [← hplace, hbefore, List.drop_left]
    exact CheckPart_append_left _ _
  have hdigest : goodDigest HmacSha256 key digest (hello ++ rest) := by
    rw [goodDigest, hfull, List.take_left]
    exact ⟨hlong, hgood⟩
  rw [Tls.greeting, if_neg (by omega), if_neg (not_not_intro h12), if_neg (by omega), if_neg (not_not_intro h34),
    if_neg (by omega), if_neg (not_not_intro hdigest), hfull]

/-! ### The socket finds out what the bytes decide -/

/-- A socket that waits for the greeting with another buffer, after all that has come was read. -/
def helloAt (socket : TlsSocket) (incoming : Bytes) (serverHelloLength : ℕ) : TlsSocket :=
  { socket with incoming := incoming, available := [], serverHelloLength := serverHelloLength }

/-- A socket that has had its greeting, with what came behind it. -/
def greeted (socket : TlsSocket) (rest : Bytes) (serverHelloLength : ℕ) : TlsSocket :=
  let socket := helloAt socket rest serverHelloLength
  let socket := if socket.incoming ≠ [] then invokeQueued socket .checkNextPacket else socket
  fire { socket with incomingGoodDataOffset := 0, incomingGoodDataLimit := 0, state := .Connected } .connected

lemma shiftIncomingBy_helloAt {socket : TlsSocket} (hoffset : socket.incomingGoodDataOffset = 0)
    (hlimit : socket.incomingGoodDataLimit = 0) {before : Bytes} {amount : ℕ} (hbefore : before.length = amount)
    (rest : Bytes) (length : ℕ) :
    shiftIncomingBy (helloAt socket (before ++ rest) length) amount = some (helloAt socket rest length) := by
  have hshifted := @shiftIncomingBy_eq (helloAt socket (before ++ rest) length) hoffset hlimit amount
  have hincoming : (helloAt socket (before ++ rest) length).incoming.drop amount = rest := List.drop_left' hbefore
  rw [hshifted, hincoming]
  rfl

variable (HmacSha256 key digest) in
/-- What becomes of a socket by what the bytes decide. -/
inductive Hears (socket : TlsSocket) (seen : Bytes) : TlsSocket → Prop
  | wait (length : ℕ) (decided : greeting HmacSha256 key digest seen = .wait length) :
    Hears socket seen (helloAt socket (digest ++ seen) length)
  | bad (incoming : Bytes) (length : ℕ) (decided : greeting HmacSha256 key digest seen = .bad) :
    Hears socket seen (handleError (helloAt socket incoming length))
  | good (length : ℕ) (decided : greeting HmacSha256 key digest seen = .good length) :
    Hears socket seen (greeted socket (seen.drop length) length)

lemma requiredHelloPartReady_helloAt (socket : TlsSocket) {seen : Bytes} (hdigest : digest.length = kHelloDigestLength)
    {length : ℕ} : requiredHelloPartReady (helloAt socket (digest ++ seen) length) = false ↔ seen.length < length := by
  have hincoming : (helloAt socket (digest ++ seen) length).incoming.length = kHelloDigestLength + seen.length := by
    rw [← hdigest]
    exact List.length_append
  have hlength : (helloAt socket (digest ++ seen) length).serverHelloLength = length := rfl
  rw [requiredHelloPartReady, decide_eq_false_iff_not, hincoming, hlength]
  omega

lemma ReadPartLength_take {data : Bytes} {offset count : ℕ} (h : offset + kLengthSize ≤ count) :
    ReadPartLength (data.take count) offset = ReadPartLength data offset := by
  rw [ReadPartLength, ReadPartLength, List.drop_take, List.take_take, min_eq_left (by omega)]

lemma CheckPart_take {data check : Bytes} {count : ℕ} (h : check.length ≤ count) :
    CheckPart (data.take count) check = CheckPart data check := by
  have hlength := List.length_take (i := count) (l := data)
  rw [CheckPart, CheckPart, List.take_take, min_eq_left h]
  exact if_congr (by omega) rfl rfl

section Reading

variable {socket : TlsSocket} {seen : Bytes} (hdigest : digest.length = kHelloDigestLength)
  (hkey : socket.keyFromSecret = key) (hoffset : socket.incomingGoodDataOffset = 0)
  (hlimit : socket.incomingGoodDataLimit = 0)

include hdigest hkey hoffset hlimit

/-- The digest is checked when all of the greeting has come. -/
lemma checkHelloDigest_hears (hwhole : fullSize seen ≤ seen.length) (hfive : ¬seen.length < 5) (h12 : goodParts12 seen)
    (h34 : goodParts34 seen) :
    ∃ next, checkHelloDigest HmacSha256 (helloAt socket (digest ++ seen) (fullSize seen)) = some next ∧
      Hears HmacSha256 key digest socket seen next := by
  subst hkey
  have hle := parts123Size_le_fullSize seen
  have hgreeting : Tls.greeting HmacSha256 socket.keyFromSecret digest seen =
      if ¬goodDigest HmacSha256 socket.keyFromSecret digest seen then .bad else .good (fullSize seen) := by
    rw [Tls.greeting, if_neg hfive, if_neg (not_not_intro h12), if_neg (by omega), if_neg (not_not_intro h34),
      if_neg (by omega)]
  have htake : (digest ++ seen).take (kHelloDigestLength + fullSize seen) = digest ++ seen.take (fullSize seen) := by
    rw [← hdigest, List.take_length_add_append]
  have hdrop (count : ℕ) (bytes : Bytes) : (digest ++ bytes).drop (kHelloDigestLength + count) = bytes.drop count := by
    rw [← hdigest, List.drop_length_add_append]
  have hplace : kHelloDigestLength + kServerHelloDigestPosition + kHelloDigestLength =
      kHelloDigestLength + (kServerHelloDigestPosition + kHelloDigestLength) := Nat.add_assoc _ _ _
  have hbefore (bytes : Bytes) : (digest ++ bytes).take (kHelloDigestLength + kServerHelloDigestPosition) =
      digest ++ bytes.take kServerHelloDigestPosition := by
    rw [← hdigest, List.take_length_add_append]
  have hincoming : (helloAt socket (digest ++ seen) (fullSize seen)).incoming = digest ++ seen := rfl
  have hlength : (helloAt socket (digest ++ seen) (fullSize seen)).serverHelloLength = fullSize seen := rfl
  have hsmall : kServerHelloDigestPosition + kHelloDigestLength = 43 := rfl
  rw [checkHelloDigest, hlength, hsmall]
  by_cases hlong : fullSize seen < 43
  · have hbad : ¬goodDigest HmacSha256 socket.keyFromSecret digest seen := fun h => absurd h.1 (by omega)
    rw [if_pos hbad] at hgreeting
    rw [if_pos hlong]
    exact ⟨_, rfl, .bad _ _ hgreeting⟩
  rw [if_neg hlong]
  dsimp only
  rw [hincoming, htake, hplace, hbefore, hdrop, hdrop, hdrop]
  have hzeroed : digest ++ (seen.take (fullSize seen)).take kServerHelloDigestPosition ++
      List.replicate kHelloDigestLength 0 ++
        (seen.take (fullSize seen)).drop (kServerHelloDigestPosition + kHelloDigestLength) =
      digest ++ zeroed (seen.take (fullSize seen)) := by
    rw [zeroed]
    simp only [List.append_assoc]
  have hdigestOf : ((seen.take (fullSize seen)).drop kServerHelloDigestPosition).take kHelloDigestLength =
      digestOf (seen.take (fullSize seen)) := rfl
  have hsize : (seen.take (fullSize seen)).length = fullSize seen := by
    rw [List.length_take]
    omega
  have hkeyAt : (helloAt socket (digest ++ seen) (fullSize seen)).keyFromSecret = socket.keyFromSecret := rfl
  rw [hzeroed, hdigestOf, hkeyAt]
  by_cases hgood : digestOf (seen.take (fullSize seen)) =
      HmacSha256 socket.keyFromSecret (digest ++ zeroed (seen.take (fullSize seen)))
  · rw [if_neg (not_not_intro ⟨Nat.le_of_not_lt hlong, hgood⟩)] at hgreeting
    have hshift : (digest ++ zeroed (seen.take (fullSize seen))).length =
        (digest ++ seen.take (fullSize seen)).length := by
      rw [List.length_append, List.length_append, hsize, zeroed, List.length_append, List.length_append,
        List.length_take, List.length_drop, List.length_replicate, hsize, hsmall, kServerHelloDigestPosition,
        kHelloDigestLength]
      omega
    have hshifted := shiftIncomingBy_helloAt hoffset hlimit hshift (seen.drop (fullSize seen)) (fullSize seen)
    rw [if_neg (not_not_intro hgood)]
    exact ⟨_, congrArg (Option.map _) hshifted, .good _ hgreeting⟩
  · have hbad : ¬goodDigest HmacSha256 socket.keyFromSecret digest seen := fun h => hgood h.2
    rw [if_pos hbad] at hgreeting
    rw [if_pos hgood]
    exact ⟨_, rfl, .bad (digest ++ zeroed (seen.take (fullSize seen)) ++ seen.drop (fullSize seen)) _ hgreeting⟩

/-- The third part is checked, unless that was done before. -/
lemma checkHelloParts34_hears (again : TlsSocket → Option TlsSocket) {length : ℕ}
    (hagain : ∀ length, seen.length < length →
      again (helloAt socket (digest ++ seen) length) = some (helloAt socket (digest ++ seen) length))
    (hparts : parts123Size seen ≤ seen.length) (hfive : ¬seen.length < 5) (h12 : goodParts12 seen)
    (hlength : length = parts123Size seen ∨ length = fullSize seen ∧ fullSize seen ≤ seen.length ∧ goodParts34 seen) :
    ∃ next, checkHelloParts34 HmacSha256 again (helloAt socket (digest ++ seen) length) (parts123Size seen) = some next ∧
      Hears HmacSha256 key digest socket seen next := by
  have hsixteen := sixteen_le_parts123Size seen
  have hle := parts123Size_le_fullSize seen
  have hthree : kServerHelloPart3.length = 9 := rfl
  have htwo : kLengthSize = 2 := rfl
  have hgreeting : Tls.greeting HmacSha256 key digest seen =
      if ¬goodParts34 seen then .bad
      else if seen.length < fullSize seen then .wait (fullSize seen)
      else if ¬goodDigest HmacSha256 key digest seen then .bad
      else .good (fullSize seen) := by
    rw [Tls.greeting, if_neg hfive, if_neg (not_not_intro h12), if_neg (by omega)]
  have hdata : ((digest ++ seen).drop kHelloDigestLength).take (parts123Size seen) = seen.take (parts123Size seen) := by
    rw [← hdigest, List.drop_left]
  have hfull : parts123Size seen + ReadPartLength (seen.take (parts123Size seen)) (parts123Size seen - kLengthSize) =
      fullSize seen := by
    rw [fullSize, ReadPartLength_take (by omega), htwo]
  have hready (length : ℕ) : requiredHelloPartReady (helloAt socket (digest ++ seen) length) = false ↔
      seen.length < length := requiredHelloPartReady_helloAt _ hdigest
  have hwhole (h34 : goodParts34 seen) (hcome : fullSize seen ≤ seen.length) :
      ∃ next, checkHelloDigest HmacSha256 (helloAt socket (digest ++ seen) (fullSize seen)) = some next ∧
        Hears HmacSha256 key digest socket seen next :=
    checkHelloDigest_hears hdigest hkey hoffset hlimit hcome hfive h12 h34
  rw [checkHelloParts34]
  dsimp only
  rw [show (helloAt socket (digest ++ seen) length).incoming = digest ++ seen from rfl, hdata, hfull, hthree, htwo,
    show (helloAt socket (digest ++ seen) length).serverHelloLength = length from rfl]
  by_cases hbig : fullSize seen > kMaxServerHelloLength
  · rw [if_pos fun h34 : goodParts34 seen => absurd h34.1 (Nat.not_le_of_lt hbig)] at hgreeting
    rw [if_pos hbig]
    exact ⟨_, rfl, .bad _ _ hgreeting⟩
  rw [if_neg hbig]
  by_cases hfirst : length = parts123Size seen
  swap
  · obtain ⟨rfl, hcome, h34⟩ := hlength.resolve_left hfirst
    rw [if_neg hfirst]
    exact hwhole h34 hcome
  have hcheck : CheckPart ((seen.take (parts123Size seen)).drop (parts123Size seen - 2 - 9)) kServerHelloPart3 =
      CheckPart (seen.drop (parts123Size seen - 2 - 9)) kServerHelloPart3 := by
    rw [List.drop_take, CheckPart_take (by omega)]
  rw [if_pos hfirst, hcheck]
  by_cases hpart : CheckPart (seen.drop (parts123Size seen - 2 - 9)) kServerHelloPart3 = false
  · rw [if_pos fun h34 : goodParts34 seen => Bool.eq_not.mp h34.2 hpart] at hgreeting
    rw [if_pos hpart]
    exact ⟨_, rfl, .bad _ _ hgreeting⟩
  have h34 : goodParts34 seen := ⟨Nat.le_of_not_lt hbig, Bool.eq_true_of_not_eq_false hpart⟩
  rw [if_neg (not_not_intro h34)] at hgreeting
  rw [if_neg hpart]
  by_cases hcome : seen.length < fullSize seen
  · rw [if_pos hcome] at hgreeting
    exact ⟨_, (if_pos ((hready _).mpr hcome)).trans (hagain _ hcome), .wait _ hgreeting⟩
  · obtain ⟨next, hnext, hhears⟩ := hwhole h34 (Nat.le_of_not_lt hcome)
    exact ⟨next, (if_neg (mt (hready _).mp hcome)).trans hnext, hhears⟩

/-- The first part is checked, unless that was done before. -/
lemma checkHelloParts12_hears (again : TlsSocket → Option TlsSocket) {length : ℕ}
    (hagain : ∀ length, seen.length < length →
      again (helloAt socket (digest ++ seen) length) = some (helloAt socket (digest ++ seen) length))
    (hfive : ¬seen.length < 5)
    (hlength : length = 5 ∨ length ≤ seen.length ∧ goodParts12 seen ∧
      (length = parts123Size seen ∨ length = fullSize seen ∧ goodParts34 seen)) :
    ∃ next, checkHelloParts12 HmacSha256 again (helloAt socket (digest ++ seen) length) 5 = some next ∧
      Hears HmacSha256 key digest socket seen next := by
  have hsixteen := sixteen_le_parts123Size seen
  have hle := parts123Size_le_fullSize seen
  have hone : kServerHelloPart1.length = 3 := rfl
  have hthree : kServerHelloPart3.length = 9 := rfl
  have htwo : kLengthSize = 2 := rfl
  have hgreeting : ¬goodParts12 seen → Tls.greeting HmacSha256 key digest seen = .bad := by
    intro h12
    rw [Tls.greeting, if_neg hfive, if_pos h12]
  have hdata : ((digest ++ seen).drop kHelloDigestLength).take 5 = seen.take 5 := by
    rw [← hdigest, List.drop_left]
  have hparts : 5 + ReadPartLength (seen.take 5) (5 - 2) + 9 + 2 = parts123Size seen := by
    rw [parts123Size, ReadPartLength_take (by omega)]
  have hready (length : ℕ) : requiredHelloPartReady (helloAt socket (digest ++ seen) length) = false ↔
      seen.length < length := requiredHelloPartReady_helloAt _ hdigest
  rw [checkHelloParts12]
  dsimp only
  rw [show (helloAt socket (digest ++ seen) length).incoming = digest ++ seen from rfl, hdata, hone, hthree, htwo,
    hparts,
    show (helloAt socket (digest ++ seen) length).serverHelloLength = length from rfl]
  by_cases hbig : parts123Size seen > kMaxServerHelloLength
  · rw [if_pos hbig]
    exact ⟨_, rfl, .bad _ _ (hgreeting fun h12 => absurd h12.1 (Nat.not_le_of_lt hbig))⟩
  rw [if_neg hbig]
  by_cases hfirst : length = 5
  swap
  · obtain ⟨hcome, h12, hlength⟩ := hlength.resolve_left hfirst
    rw [if_neg hfirst]
    refine checkHelloParts34_hears hdigest hkey hoffset hlimit again hagain ?_ hfive h12 ?_
    · rcases hlength with rfl | ⟨rfl, -⟩
      · exact hcome
      · exact hle.trans hcome
    · rcases hlength with rfl | ⟨rfl, h34⟩
      · exact .inl rfl
      · exact .inr ⟨rfl, hcome, h34⟩
  have hcheck : CheckPart ((seen.take 5).drop (5 - 2 - 3)) kServerHelloPart1 = CheckPart seen kServerHelloPart1 :=
    CheckPart_take (by decide)
  rw [if_pos hfirst, hcheck]
  by_cases hpart : CheckPart seen kServerHelloPart1 = false
  · rw [if_pos hpart]
    exact ⟨_, rfl, .bad _ _ (hgreeting fun h12 => Bool.eq_not.mp h12.2 hpart)⟩
  have h12 : goodParts12 seen := ⟨Nat.le_of_not_lt hbig, Bool.eq_true_of_not_eq_false hpart⟩
  rw [if_neg hpart]
  by_cases hcome : seen.length < parts123Size seen
  · have hwait : Tls.greeting HmacSha256 key digest seen = .wait (parts123Size seen) := by
      rw [Tls.greeting, if_neg hfive, if_neg (not_not_intro h12), if_pos hcome]
    exact ⟨_, (if_pos ((hready _).mpr hcome)).trans (hagain _ hcome), .wait _ hwait⟩
  · obtain ⟨next, hnext, hhears⟩ := checkHelloParts34_hears hdigest hkey hoffset hlimit again hagain
      (Nat.le_of_not_lt hcome) hfive h12 (.inl rfl)
    exact ⟨next, (if_neg (mt (hready _).mp hcome)).trans hnext, hhears⟩

end Reading

/-- What is known of the bytes where more of them are needed. -/
lemma greeting_wait {bytes : Bytes} {length : ℕ} (h : greeting HmacSha256 key digest bytes = .wait length) :
    bytes.length < length ∧ (length = 5 ∨ 5 ≤ bytes.length ∧ goodParts12 bytes ∧ (length = parts123Size bytes ∨
      parts123Size bytes ≤ bytes.length ∧ length = fullSize bytes ∧ goodParts34 bytes)) := by
  rw [greeting] at h
  split_ifs at h with hfive h12 hparts h34 hwhole
  · cases h
    exact ⟨hfive, .inl rfl⟩
  · cases h
    exact ⟨hparts, .inr ⟨Nat.le_of_not_lt hfive, h12, .inl rfl⟩⟩
  · cases h
    exact ⟨hwhole, .inr ⟨Nat.le_of_not_lt hfive, h12, .inr ⟨Nat.le_of_not_lt hparts, rfl, h34⟩⟩⟩

/-- What was needed, for more bytes. -/
lemma greeting_wait_append {bytes more : Bytes} {length : ℕ}
    (h : greeting HmacSha256 key digest bytes = .wait length) :
    length = 5 ∨ goodParts12 (bytes ++ more) ∧
      (length = parts123Size (bytes ++ more) ∨ length = fullSize (bytes ++ more) ∧ goodParts34 (bytes ++ more)) := by
  obtain ⟨-, hfive | ⟨hfive, h12, hparts | ⟨hparts, hfull, h34⟩⟩⟩ := greeting_wait h
  · exact .inl hfive
  · exact .inr ⟨(goodParts12_append hfive more).mpr h12, .inl (hparts.trans (parts123Size_append hfive more).symm)⟩
  · exact .inr ⟨(goodParts12_append hfive more).mpr h12,
      .inr ⟨hfull.trans (fullSize_append hparts more).symm, (goodParts34_append hparts more).mpr h34⟩⟩

/-- Where the bytes do not reach what was needed, the same is needed. -/
lemma greeting_wait_of_short {bytes more : Bytes} {length : ℕ}
    (h : greeting HmacSha256 key digest bytes = .wait length) (hshort : (bytes ++ more).length < length) :
    greeting HmacSha256 key digest (bytes ++ more) = .wait length := by
  have hbytes := (greeting_wait h).1
  have happend : (bytes ++ more).length = bytes.length + more.length := List.length_append
  rw [greeting] at h ⊢
  split_ifs at h with hfive h12 hparts h34 hwhole
  · cases h
    exact if_pos hshort
  · cases h
    rw [if_neg (by omega), if_neg (not_not_intro ((goodParts12_append (Nat.le_of_not_lt hfive) more).mpr h12)),
      parts123Size_append (Nat.le_of_not_lt hfive), if_pos hshort]
  · cases h
    rw [if_neg (by omega), if_neg (not_not_intro ((goodParts12_append (Nat.le_of_not_lt hfive) more).mpr h12)),
      parts123Size_append (Nat.le_of_not_lt hfive), if_neg (by omega),
      if_neg (not_not_intro ((goodParts34_append (Nat.le_of_not_lt hparts) more).mpr h34)),
      fullSize_append (Nat.le_of_not_lt hparts), if_pos hshort]

/-- The socket has read some bytes of the greeting and knows how many are needed. -/
structure Awaits (HmacSha256 : Bytes → Bytes → Bytes) (key digest : Bytes) (socket : TlsSocket) (seen : Bytes) :
    Prop where
  key_eq : socket.keyFromSecret = key
  offset : socket.incomingGoodDataOffset = 0
  limit : socket.incomingGoodDataLimit = 0
  incoming : socket.incoming = digest ++ seen
  needed : greeting HmacSha256 key digest seen = .wait socket.serverHelloLength ∨
    seen = [] ∧ socket.serverHelloLength = 0

/-- Nothing is read where nothing has come. -/
lemma readHello_again {socket : TlsSocket} {seen : Bytes} (hdigest : digest.length = kHelloDigestLength) {length : ℕ}
    (hshort : seen.length < length) (depth : ℕ) :
    readHello HmacSha256 (depth + 1) (helloAt socket (digest ++ seen) length) =
      some (helloAt socket (digest ++ seen) length) := by
  have hready := (requiredHelloPartReady_helloAt socket hdigest).mpr hshort
  have hlength : (helloAt socket (digest ++ seen) length).serverHelloLength ≠ 0 := Nat.ne_zero_of_lt hshort
  have hfill : fill (helloAt socket (digest ++ seen) length) = helloAt socket (digest ++ seen) length := by
    rw [fill, hready, if_neg nofun]
    exact congrArg (fun incoming => helloAt socket incoming length) (List.append_nil _)
  rw [readHello]
  rw [if_neg hlength, hfill, if_pos hready]

/-- **The socket finds out** what the bytes decide. -/
theorem readHello_spec {socket : TlsSocket} {seen : Bytes} (hdigest : digest.length = kHelloDigestLength)
    (h : Awaits HmacSha256 key digest socket seen) :
    ∃ next, readHello HmacSha256 3 socket = some next ∧
      Hears HmacSha256 key digest socket (seen ++ socket.available) next := by
  have hfive : kServerHelloPart1.length + kLengthSize = 5 := rfl
  obtain ⟨length, hneeded, hlength⟩ : ∃ length, greeting HmacSha256 key digest seen = .wait length ∧
      (if socket.serverHelloLength = 0 then { socket with serverHelloLength := 5 } else socket) =
        { socket with serverHelloLength := length } := by
    rcases h.needed with hneeded | ⟨rfl, hzero⟩
    · exact ⟨socket.serverHelloLength, hneeded, if_neg (Nat.ne_zero_of_lt (greeting_wait hneeded).1)⟩
    · exact ⟨5, rfl, if_pos hzero⟩
  have hshort := (greeting_wait hneeded).1
  have hbefore : requiredHelloPartReady { socket with serverHelloLength := length } = false := by
    have hready := (requiredHelloPartReady_helloAt socket hdigest).mpr hshort
    rw [← h.incoming] at hready
    exact hready
  have hfill : fill { socket with serverHelloLength := length } =
      helloAt socket (digest ++ (seen ++ socket.available)) length := by
    rw [fill, hbefore, if_neg nofun, ← List.append_assoc, ← h.incoming]
    rfl
  rw [readHello]
  rw [hfive, hlength, hfill]
  by_cases hmore : (seen ++ socket.available).length < length
  · exact ⟨_, if_pos ((requiredHelloPartReady_helloAt _ hdigest).mpr hmore),
      .wait length (greeting_wait_of_short hneeded hmore)⟩
  rw [if_neg (mt (requiredHelloPartReady_helloAt _ hdigest).mp hmore)]
  have hle := Nat.le_of_not_lt hmore
  have hfive' : ¬(seen ++ socket.available).length < 5 := by
    rcases (greeting_wait hneeded).2 with rfl | ⟨hfive, -⟩
    · exact hmore
    · rw [List.length_append]
      omega
  exact checkHelloParts12_hears hdigest h.key_eq h.offset h.limit (readHello HmacSha256 2)
    (fun length hshort => readHello_again hdigest hshort 1) hfive'
    ((greeting_wait_append hneeded).imp_right fun hparts => ⟨hle, hparts.1, hparts.2⟩)

end Greeting

end Tls
