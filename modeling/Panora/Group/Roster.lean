/-
  Panora.Group.Roster — the signed membership list and its two checks.

  `crates/panora-sync/src/group.rs`, first half: what a member and a roster are,
  `Roster::verify` (a roster on its own: shape, limits, signature) and
  `check_successor` (is one roster a legal change of another).

  The cryptography is a parameter, `Crypto`: Ed25519 from `ring`, BLAKE3 from
  `blake3`.  All the code relies on is that a signature made with a secret key
  verifies under its public key; that law is a field of the structure.

  Main results:
    * `verify_ok_iff`         — `verify` accepts exactly the `Valid` rosters;
    * `checkSuccessor_ok_iff` — `checkSuccessor` accepts exactly the `Succeeds` pairs.
-/
import Panora.Bytes
import Panora.Lib.Fallible
import Panora.Lib.Keyed

namespace Panora.Group

open Lib.Fallible Lib.Keyed List

/-! ## §1. Limits, identities and errors -/

/-- Most devices a group may hold. -/
def maxMembers : Nat := 16
/-- Longest device name, in characters. -/
def maxNameChars : Nat := 64
/-- Longest device id, in bytes. -/
def maxDeviceIdLen : Nat := 64
/-- Rosters kept, the current one included. -/
def keptRosters : Nat := 8
/-- Highest roster epoch (`u32::MAX`). -/
def maxEpoch : Nat := 4294967295

/-- A device's public identity key. -/
abbrev PublicIdentity := Bytes

/-- What goes wrong while maintaining a group, with the text the source gives. -/
inductive Error where
  | auth (message : String)
  | roster (message : String)
  | device (message : String)
  /-- An index or an `expect` that panics. -/
  | panic
  deriving DecidableEq, Repr

/-- The primitives of `ring` and `blake3` the group code calls. -/
structure Crypto where
  /-- The public half of an Ed25519 secret key. -/
  publicOf : Bytes → PublicIdentity
  /-- `Ed25519KeyPair::sign`. -/
  sign : Bytes → Bytes → Bytes
  /-- `UnparsedPublicKey::verify`. -/
  verifies : PublicIdentity → Bytes → Bytes → Bool
  /-- `blake3::derive_key`. -/
  deriveKey : String → Bytes → Bytes
  /-- `blake3::keyed_hash`. -/
  keyedHash : Bytes → Bytes → Bytes
  /-- A signature verifies under the key pair that made it. -/
  verifies_sign : ∀ secret message,
    verifies (publicOf secret) message (sign secret message) = true

/-- Transparent primitives, to evaluate the model with: nothing is hidden and
    nothing collides. -/
def plainCrypto : Crypto where
  publicOf secret := secret
  sign secret message := secret ++ message
  verifies identity message signature := signature == identity ++ message
  deriveKey context input := utf8 context ++ input
  keyedHash key input := put key input
  verifies_sign secret message := by simp

/-- This device's identity key pair. -/
structure DeviceIdentity where
  secret : Bytes
  deriving DecidableEq, Repr

/-- The public half of a device identity. -/
def DeviceIdentity.publicKey (C : Crypto) (d : DeviceIdentity) : PublicIdentity :=
  C.publicOf d.secret

/-! ## §2. Device ids and names -/

/-- Check a device id: 1–64 ASCII letters, digits or `-`. -/
def validateDeviceId (id : String) : Except Error Unit :=
  if !id.isEmpty && decide (id.utf8ByteSize ≤ maxDeviceIdLen)
      && id.toList.all (fun c => c.isAlphanum || c == '-') then
    .ok ()
  else
    .error (.device "device id must be 1-64 ASCII letters, digits or '-'")

/-- Unicode `White_Space`, what `str::trim` strips. -/
def isWhitespace (c : Char) : Bool :=
  let n := c.toNat
  (9 ≤ n && n ≤ 13) || n == 0x20 || n == 0x85 || n == 0xA0 || n == 0x1680
    || (0x2000 ≤ n && n ≤ 0x200A) || n == 0x2028 || n == 0x2029 || n == 0x202F
    || n == 0x205F || n == 0x3000

/-- `str::trim`. -/
def trim (s : List Char) : List Char :=
  ((s.dropWhile isWhitespace).reverse.dropWhile isWhitespace).reverse

/-- Unicode general category Cc, `char::is_control`. -/
def isControl (c : Char) : Bool :=
  let n := c.toNat
  n ≤ 0x1F || (0x7F ≤ n && n ≤ 0x9F)

/-- The code point ranges `is_format` lists. -/
def formatRanges : List (Nat × Nat) :=
  [(0x00AD, 0x00AD), (0x0600, 0x0605), (0x061C, 0x061C), (0x06DD, 0x06DD),
   (0x070F, 0x070F), (0x0890, 0x0891), (0x08E2, 0x08E2), (0x180E, 0x180E),
   (0x200B, 0x200F), (0x2028, 0x202E), (0x2060, 0x2064), (0x2066, 0x206F),
   (0xFEFF, 0xFEFF), (0xFFF9, 0xFFFB), (0x110BD, 0x110BD), (0x110CD, 0x110CD),
   (0x13430, 0x1343F), (0x1BCA0, 0x1BCA3), (0x1D173, 0x1D17A),
   (0xE0001, 0xE0001), (0xE0020, 0xE007F)]

/-- Characters that change how the text around them is shown without being
    visible themselves. -/
def isFormat (c : Char) : Bool :=
  formatRanges.any (fun r => decide (r.1 ≤ c.toNat) && decide (c.toNat ≤ r.2))

/-- Check a device name. -/
def validateName (name : String) : Except Error Unit :=
  if name.isEmpty || trim name.toList != name.toList then
    .error (.device "device name must not be empty or start or end with spaces")
  else if name.toList.length > maxNameChars then
    .error (.device "device name is longer than 64 characters")
  else if name.toList.any (fun c => isControl c || isFormat c) then
    .error (.device "device name contains control, format or line-separator characters")
  else
    .ok ()

/-! ## §3. Members and rosters -/

/-- One device in the roster. -/
structure Member where
  identity : PublicIdentity
  deviceId : String
  name : String
  addedAt : Int
  deriving DecidableEq, Repr

/-- A signed membership list. -/
structure Roster where
  groupId : Bytes
  /-- 0 for the group's first roster, then parent + 1. -/
  epoch : Nat
  /-- Hash of the parent; zeros for epoch 0. -/
  prev : Bytes
  createdAt : Int
  /-- Epoch of the roster that introduced the current group key. -/
  keyEpoch : Nat
  /-- Check value of the current group key. -/
  keyCheck : Bytes
  /-- Members, sorted by identity key. -/
  members : List Member
  /-- The member of the parent roster that made this change. -/
  signer : PublicIdentity
  signature : Bytes
  deriving DecidableEq, Repr

/-- Thirty-two zero bytes. -/
def zeroHash : Bytes := replicate 32 0

/-- The fields of one member, in the order `Roster::body` writes them. -/
def putMember (out : Bytes) (m : Member) : Bytes :=
  put (put (put (put out m.identity) (utf8 m.deviceId)) (utf8 m.name)) (i64Bytes m.addedAt)

namespace Roster

/-- Canonical encoding of every field but the signature. -/
def body (r : Roster) : Bytes :=
  let out := utf8 "panora-roster/1"
  let out := put out r.groupId
  let out := put out (u64Bytes r.epoch)
  let out := put out r.prev
  let out := put out (i64Bytes r.createdAt)
  let out := put out (u64Bytes r.keyEpoch)
  let out := put out r.keyCheck
  let out := put out r.signer
  let out := put out (u64Bytes r.members.length)
  r.members.foldl putMember out

/-- Hash of the signed content; what a child's `prev` refers to. -/
def hash (C : Crypto) (r : Roster) : Bytes :=
  C.deriveKey "panora roster hash v1" r.body

/-- Sign the roster as `identity`. -/
def signed (C : Crypto) (r : Roster) (identity : DeviceIdentity) : Roster :=
  let r := { r with signer := identity.publicKey C }
  { r with signature := C.sign identity.secret r.body }

/-- The entry for `identity`, if it is a member.  The source searches the sorted
    list in halves; on a sorted list without repetitions that finds the entry
    exactly when there is one. -/
def member (r : Roster) (identity : PublicIdentity) : Option Member :=
  lookup Member.identity r.members identity

/-- The checks `verify` makes on each member in turn. -/
def validateMembers : List Member → Except Error Unit
  | [] => .ok ()
  | m :: ms =>
      (validateDeviceId m.deviceId).bind fun _ =>
      (validateName m.name).bind fun _ =>
      validateMembers ms

/-- Check the roster on its own: shape, limits and signature. -/
def verify (C : Crypto) (r : Roster) : Except Error Unit :=
  if r.members.isEmpty || decide (r.members.length > maxMembers) then
    .error (.roster "a roster holds between 1 and 16 devices")
  else if ¬ r.members.IsChain (fun a b => a.identity < b.identity) then
    .error (.roster "members are not sorted or a device is listed twice")
  else if ¬ ((r.members.map Member.deviceId).insertionSort (· ≤ ·)).IsChain (· ≠ ·) then
    .error (.roster "two members share a device id")
  else
    (validateMembers r.members).bind fun _ =>
    if r.epoch > maxEpoch then
      .error (.roster "roster epoch is out of range")
    else if r.keyEpoch > r.epoch then
      .error (.roster "key epoch is ahead of the roster epoch")
    else if r.epoch = 0
        ∧ (r.prev ≠ zeroHash ∨ r.keyEpoch ≠ 0 ∨ r.member r.signer = none) then
      .error (.roster "a group's first roster must be made by one of its members")
    else if ¬ C.verifies r.signer r.body r.signature then
      .error (.auth "signature does not match the device identity")
    else
      .ok ()

/-- The members of `r` that `other` does not list. -/
def membersWithout (r other : Roster) : List Member :=
  r.members.filter (fun m => (other.member m.identity).isNone)

end Roster

/-- Is `next` a legitimate change of `parent`? -/
def checkSuccessor (C : Crypto) (parent next : Roster) : Except Error Unit :=
  if next.groupId ≠ parent.groupId then
    .error (.roster "roster belongs to another group")
  else if parent.epoch + 1 ≠ next.epoch ∨ next.prev ≠ parent.hash C then
    .error (.roster "roster does not follow its parent")
  else if parent.member next.signer = none then
    .error (.roster "roster was signed by a device that is not a member")
  else if parent.members.any
      (fun m => (next.member m.identity).any (fun n => decide (n ≠ m))) then
    .error (.roster "a member's details changed")
  else
    let removes := !(parent.membersWithout next).isEmpty
    let adds := !(next.membersWithout parent).isEmpty
    let rotates := next.keyEpoch == next.epoch
    if rotates && next.keyCheck == parent.keyCheck then
      .error (.roster "a new key epoch must bring a new key")
    else if !rotates
        && (next.keyEpoch != parent.keyEpoch || next.keyCheck != parent.keyCheck) then
      .error (.roster "the group key changed without a new key epoch")
    else if removes && !rotates then
      .error (.roster "removing a device must introduce a new group key")
    else if !removes && !adds && !rotates then
      .error (.roster "roster changes nothing")
    else
      .ok ()

variable (C : Crypto) (ms : List Member) (r : Roster) (d : DeviceIdentity) {m : Member}
  {i : PublicIdentity} {a b : Roster}

/-- Writing members only appends. -/
theorem foldl_putMember :
    ∀ out : Bytes, ∃ rest, ms.foldl putMember out = out ++ rest := by
  induction ms with
  | nil =>
    intro out
    exact ⟨[], by simp⟩
  | cons m ms ih =>
    intro out
    obtain ⟨rest, hrest⟩ := ih (putMember out m)
    rw [foldl_cons, hrest]
    simp only [putMember, put, append_assoc]
    exact ⟨_, rfl⟩

/-- How the body begins. -/
theorem body_split : ∃ rest, r.body
    = utf8 "panora-roster/1" ++ (u64Bytes r.groupId.length ++ (r.groupId
      ++ (u64Bytes 8 ++ (u64Bytes r.epoch ++ (u64Bytes r.prev.length ++ (r.prev
      ++ (u64Bytes 8 ++ (i64Bytes r.createdAt ++ rest)))))))) := by
  unfold Roster.body
  obtain ⟨rest, hrest⟩ := foldl_putMember r.members
    (put (put (put (put (put (put (put (put (utf8 "panora-roster/1") r.groupId)
      (u64Bytes r.epoch)) r.prev) (i64Bytes r.createdAt)) (u64Bytes r.keyEpoch)) r.keyCheck)
      r.signer) (u64Bytes r.members.length))
  simp only [hrest]
  have hlen : (u64Bytes r.epoch).length = 8 := length_beBytes 8 _
  have hlen' : (i64Bytes r.createdAt).length = 8 := length_beBytes 8 _
  simp only [put, append_assoc, hlen, hlen']
  exact ⟨_, rfl⟩

/-- The body says which group the roster is of. -/
theorem groupId_of_body_eq (h : a.body = b.body)
    (hlen : a.groupId.length = b.groupId.length) : a.groupId = b.groupId := by
  obtain ⟨resta, ha⟩ := body_split a
  obtain ⟨restb, hb⟩ := body_split b
  rw [ha, hb, hlen] at h
  exact append_inj_left (append_cancel_left (append_cancel_left h)) hlen

/-- The body of a roster of a group says its epoch. -/
theorem epoch_of_body_eq (h : a.body = b.body) (hgroup : a.groupId = b.groupId)
    (ha' : a.epoch ≤ maxEpoch) (hb' : b.epoch ≤ maxEpoch) : a.epoch = b.epoch := by
  have hbig : maxEpoch < 256 ^ 8 := by decide
  obtain ⟨resta, ha⟩ := body_split a
  obtain ⟨restb, hb⟩ := body_split b
  rw [ha, hb, hgroup] at h
  have h := append_cancel_left (append_cancel_left (append_cancel_left
    (append_cancel_left h)))
  have hbytes : u64Bytes a.epoch = u64Bytes b.epoch :=
    append_inj_left h ((length_beBytes 8 _).trans (length_beBytes 8 _).symm)
  rw [← ofBe_beBytes (show a.epoch < 256 ^ 8 by omega),
    ← ofBe_beBytes (show b.epoch < 256 ^ 8 by omega)]
  exact congrArg ofBe hbytes

/-- The body says when the roster was made, after the fields that say where it
    stands. -/
theorem createdAt_of_body_eq (h : a.body = b.body)
    (hgroup : a.groupId = b.groupId) (hepoch : a.epoch = b.epoch) (hprev : a.prev = b.prev) :
    i64Bytes a.createdAt = i64Bytes b.createdAt := by
  obtain ⟨resta, ha⟩ := body_split a
  obtain ⟨restb, hb⟩ := body_split b
  rw [ha, hb, hgroup, hepoch, hprev] at h
  simp only [append_cancel_left_eq] at h
  exact append_inj_left h ((length_beBytes 8 _).trans (length_beBytes 8 _).symm)

/-! ## §4. What `verify` accepts -/

@[simp] theorem signed_signer :
    (r.signed C d).signer = d.publicKey C := rfl

@[simp] theorem signed_members :
    (r.signed C d).members = r.members := rfl

@[simp] theorem signed_epoch :
    (r.signed C d).epoch = r.epoch := rfl

@[simp] theorem signed_groupId :
    (r.signed C d).groupId = r.groupId := rfl

@[simp] theorem signed_prev :
    (r.signed C d).prev = r.prev := rfl

@[simp] theorem signed_keyEpoch :
    (r.signed C d).keyEpoch = r.keyEpoch := rfl

@[simp] theorem signed_keyCheck :
    (r.signed C d).keyCheck = r.keyCheck := rfl

@[simp] theorem signed_member
    (i : PublicIdentity) : (r.signed C d).member i = r.member i := rfl

/-- A roster a device signed carries a signature that verifies: the signature is
    no part of the body it is over. -/
theorem signed_verifies :
    C.verifies (r.signed C d).signer (r.signed C d).body (r.signed C d).signature = true :=
  C.verifies_sign d.secret ({ r with signer := d.publicKey C } : Roster).body

/-- A roster fit to be kept: the shape, the limits and the signature. -/
structure Roster.Valid (C : Crypto) (r : Roster) : Prop where
  nonempty : r.members ≠ []
  atMost : r.members.length ≤ maxMembers
  sorted : r.members.Pairwise (fun a b => a.identity < b.identity)
  idsNodup : (r.members.map Member.deviceId).Nodup
  described : ∀ m ∈ r.members,
    validateDeviceId m.deviceId = .ok () ∧ validateName m.name = .ok ()
  epochBound : r.epoch ≤ maxEpoch
  keyEpochBound : r.keyEpoch ≤ r.epoch
  genesis : r.epoch = 0 → r.prev = zeroHash ∧ r.keyEpoch = 0 ∧ r.member r.signer ≠ none
  signature : C.verifies r.signer r.body r.signature = true

theorem validateMembers_ok_iff :
    Roster.validateMembers ms = .ok () ↔
      ∀ m ∈ ms, validateDeviceId m.deviceId = .ok () ∧ validateName m.name = .ok () := by
  induction ms with
  | nil => simp [Roster.validateMembers]
  | cons m ms ih =>
    rw [Roster.validateMembers, bind_unit_ok_iff, bind_unit_ok_iff, ih, forall_mem_cons,
      and_assoc]

private theorem increasing_iff_pairwise :
    ms.IsChain (fun a b => a.identity < b.identity) ↔
      ms.Pairwise (fun a b => a.identity < b.identity) := by
  have : IsTrans Member (fun a b => a.identity < b.identity) := ⟨fun _ _ _ => lt_trans⟩
  exact isChain_iff_pairwise

/-- **`verify` accepts exactly the valid rosters.** -/
theorem verify_ok_iff : r.verify C = .ok () ↔ r.Valid C := by
  rw [Roster.verify, check_ok_iff, check_ok_iff, check_ok_iff, bind_unit_ok_iff,
    check_ok_iff, check_ok_iff, check_ok_iff, check_ok_iff, not_not, not_not, not_not,
    increasing_iff_pairwise, sorted_neighbours_iff_nodup, validateMembers_ok_iff]
  simp only [Bool.or_eq_true, List.isEmpty_iff, decide_eq_true_eq, not_or, not_lt, gt_iff_lt,
    not_and, and_true, ne_eq, not_not]
  constructor
  · rintro ⟨⟨hne, hlen⟩, hsorted, hids, hms, hepoch, hkey, hgen, hsig⟩
    exact ⟨hne, hlen, hsorted, hids, hms, hepoch, hkey, hgen, hsig⟩
  · intro h
    exact ⟨⟨h.nonempty, h.atMost⟩, h.sorted, h.idsNodup, h.described, h.epochBound,
      h.keyEpochBound, h.genesis, h.signature⟩

/-- The identities a valid roster lists are distinct. -/
theorem Roster.Valid.identitiesNodup {C : Crypto} {r : Roster} (h : r.Valid C) :
    (r.members.map Member.identity).Nodup :=
  nodup_of_increasing h.sorted

theorem Roster.Valid.member_eq_some {C : Crypto} {r : Roster} (h : r.Valid C) :
    r.member i = some m ↔ m ∈ r.members ∧ m.identity = i :=
  lookup_eq_some h.identitiesNodup

/-! ## §5. What `checkSuccessor` accepts -/

theorem member_eq_none {r : Roster} :
    r.member i = none ↔ ∀ m ∈ r.members, m.identity ≠ i :=
  lookup_eq_none

theorem mem_membersWithout {r other : Roster} :
    m ∈ r.membersWithout other ↔ m ∈ r.members ∧ other.member m.identity = none := by
  simp [Roster.membersWithout]

/-- One roster is a legal change of another. -/
structure Succeeds (C : Crypto) (parent next : Roster) : Prop where
  groupId : next.groupId = parent.groupId
  epoch : next.epoch = parent.epoch + 1
  prev : next.prev = parent.hash C
  signer : parent.member next.signer ≠ none
  unchanged : ∀ m ∈ parent.members, ∀ n, next.member m.identity = some n → n = m
  rotation : next.keyEpoch = next.epoch → next.keyCheck ≠ parent.keyCheck
  noRotation : next.keyEpoch ≠ next.epoch →
    next.keyEpoch = parent.keyEpoch ∧ next.keyCheck = parent.keyCheck
  removal : parent.membersWithout next ≠ [] → next.keyEpoch = next.epoch
  change : parent.membersWithout next ≠ [] ∨ next.membersWithout parent ≠ [] ∨
    next.keyEpoch = next.epoch

/-- **`checkSuccessor` accepts exactly the legal changes.** -/
theorem checkSuccessor_ok_iff (parent next : Roster) :
    checkSuccessor C parent next = .ok () ↔ Succeeds C parent next := by
  simp only [checkSuccessor, check_ok_iff, not_not, not_or]
  constructor
  · rintro ⟨hgid, ⟨hepoch, hprev⟩, hsigner, hsame, hrot, hnorot, hrem, hchg, -⟩
    simp only [any_eq_true, Option.any_eq_true, decide_eq_true_eq, not_exists, not_and,
      not_not, Bool.and_eq_true, beq_iff_eq, Bool.not_eq_true', beq_eq_false_iff_ne, ne_eq,
      Bool.or_eq_true, bne_iff_ne, isEmpty_eq_false_iff, not_or, Bool.not_eq_false',
      List.isEmpty_iff] at hsame hrot hnorot hrem hchg
    exact ⟨hgid, hepoch.symm, hprev, hsigner, hsame, hrot, hnorot, hrem, by tauto⟩
  · intro h
    refine ⟨h.groupId, ⟨h.epoch.symm, h.prev⟩, h.signer, ?_, ?_, ?_, ?_, ?_, trivial⟩
    · simp only [List.any_eq_true, Option.any_eq_true, decide_eq_true_eq, not_exists, not_and,
        not_not]
      exact h.unchanged
    · simpa using h.rotation
    · simpa using h.noRotation
    · simpa using h.removal
    · have := h.change
      simp only [Bool.and_eq_true, Bool.not_eq_true', Bool.not_eq_false', List.isEmpty_iff,
        beq_eq_false_iff_ne]
      tauto

end Panora.Group
