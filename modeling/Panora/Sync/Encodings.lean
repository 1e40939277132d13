/-
  Panora.Sync.Encodings — what is signed, hashed and authenticated says what it is of.

  A roster's body, a pairing transcript and the associated data of a sealed record are each a
  label and a list of fields with their lengths in front (`put`).  The fields can be read off, and
  the labels differ, so no encoding stands for two things.

  Main result: `encodings_unambiguous`.
-/
import Panora.Pairing.Agreement
import Panora.Sync.Records

namespace Panora.Sync

open Panora.Group Pairing List

/-! ## §1. Lists of fields -/

/-- Fields as `put` appends them one after another. -/
def fields (l : List Bytes) : Bytes := l.flatMap field

/-- Every length fits its prefix. -/
def FitPrefixes (l : List Bytes) : Prop := ∀ f ∈ l, f.length < 256 ^ 8

theorem foldl_put (out : Bytes) (l : List Bytes) : l.foldl put out = out ++ fields l := by
  induction l generalizing out with
  | nil => exact (append_nil out).symm
  | cons f l ih =>
    rw [foldl_cons, ih, put_eq, append_assoc]
    rfl

/-- **A list of fields is read back from its encoding.** -/
theorem fields_inj {l l' : List Bytes} (hl : FitPrefixes l) (hl' : FitPrefixes l')
    (h : fields l = fields l') : l = l' := by
  -- an empty list has no bytes, and a field has eight at least
  have hpos : ∀ (f : Bytes) (l : List Bytes), fields (f :: l) ≠ [] := by
    intro f l hnil
    have hlength := congrArg length hnil
    simp [fields, field, u64Bytes] at hlength
  induction l generalizing l' with
  | nil =>
    cases l' with
    | nil => rfl
    | cons g l' => exact absurd h.symm (hpos g l')
  | cons f l ih =>
    cases l' with
    | nil => exact absurd h (hpos f l)
    | cons g l' =>
      obtain ⟨hf, hrest⟩ := forall_mem_cons.mp hl
      obtain ⟨hg, hrest'⟩ := forall_mem_cons.mp hl'
      obtain ⟨heq, hbytes⟩ := field_append_inj h hf hg
      rw [heq, ih hrest hrest' hbytes]

/-! ## §2. What is in a field -/

theorem utf8_inj {a b : String} (h : utf8 a = utf8 b) : a = b := by
  have hbytes : a.toList.flatMap String.utf8EncodeChar = b.toList.flatMap String.utf8EncodeChar := by
    unfold utf8 at h
    rw [← map_flatMap, ← map_flatMap] at h
    refine map_injective_iff.mpr ?_ h
    intro x y hxy
    exact UInt8.toFin_inj.mp hxy
  rw [← String.toByteArray_inj, ← String.utf8Encode_toList, ← String.utf8Encode_toList]
  exact congrArg toByteArray hbytes

theorem u64Bytes_inj {a b : Nat} (ha : a < 256 ^ 8) (hb : b < 256 ^ 8)
    (h : u64Bytes a = u64Bytes b) : a = b := by
  rw [← ofBe_beBytes ha, ← ofBe_beBytes hb]
  exact congrArg ofBe h

theorem i64Bytes_eq (z : Int) : i64Bytes z = u64Bytes (z % 2 ^ 64).toNat := rfl

/-- Whether a number is an `i64`. -/
def IsI64 (z : Int) : Prop := -2 ^ 63 ≤ z ∧ z < 2 ^ 63

theorem i64Bytes_inj {a b : Int} (ha : IsI64 a) (hb : IsI64 b) (h : i64Bytes a = i64Bytes b) :
    a = b := by
  unfold IsI64 at ha hb
  rw [i64Bytes_eq, i64Bytes_eq] at h
  have hmod := u64Bytes_inj (by omega) (by omega) h
  omega

/-! ## §3. Rosters -/

def memberFields (m : Member) : List Bytes :=
  [m.identity, utf8 m.deviceId, utf8 m.name, i64Bytes m.addedAt]

def headFields (r : Roster) : List Bytes :=
  [r.groupId, u64Bytes r.epoch, r.prev, i64Bytes r.createdAt, u64Bytes r.keyEpoch, r.keyCheck,
    r.signer, u64Bytes r.members.length]

/-- Numbers are those of their types, and lengths fit their prefixes. -/
structure RosterFits (r : Roster) : Prop where
  epoch : r.epoch < 256 ^ 8
  keyEpoch : r.keyEpoch < 256 ^ 8
  createdAt : IsI64 r.createdAt
  addedAt : ∀ m ∈ r.members, IsI64 m.addedAt
  lengths : FitPrefixes (headFields r ++ r.members.flatMap memberFields)

theorem body_eq_fields (r : Roster) : r.body
    = utf8 "panora-roster/1" ++ fields (headFields r ++ r.members.flatMap memberFields) := by
  rw [← foldl_put, foldl_append, foldl_flatMap]
  rfl

theorem memberFields_inj {a b : Member} (ha : IsI64 a.addedAt) (hb : IsI64 b.addedAt)
    (h : memberFields a = memberFields b) : a = b := by
  simp only [memberFields, cons.injEq, and_true] at h
  cases a
  cases b
  simp only [Member.mk.injEq]
  exact ⟨h.1, utf8_inj h.2.1, utf8_inj h.2.2.1, i64Bytes_inj ha hb h.2.2.2⟩

theorem flatMap_memberFields_inj {ms ms' : List Member} (hms : ∀ m ∈ ms, IsI64 m.addedAt)
    (hms' : ∀ m ∈ ms', IsI64 m.addedAt)
    (h : ms.flatMap memberFields = ms'.flatMap memberFields) : ms = ms' := by
  induction ms generalizing ms' with
  | nil =>
    cases ms' with
    | nil => rfl
    | cons m ms' => exact nomatch h
  | cons m ms ih =>
    cases ms' with
    | nil => exact nomatch h
    | cons m' ms' =>
      obtain ⟨hm, hms⟩ := forall_mem_cons.mp hms
      obtain ⟨hm', hms'⟩ := forall_mem_cons.mp hms'
      obtain ⟨hfirst, hrest⟩ := append_inj h rfl
      rw [memberFields_inj hm hm' hfirst, ih hms hms' hrest]

/-- **A roster is read back from its body**, but for the signature over it. -/
theorem body_inj {a b : Roster} (ha : RosterFits a) (hb : RosterFits b) (h : a.body = b.body) :
    { a with signature := b.signature } = b := by
  rw [body_eq_fields, body_eq_fields] at h
  have hlists := fields_inj ha.lengths hb.lengths (append_cancel_left h)
  obtain ⟨hhead, hmembers⟩ := append_inj hlists rfl
  have hms := flatMap_memberFields_inj ha.addedAt hb.addedAt hmembers
  simp only [headFields, cons.injEq] at hhead
  obtain ⟨hgroup, hepoch, hprev, hcreated, hkeyEpoch, hcheck, hsigner, -⟩ := hhead
  have hepoch := u64Bytes_inj ha.epoch hb.epoch hepoch
  have hkeyEpoch := u64Bytes_inj ha.keyEpoch hb.keyEpoch hkeyEpoch
  have hcreated := i64Bytes_inj ha.createdAt hb.createdAt hcreated
  cases a
  cases b
  simp_all

/-! ## §4. All encodings -/

theorem sealAad_eq_fields (g : Bytes) (e : Nat) (k c : Bytes) :
    GroupState.sealAad g e k c = utf8 "panora-group-seal/1" ++ fields [g, u64Bytes e, k, c] :=
  foldl_put _ [g, u64Bytes e, k, c]

/-- Encodings whose labels differ in the first eight bytes differ. -/
theorem label_ne {a b : String} (rest rest' : Bytes) (ha : 8 ≤ (utf8 a).length)
    (hb : 8 ≤ (utf8 b).length) (h : (utf8 a).take 8 ≠ (utf8 b).take 8) :
    utf8 a ++ rest ≠ utf8 b ++ rest' := by
  intro heq
  have htake := congrArg (take 8) heq
  rw [take_append_of_le_length ha, take_append_of_le_length hb] at htake
  exact h htake

/-- **Encodings are unambiguous.**  A roster's body says every field but the signature and every
    member, a transcript's encoding the transcript, the associated data of a sealed record what it
    is bound to, and none of one kind is one of another. -/
theorem encodings_unambiguous :
    (∀ a b : Roster, RosterFits a → RosterFits b → a.body = b.body →
      { a with signature := b.signature } = b) ∧
    (∀ t t' : Transcript, t.encode = t'.encode → t = t') ∧
    (∀ (g g' : Bytes) (e e' : Nat) (k k' c c' : Bytes), e < 256 ^ 8 → e' < 256 ^ 8 →
      FitPrefixes [g, k, c] → FitPrefixes [g', k', c'] →
      GroupState.sealAad g e k c = GroupState.sealAad g' e' k' c' →
        g = g' ∧ e = e' ∧ k = k' ∧ c = c') ∧
    ∀ (r : Roster) (t : Transcript) (g : Bytes) (e : Nat) (k c : Bytes),
      r.body ≠ t.encode ∧ r.body ≠ GroupState.sealAad g e k c ∧
        t.encode ≠ GroupState.sealAad g e k c := by
  refine ⟨fun a b => body_inj, fun t t' => Transcript.encode_injective, ?_, ?_⟩
  · intro g g' e e' k k' c c' he he' hfit hfit' h
    rw [sealAad_eq_fields, sealAad_eq_fields] at h
    -- a number takes eight bytes
    have hfits : ∀ {g k c : Bytes} (e : Nat), FitPrefixes [g, k, c] →
        FitPrefixes [g, u64Bytes e, k, c] := by
      intro g k c e hfit
      simp only [FitPrefixes, forall_mem_cons] at hfit ⊢
      refine ⟨hfit.1, ?_, hfit.2⟩
      rw [u64Bytes, length_beBytes]
      decide
    have hlist := fields_inj (hfits e hfit) (hfits e' hfit') (append_cancel_left h)
    simp only [cons.injEq, and_true] at hlist
    exact ⟨hlist.1, u64Bytes_inj he he' hlist.2.1, hlist.2.2⟩
  · intro r t g e k c
    rw [body_eq_fields, sealAad_eq_fields, Transcript.encode_eq]
    refine ⟨label_ne _ _ ?_ ?_ ?_, label_ne _ _ ?_ ?_ ?_, label_ne _ _ ?_ ?_ ?_⟩
    all_goals decide +kernel

end Panora.Sync
