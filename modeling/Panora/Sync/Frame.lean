/-
  Panora.Sync.Frame — the frames of the sync channel.

  `crates/panora-sync/src/frame.rs`: a JSON message, then a count, then that many
  blobs, each with its length in front as four big-endian bytes.  The reader takes
  at most a given number of bytes of message and blobs together.

  Main results:
    * `read_frame` — what the reader makes of a frame that was written;
    * `written_and_read_iff` — a frame gets across exactly when message and blobs
      are within the reader's limit;
    * `frames_round_trip_bounded` — frames written one after another are read one after
      another, no stream makes the reader take more than its limit and the length fields,
      and what it returns stood in the stream.
-/
import Panora.Group.Roster
import Panora.Lib.Op

namespace Panora.Sync

open List

/-- What goes wrong in a session, with the text the source gives. -/
inductive Error where
  | protocol (message : String)
  /-- A stream that ended or failed. -/
  | io
  | json
  | group (e : Group.Error)
  deriving DecidableEq, Repr

namespace Frame

open Lib.Fallible

/-! ## §1. Writing and reading -/

/-- Most blobs in one frame. -/
def maxBlobs : Nat := 64

def tooLarge : Error := .protocol "frame too large"

def tooManyBlobs : Error := .protocol "too many blobs in one frame"

/-- A length that fits `u32`. -/
def len32 (len : Nat) : Except Error Nat := if 2 ^ 32 ≤ len then .error tooLarge else .ok len

/-- A chunk with its length in front. -/
def writeChunk (data : Bytes) : Except Error Bytes :=
  (len32 data.length).map (fun len => beBytes 4 len ++ data)

/-- Write one frame, its message already as JSON. -/
def write (json : Bytes) (blobs : List Bytes) : Except Error Bytes :=
  if maxBlobs < blobs.length then .error tooManyBlobs
  else (writeChunk json).bind fun head =>
    (blobs.mapM writeChunk).map (fun chunks => head ++ beBytes 4 blobs.length ++ chunks.flatten)

/-- Four bytes as a number, and what follows them. -/
def readU32 (input : Bytes) : Except Error (Nat × Bytes) :=
  if input.length < 4 then .error .io else .ok (ofBe (input.take 4), input.drop 4)

/-- One chunk, what is left of the budget, and what follows. -/
def readChunk (budget : Nat) (input : Bytes) : Except Error (Bytes × Nat × Bytes) :=
  (readU32 input).bind fun (len, rest) =>
    if budget < len then .error tooLarge
    else if rest.length < len then .error .io
    else .ok (rest.take len, budget - len, rest.drop len)

/-- So many chunks. -/
def readBlobs : Nat → Nat → Bytes → Except Error (List Bytes × Bytes)
  | 0, _, input => .ok ([], input)
  | count + 1, budget, input =>
    (readChunk budget input).bind fun (blob, budget, rest) =>
      (readBlobs count budget rest).map (fun (blobs, rest) => (blob :: blobs, rest))

/-- Read one frame of at most `maxBytes`; returns what follows it, too. -/
def read {T : Type} (fromSlice : Bytes → Except Error T) (maxBytes : Nat) (input : Bytes) :
    Except Error ((T × List Bytes) × Bytes) :=
  (readChunk maxBytes input).bind fun (json, budget, rest) =>
    (fromSlice json).bind fun message =>
      (readU32 rest).bind fun (count, rest) =>
        if maxBlobs < count then .error tooManyBlobs
        else (readBlobs count budget rest).map (fun (blobs, rest) => ((message, blobs), rest))

/-! ## §2. What was written is read -/

/-- The bytes of a chunk. -/
def chunk (data : Bytes) : Bytes := beBytes 4 data.length ++ data

/-- The bytes of blobs together. -/
def totalBytes (blobs : List Bytes) : Nat := (blobs.map length).sum

/-- The bytes of a frame. -/
def frame (json : Bytes) (blobs : List Bytes) : Bytes :=
  chunk json ++ beBytes 4 blobs.length ++ (blobs.map chunk).flatten

variable {data : Bytes}

theorem writeChunk_eq_ok {out : Bytes} :
    writeChunk data = .ok out ↔ data.length < 2 ^ 32 ∧ out = chunk data := by
  rw [writeChunk, map_ok_iff]
  unfold len32
  constructor
  · rintro ⟨len, hlen, rfl⟩
    rw [check_ok_iff] at hlen
    obtain ⟨hlt, heq⟩ := hlen
    cases heq
    exact ⟨Nat.lt_of_not_le hlt, rfl⟩
  · rintro ⟨hlt, rfl⟩
    exact ⟨data.length, if_neg (Nat.not_le_of_lt hlt), rfl⟩

variable {blobs : List Bytes}

theorem mapM_writeChunk_eq_ok : ∀ {chunks : List Bytes}, blobs.mapM writeChunk = .ok chunks ↔
      (∀ b ∈ blobs, b.length < 2 ^ 32) ∧ chunks = blobs.map chunk := by
  induction blobs with
  | nil =>
    intro chunks
    constructor
    · intro h
      cases h
      exact ⟨by simp, rfl⟩
    · rintro ⟨-, rfl⟩
      rfl
  | cons b blobs ih =>
    intro chunks
    rw [mapM_cons, forall_mem_cons]
    constructor
    · intro h
      obtain ⟨c, hc, hrest⟩ := bind_ok_iff.mp h
      obtain ⟨cs, hcs, heq⟩ := bind_ok_iff.mp hrest
      cases heq
      obtain ⟨hlt, rfl⟩ := writeChunk_eq_ok.mp hc
      obtain ⟨hall, rfl⟩ := ih.mp hcs
      exact ⟨⟨hlt, hall⟩, rfl⟩
    · rintro ⟨⟨hlt, hall⟩, rfl⟩
      rw [writeChunk_eq_ok.mpr ⟨hlt, rfl⟩, ih.mpr ⟨hall, rfl⟩]
      rfl

/-- A frame is written unless it has too many blobs or a length does not fit. -/
theorem write_eq_ok {json : Bytes} {out : Bytes} :
    write json blobs = .ok out ↔ blobs.length ≤ maxBlobs ∧ json.length < 2 ^ 32 ∧
      (∀ b ∈ blobs, b.length < 2 ^ 32) ∧ out = frame json blobs := by
  rw [write, check_ok_iff, Nat.not_lt, bind_ok_iff]
  constructor
  · rintro ⟨hcount, head, hhead, hrest⟩
    obtain ⟨hjson, rfl⟩ := writeChunk_eq_ok.mp hhead
    obtain ⟨chunks, hchunks, rfl⟩ := map_ok_iff.mp hrest
    obtain ⟨hall, rfl⟩ := mapM_writeChunk_eq_ok.mp hchunks
    exact ⟨hcount, hjson, hall, rfl⟩
  · rintro ⟨hcount, hjson, hall, rfl⟩
    refine ⟨hcount, chunk json, writeChunk_eq_ok.mpr ⟨hjson, rfl⟩, ?_⟩
    rw [mapM_writeChunk_eq_ok.mpr ⟨hall, rfl⟩]
    rfl

theorem readU32_append {n : Nat} (h : n < 2 ^ 32) (rest : Bytes) :
    readU32 (beBytes 4 n ++ rest) = .ok (n, rest) := by
  have hlen : ¬ (beBytes 4 n ++ rest).length < 4 := by
    rw [length_append, length_beBytes]
    omega
  have hlen4 : (beBytes 4 n).length = 4 := length_beBytes 4 n
  rw [readU32, if_neg hlen, take_left' hlen4, drop_left' hlen4,
    ofBe_beBytes (by omega)]

/-- A chunk is read within the budget, and refused before it is read beyond it. -/
theorem readChunk_append (h : data.length < 2 ^ 32) (budget : Nat)
    (rest : Bytes) : readChunk budget (chunk data ++ rest)
      = if budget < data.length then .error tooLarge
        else .ok (data, budget - data.length, rest) := by
  have hlen : ¬ (data ++ rest).length < data.length := by
    rw [length_append]
    omega
  rw [readChunk, chunk, append_assoc, readU32_append h]
  show (if budget < data.length then _ else if (data ++ rest).length < data.length then _ else _) = _
  rw [if_neg hlen, take_left, drop_left]

/-- The blobs are read one after another, each from what the others leave of the
    budget. -/
theorem readBlobs_append (h : ∀ b ∈ blobs, b.length < 2 ^ 32) (budget : Nat) (rest : Bytes) :
    readBlobs blobs.length budget ((blobs.map chunk).flatten ++ rest)
      = if budget < totalBytes blobs then .error tooLarge else .ok (blobs, rest) := by
  induction blobs generalizing budget with
  | nil => rfl
  | cons b blobs ih =>
    obtain ⟨hb, hblobs⟩ := forall_mem_cons.mp h
    have htotal : totalBytes (b :: blobs) = b.length + totalBytes blobs := by
      simp [totalBytes]
    rw [length_cons, readBlobs, map_cons, flatten_cons, append_assoc,
      readChunk_append hb, htotal]
    by_cases hfirst : budget < b.length
    · rw [if_pos hfirst, if_pos (by omega)]
      rfl
    · rw [if_neg hfirst]
      show (readBlobs blobs.length (budget - b.length) _).map _ = _
      rw [ih hblobs]
      by_cases hothers : budget - b.length < totalBytes blobs
      · rw [if_pos hothers, if_pos (by omega)]
        rfl
      · rw [if_neg hothers, if_neg (by omega)]
        rfl

variable {T : Type} {fromSlice : Bytes → Except Error T} {message : T} {json : Bytes}
  {blobs : List Bytes} {maxBytes : Nat}

/-- **A frame that was written** is read if it is within the limit, and refused as too
    large otherwise. -/
theorem read_frame (hmessage : fromSlice json = .ok message) (hcount : blobs.length ≤ maxBlobs)
    (hjson : json.length < 2 ^ 32) (hblobs : ∀ b ∈ blobs, b.length < 2 ^ 32) (rest : Bytes) :
    read fromSlice maxBytes (frame json blobs ++ rest)
      = if maxBytes < json.length + totalBytes blobs then .error tooLarge
        else .ok ((message, blobs), rest) := by
  have hcount32 : blobs.length < 2 ^ 32 := Nat.lt_of_le_of_lt hcount (by decide)
  rw [read, frame, append_assoc, append_assoc, readChunk_append hjson]
  by_cases hlarge : maxBytes < json.length
  · rw [if_pos hlarge, if_pos (by omega)]
    rfl
  · rw [if_neg hlarge]
    show (fromSlice json).bind _ = _
    rw [hmessage, ok_bind, readU32_append hcount32]
    show (if maxBlobs < blobs.length then _
      else (readBlobs blobs.length (maxBytes - json.length) _).map _) = _
    rw [if_neg (Nat.not_lt_of_le hcount), readBlobs_append hblobs]
    by_cases hothers : maxBytes - json.length < totalBytes blobs
    · rw [if_pos hothers, if_pos (by omega)]
      rfl
    · rw [if_neg hothers, if_neg (by omega)]
      rfl

theorem length_le_totalBytes {b : Bytes} (h : b ∈ blobs) : b.length ≤ totalBytes blobs :=
  single_le_sum (by simp) _ (mem_map_of_mem h)

/-- **A frame gets across** exactly when it is within the reader's limit. -/
theorem written_and_read_iff (hmessage : fromSlice json = .ok message)
    (hcount : blobs.length ≤ maxBlobs) (hmax : maxBytes < 2 ^ 32) :
    (∃ out, write json blobs = .ok out ∧
      read fromSlice maxBytes out = .ok ((message, blobs), [])) ↔
      json.length + totalBytes blobs ≤ maxBytes := by
  constructor
  · rintro ⟨out, hwrite, hread⟩
    obtain ⟨-, hjson, hblobs, rfl⟩ := write_eq_ok.mp hwrite
    have hframe := @read_frame T fromSlice message json blobs maxBytes hmessage hcount hjson
      hblobs []
    rw [append_nil, hread] at hframe
    by_contra hlarge
    rw [if_pos (by omega)] at hframe
    cases hframe
  · intro hsize
    have hjson : json.length < 2 ^ 32 := by omega
    have hblobs : ∀ b ∈ blobs, b.length < 2 ^ 32 := by
      intro b hb
      have := length_le_totalBytes hb
      omega
    refine ⟨frame json blobs, write_eq_ok.mpr ⟨hcount, hjson, hblobs, rfl⟩, ?_⟩
    have hframe := @read_frame T fromSlice message json blobs maxBytes hmessage hcount hjson
      hblobs []
    rw [append_nil] at hframe
    rw [hframe, if_neg (by omega)]

/-! ## §3. What is taken from a stream -/

open Lib (Op)

/-- Four bytes off a stream; one that is shorter is read to its end. -/
def takeU32 : Op Bytes Error Nat := fun input =>
  if input.length < 4 then (.error .io, []) else (.ok (ofBe (input.take 4)), input.drop 4)

/-- `take(len)` and `read_to_end`. -/
def takeUpTo (len : Nat) : Op Bytes Error Bytes := Op.step fun input => (input.take len, input.drop len)

/-- One chunk off a stream, and what is left of the budget. -/
def takeChunk (budget : Nat) : Op Bytes Error (Bytes × Nat) := do
  let len ← takeU32
  if budget < len then throw tooLarge
  else
    let data ← takeUpTo len
    if data.length < len then throw .io else pure (data, budget - len)

def takeBlobs : Nat → Nat → Op Bytes Error (List Bytes)
  | 0, _ => pure []
  | count + 1, budget => do
    let chunk ← takeChunk budget
    let blobs ← takeBlobs count chunk.2
    pure (chunk.1 :: blobs)

/-- `read` with the stream as it leaves it, also where it fails. -/
def take (fromSlice : Bytes → Except Error T) (maxBytes : Nat) : Op Bytes Error (T × List Bytes) := do
  let head ← takeChunk maxBytes
  let message ← (fun input => (fromSlice head.1, input) : Op Bytes Error T)
  let count ← takeU32
  if maxBlobs < count then throw tooManyBlobs
  else
    let blobs ← takeBlobs count head.2
    pure (message, blobs)

/-- Read so many frames. -/
def takeAll (fromSlice : Bytes → Except Error T) (maxBytes : Nat) :
    Nat → Op Bytes Error (List (T × List Bytes))
  | 0 => pure []
  | n + 1 => do
    let frame ← take fromSlice maxBytes
    let frames ← takeAll fromSlice maxBytes n
    pure (frame :: frames)

/-- Write frames one after another. -/
def writeAll (toVec : T → Bytes) (frames : List (T × List Bytes)) : Except Error Bytes :=
  (frames.mapM (fun f => write (toVec f.1) f.2)).map flatten

theorem outcome_takeU32 (input : Bytes) : takeU32.outcome input = readU32 input := by
  by_cases h : input.length < 4
  · have hexec : takeU32.exec input = (.error .io, []) := if_pos h
    rw [Op.outcome, hexec, readU32, if_pos h]
    rfl
  · have hexec : takeU32.exec input = (.ok (ofBe (input.take 4)), input.drop 4) := if_neg h
    rw [Op.outcome, hexec, readU32, if_neg h]
    rfl

theorem outcome_takeChunk (budget : Nat) (input : Bytes) :
    (takeChunk budget).outcome input
      = (readChunk budget input).map (fun r => ((r.1, r.2.1), r.2.2)) := by
  unfold takeChunk readChunk
  rw [Op.outcome_bind, outcome_takeU32]
  cases readU32 input with
  | error e => rfl
  | ok r =>
    show Op.outcome (if budget < r.1 then _ else _) r.2 = Except.map _ (if budget < r.1 then _ else _)
    split
    · rfl
    · rw [Op.outcome_bind]
      show Op.outcome (if (r.2.take r.1).length < r.1 then _ else _) (r.2.drop r.1) = _
      have hshort : (r.2.take r.1).length < r.1 ↔ r.2.length < r.1 := by
        rw [length_take]
        omega
      by_cases h : r.2.length < r.1
      · rw [if_pos h, if_pos (hshort.mpr h)]
        rfl
      · rw [if_neg h, if_neg (mt hshort.mp h)]
        rfl

theorem outcome_takeBlobs (count : Nat) : ∀ (budget : Nat) (input : Bytes),
    (takeBlobs count budget).outcome input = readBlobs count budget input := by
  induction count with
  | zero =>
    intro budget input
    rfl
  | succ count ih =>
    intro budget input
    rw [takeBlobs, readBlobs, Op.outcome_bind, outcome_takeChunk]
    cases readChunk budget input with
    | error e => rfl
    | ok r =>
      show Op.outcome _ r.2.2 = _
      rw [Op.outcome_bind, ih]
      show (readBlobs count r.2.1 r.2.2).bind _ = (readBlobs count r.2.1 r.2.2).map _
      cases readBlobs count r.2.1 r.2.2 <;> rfl

/-- **What is taken from a stream is what `read` reads.** -/
theorem outcome_take (fromSlice : Bytes → Except Error T) (maxBytes : Nat) (input : Bytes) :
    (take fromSlice maxBytes).outcome input = read fromSlice maxBytes input := by
  unfold take read
  rw [Op.outcome_bind, outcome_takeChunk]
  cases readChunk maxBytes input with
  | error e => rfl
  | ok r =>
    show Op.outcome _ r.2.2 = (fromSlice r.1).bind _
    rw [Op.outcome_bind]
    show ((fromSlice r.1).map _).bind _ = _
    cases fromSlice r.1 with
    | error e => rfl
    | ok message =>
      show Op.outcome _ r.2.2 = (readU32 r.2.2).bind _
      rw [Op.outcome_bind, outcome_takeU32]
      cases readU32 r.2.2 with
      | error e => rfl
      | ok c =>
        show Op.outcome (if maxBlobs < c.1 then _ else _) c.2 = if maxBlobs < c.1 then _ else _
        split
        · rfl
        · rw [Op.outcome_bind, outcome_takeBlobs]
          show (readBlobs c.1 r.2.1 c.2).bind _ = (readBlobs c.1 r.2.1 c.2).map _
          cases readBlobs c.1 r.2.1 c.2 <;> rfl

/-! ## §4. How much is taken -/

/-- The operation takes bytes off the front of the stream, and no more than its length fields and
    the budget, of which it may leave some. -/
structure Spends {α : Type} (budget fields : Nat) (left : α → Nat) (x : Op Bytes Error α) : Prop where
  front : ∀ input, (x.exec input).2 <:+ input
  bound : ∀ input, input.length + (x.exec input).1.toOption.elim 0 left
    ≤ (x.exec input).2.length + fields + budget

section Rules

variable {α β : Type} {budget fields n : Nat} {left : α → Nat} {left' : β → Nat}

theorem Spends.bind {x : Op Bytes Error α} {f : α → Op Bytes Error β}
    (hx : Spends budget fields left x) (hf : ∀ a, Spends (left a) n left' (f a)) :
    Spends budget (fields + n) left' (x >>= f) := by
  have hboth : ∀ input, ((x >>= f).exec input).2 <:+ input ∧
      input.length + ((x >>= f).exec input).1.toOption.elim 0 left'
        ≤ ((x >>= f).exec input).2.length + (fields + n) + budget := by
    intro input
    have hfront := hx.front input
    have hbound := hx.bound input
    cases hexec : x.exec input with
    | mk r rest =>
      rw [hexec] at hfront hbound
      cases r with
      | error e =>
        rw [Op.exec_bind_error hexec]
        refine ⟨hfront, ?_⟩
        simp only [Except.toOption, Option.elim] at hbound ⊢
        omega
      | ok a =>
        rw [Op.exec_bind_ok hexec]
        refine ⟨((hf a).front rest).trans hfront, ?_⟩
        have hrest := (hf a).bound rest
        simp only [Except.toOption, Option.elim] at hbound hrest ⊢
        omega
  exact ⟨fun input => (hboth input).1, fun input => (hboth input).2⟩

theorem Spends.pure {a : α} (h : left a ≤ budget) : Spends budget fields left (pure a) where
  front _ := suffix_rfl
  bound input := by
    show input.length + left a ≤ input.length + fields + budget
    omega

theorem Spends.throw (e : Error) : Spends budget fields left (throw e) where
  front _ := suffix_rfl
  bound input := by
    show input.length + 0 ≤ input.length + fields + budget
    omega

theorem spends_takeU32 : Spends budget 4 (fun _ => budget) takeU32 := by
  constructor
  all_goals
    intro input
    by_cases h : input.length < 4
  · rw [show takeU32.exec input = (.error .io, []) from if_pos h]
    exact nil_suffix
  · rw [show takeU32.exec input = (.ok _, input.drop 4) from if_neg h]
    exact drop_suffix 4 input
  · rw [show takeU32.exec input = (.error .io, []) from if_pos h]
    show input.length + 0 ≤ 0 + 4 + budget
    omega
  · rw [show takeU32.exec input = (.ok _, input.drop 4) from if_neg h]
    show input.length + budget ≤ (input.drop 4).length + 4 + budget
    rw [length_drop]
    omega

theorem spends_takeUpTo {len : Nat} (h : len ≤ budget) :
    Spends budget 0 (fun _ => budget - len) (takeUpTo len) where
  front input := drop_suffix len input
  bound input := by
    show input.length + (budget - len) ≤ (input.drop len).length + 0 + budget
    rw [length_drop]
    omega

/-- A chunk takes what its length says off the budget, and four bytes that are free. -/
theorem spends_takeChunk : Spends budget 4 Prod.snd (takeChunk budget) := by
  refine spends_takeU32.bind (n := 0) fun len => ?_
  split
  · exact .throw tooLarge
  · refine (spends_takeUpTo (Nat.not_lt.mp ‹_›)).bind (n := 0) fun data => ?_
    split
    · exact .throw .io
    · exact .pure (Nat.le_refl _)

end Rules

theorem spends_takeBlobs (count budget : Nat) :
    Spends budget (4 * count) (fun _ => 0) (takeBlobs count budget) := by
  induction count generalizing budget with
  | zero => exact .pure (Nat.zero_le _)
  | succ count ih =>
    rw [show 4 * (count + 1) = 4 + (4 * count + 0) by omega]
    exact spends_takeChunk.bind fun c => (ih c.2).bind fun _ => .pure (Nat.le_refl _)

/-- **Reading a frame** takes its limit and the length fields, at most. -/
theorem spends_take (fromSlice : Bytes → Except Error T) (maxBytes : Nat) :
    Spends maxBytes (4 * (maxBlobs + 2)) (fun _ => 0) (take fromSlice maxBytes) := by
  rw [show 4 * (maxBlobs + 2) = 4 + (0 + (4 + 4 * maxBlobs)) by omega]
  refine spends_takeChunk.bind fun head => ?_
  have hlook : Spends head.2 0 (fun _ => head.2)
      (fun input => (fromSlice head.1, input) : Op Bytes Error T) := by
    refine ⟨fun input => suffix_rfl, fun input => ?_⟩
    show input.length + (fromSlice head.1).toOption.elim 0 _ ≤ input.length + 0 + head.2
    cases fromSlice head.1 with
    | error e => exact Nat.le_add_right _ _
    | ok message => exact Nat.le_refl _
  refine hlook.bind fun message => spends_takeU32.bind fun count => ?_
  split
  · exact .throw tooManyBlobs
  · have hblobs : Spends head.2 (4 * count + 0) (fun _ => 0)
        (takeBlobs count head.2 >>= fun blobs => pure (message, blobs)) :=
      (spends_takeBlobs count head.2).bind fun _ => .pure (Nat.le_refl _)
    refine ⟨hblobs.front, fun input => ?_⟩
    have := hblobs.bound input
    omega

/-! What is read off a stream stood there as `write` writes it. -/

/-- A length that was read stood in the stream, in its four bytes. -/
theorem readU32_sound {n : Nat} {input rest : Bytes} (h : readU32 input = .ok (n, rest)) :
    input = beBytes 4 n ++ rest := by
  rw [readU32, check_ok_iff] at h
  obtain ⟨hlong, heq⟩ := h
  cases heq
  have hfour : (input.take 4).length = 4 := by
    rw [length_take]
    omega
  have hbytes := beBytes_ofBe (input.take 4)
  rw [hfour] at hbytes
  rw [hbytes, take_append_drop]

/-- A chunk that was read stood in the stream behind its length, and is paid for by the budget. -/
theorem readChunk_sound {budget left : Nat} {input rest : Bytes}
    (h : readChunk budget input = .ok (data, left, rest)) :
    input = chunk data ++ rest ∧ data.length + left = budget := by
  obtain ⟨⟨len, after⟩, hlen, hr⟩ := bind_ok_iff.mp h
  simp only [check_ok_iff] at hr
  obtain ⟨hbudget, hlong, heq⟩ := hr
  cases heq
  have hdata : (after.take len).length = len := by
    rw [length_take]
    omega
  refine ⟨?_, by omega⟩
  rw [chunk, hdata, append_assoc, take_append_drop]
  exact readU32_sound hlen

/-- So did all blobs, as many as were announced and within the budget together. -/
theorem readBlobs_sound {count : Nat} : ∀ {budget : Nat} {input rest : Bytes}
    {blobs : List Bytes}, readBlobs count budget input = .ok (blobs, rest) →
      input = (blobs.map chunk).flatten ++ rest ∧ blobs.length = count ∧
        totalBytes blobs ≤ budget := by
  induction count with
  | zero =>
    intro budget input rest blobs h
    cases h
    exact ⟨rfl, rfl, Nat.zero_le _⟩
  | succ count ih =>
    intro budget input rest blobs h
    obtain ⟨⟨data, left, after⟩, hchunk, hmore⟩ := bind_ok_iff.mp h
    obtain ⟨more, hrest, heq⟩ := map_ok_iff.mp hmore
    cases heq
    obtain ⟨hinput, hlength⟩ := readChunk_sound hchunk
    obtain ⟨hafter, hcount, htotal⟩ := ih hrest
    refine ⟨?_, congrArg (· + 1) hcount, ?_⟩
    · rw [hinput, hafter, map_cons, flatten_cons, append_assoc]
    · simp only [totalBytes, map_cons, sum_cons] at htotal ⊢
      omega

/-- A frame that is returned stood in the stream, and is within the limit. -/
theorem read_sound {input rest : Bytes}
    (h : read fromSlice maxBytes input = .ok ((message, blobs), rest)) :
    ∃ json, input = frame json blobs ++ rest ∧ fromSlice json = .ok message ∧
      blobs.length ≤ maxBlobs ∧ json.length + totalBytes blobs ≤ maxBytes := by
  obtain ⟨⟨json, left, rest₁⟩, hchunk, h⟩ := bind_ok_iff.mp h
  obtain ⟨m, hmessage, h⟩ := bind_ok_iff.mp h
  obtain ⟨⟨count, rest₂⟩, hu32, h⟩ := bind_ok_iff.mp h
  simp only [check_ok_iff] at h
  obtain ⟨more, hblobs, heq⟩ := map_ok_iff.mp h.2
  cases heq
  obtain ⟨hinput, hlength⟩ := readChunk_sound hchunk
  obtain ⟨hafter, hcount, htotal⟩ := readBlobs_sound hblobs
  refine ⟨json, ?_, hmessage, ?_, by omega⟩
  · rw [hinput, readU32_sound hu32, hafter, ← hcount, frame, append_assoc, append_assoc]
  · rw [hcount]
    exact Nat.not_lt.mp h.1

/-- A message and blobs that may be written to a reader with this limit: the message is read back
    from its JSON, the blobs are not too many, and every length fits. -/
structure Within (toVec : T → Bytes) (fromSlice : Bytes → Except Error T) (maxBytes : Nat)
    (f : T × List Bytes) : Prop where
  reads : fromSlice (toVec f.1) = .ok f.1
  count : f.2.length ≤ maxBlobs
  json : (toVec f.1).length < 2 ^ 32
  blobs : ∀ b ∈ f.2, b.length < 2 ^ 32
  size : (toVec f.1).length + totalBytes f.2 ≤ maxBytes

theorem writeAll_takeAll {toVec : T → Bytes} {frames : List (T × List Bytes)}
    (h : ∀ f ∈ frames, Within toVec fromSlice maxBytes f) :
    ∃ out, writeAll toVec frames = .ok out ∧ ∀ tail,
      (takeAll fromSlice maxBytes frames.length).exec (out ++ tail) = (.ok frames, tail) := by
  refine ⟨(frames.map fun f => frame (toVec f.1) f.2).flatten, ?_, ?_⟩
  · have hwrite : ∀ f ∈ frames, write (toVec f.1) f.2 = .ok (frame (toVec f.1) f.2) := by
      intro f hf
      exact write_eq_ok.mpr ⟨(h f hf).count, (h f hf).json, (h f hf).blobs, rfl⟩
    rw [writeAll, mapM_eq_ok hwrite]
    rfl
  · intro tail
    induction frames with
    | nil => rfl
    | cons f frames ih =>
      obtain ⟨hf, hframes⟩ := forall_mem_cons.mp h
      have hread := @read_frame T fromSlice f.1 (toVec f.1) f.2 maxBytes hf.reads hf.count hf.json
        hf.blobs ((frames.map fun f => frame (toVec f.1) f.2).flatten ++ tail)
      rw [if_neg (Nat.not_lt.mpr hf.size), ← outcome_take] at hread
      rw [map_cons, flatten_cons, append_assoc, length_cons, takeAll,
        Op.exec_bind_ok (Op.exec_of_outcome hread), Op.exec_bind_ok (ih hframes)]
      rfl

/-- **Frames round-trip and are bounded.**  Frames written one after another are read one after
    another, each reading leaving what follows its frame; from any stream whatever, a reading takes
    no more than its limit and the length fields, and what it returns is a frame within the limit
    that stood there. -/
theorem frames_round_trip_bounded (toVec : T → Bytes) (fromSlice : Bytes → Except Error T)
    (maxBytes : Nat) :
    (∀ frames : List (T × List Bytes), (∀ f ∈ frames, Within toVec fromSlice maxBytes f) →
      ∃ out, writeAll toVec frames = .ok out ∧ ∀ tail,
        (takeAll fromSlice maxBytes frames.length).exec (out ++ tail) = (.ok frames, tail)) ∧
    ∀ input : Bytes,
      (∃ taken, input = taken ++ ((take fromSlice maxBytes).exec input).2 ∧
        taken.length ≤ maxBytes + 4 * (maxBlobs + 2)) ∧
      ∀ message blobs, ((take fromSlice maxBytes).exec input).1 = .ok (message, blobs) →
        ∃ json, input = frame json blobs ++ ((take fromSlice maxBytes).exec input).2 ∧
          fromSlice json = .ok message ∧ blobs.length ≤ maxBlobs ∧
          json.length + totalBytes blobs ≤ maxBytes := by
  refine ⟨fun frames h => writeAll_takeAll h, fun input => ⟨?_, fun message blobs h => ?_⟩⟩
  · obtain ⟨taken, htaken⟩ := (spends_take fromSlice maxBytes).front input
    refine ⟨taken, htaken.symm, ?_⟩
    have hbound := (spends_take fromSlice maxBytes).bound input
    have hlength := congrArg length htaken
    rw [length_append] at hlength
    omega
  · have hread := outcome_take fromSlice maxBytes input
    rw [Op.outcome, h] at hread
    exact read_sound hread.symm

end Frame

end Panora.Sync
