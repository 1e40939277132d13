/-
  Panora.Sync.Deadlock — two sessions joined by two streams.

  `run`, `read_loop`, `session_loop` and `push` in
  `crates/panora-sync/src/session.rs`, and the stream window of `transport_config` in
  `transport.rs`.  On each side a session loop sends frames and takes frames from an
  inbox of one; a reader reads frames and puts them into the inbox.  The loop does not
  take while it sends, or while it handles what it took.

  What a side wants to send is whatever its node and its daemon make it send, so it is
  part of the events: the commands, the pages, whether it has the group key, what
  became of a batch.  The two sides and their streams interleave in any way.

  Main results:
    * `sound_run` — what holds in every state the two sides can reach;
    * `deadlock_free_iff` — in which of these states the two loops are stuck.
-/
import Panora.Lib.Pipe
import Panora.Sync.Records

namespace Panora.Sync

open Lib Function

/-! ## §1. Frames -/

/-- The bytes a sender may be ahead of the reader of a stream. -/
def streamReceiveWindow : Nat := 4 * 1024 * 1024

/-- Most bytes of the first frame. -/
def maxHelloFrame : Nat := 512 * 1024

/-- `Message`, without what its size stands for.  `Bye` is sent by a session that has
    ended. -/
inductive Message where
  | hello
  | rosters
  | keyRequest
  | keyShare
  | records (batch : Nat)
  | applied (batch : Nat)
  | retry (batch : Nat)
  deriving DecidableEq

/-- A frame: its message, the bytes of the message as JSON, and of each blob. -/
structure Frame where
  message : Message
  json : Nat
  blobs : List Nat

/-- A length, the message, a count, and each blob with its length. -/
def Frame.size (f : Frame) : Nat := 4 + f.json + 4 + (f.blobs.map (fun b => 4 + b)).sum

/-- **The size of a frame** is the number of bytes written of it. -/
theorem Frame.length_write {json out : Bytes} {blobs : List Bytes} (message : Message)
    (h : Frame.write json blobs = .ok out) :
    out.length = Frame.size ⟨message, json.length, blobs.map List.length⟩ := by
  obtain ⟨-, -, -, rfl⟩ := Frame.write_eq_ok.mp h
  have hchunk : ∀ data : Bytes, (Frame.chunk data).length = 4 + data.length := by
    intro data
    rw [Frame.chunk, List.length_append, length_beBytes]
  have hchunks : (blobs.map Frame.chunk).map List.length
      = (blobs.map List.length).map (fun b => 4 + b) := by
    rw [List.map_map, List.map_map]
    exact List.map_congr_left fun b _ => hchunk b
  rw [Frame.frame, List.length_append, List.length_append, hchunk, length_beBytes,
    List.length_flatten, hchunks, Frame.size]

/-- The receiver's limits. -/
def Frame.Allowed (f : Frame) : Prop :=
  f.json + f.blobs.sum ≤ maxSyncFrame ∧ f.blobs.length ≤ Frame.maxBlobs

instance (f : Frame) : Decidable f.Allowed := inferInstanceAs (Decidable (_ ∧ _))

def Frame.hello (json : Nat) : Frame := ⟨.hello, json, []⟩

def Frame.keyRequest : Frame :=
  ⟨.keyRequest, Json.size (Json.obj [("type", Json.str "key_request")]), []⟩

def Frame.applied (batch : Nat) : Frame :=
  ⟨.applied batch,
    Json.size (Json.obj [("type", Json.str "applied"), ("batch", Json.num batch)]), []⟩

def Frame.retry (batch : Nat) : Frame :=
  ⟨.retry batch,
    Json.size (Json.obj [("type", Json.str "retry"), ("batch", Json.num batch)]), []⟩

/-! ## §2. The two sides -/

inductive Side where
  | dialler
  | listener
  deriving DecidableEq

def Side.other : Side → Side
  | .dialler => .listener
  | .listener => .dialler

/-- The variables of a session loop. -/
structure Party where
  sentHello : Bool
  /-- The other side's hello was taken: `peer_device` is known and the reader is told so. -/
  trusted : Bool
  inFlight : Option Nat
  nextBatch : Nat
  /-- What the loop sends next, before it takes anything. -/
  todo : List Frame

/-- Two sides; each has the stream it writes to, with the reader and the inbox at the
    other end, and whether that reader has read the first frame. -/
structure Link where
  party : Side → Party
  stream : Side → Pipe Frame
  greeted : Side → Bool

/-- Before the sessions run: which side knows the other as a member, and how long the
    hellos are. -/
structure Setup where
  knows : Side → Bool
  hello : Side → Nat
  hello_le : ∀ i, hello i ≤ maxHelloFrame

variable (setup : Setup)

def Setup.link : Link where
  party i :=
    { sentHello := setup.knows i
      trusted := false
      inFlight := none
      nextBatch := 1
      todo := if setup.knows i then [.hello (setup.hello i)] else [] }
  stream _ := Pipe.empty
  greeted _ := false

/-- What the node and the daemon say while a frame is handled. -/
structure Answer where
  hasCurrentKey : Bool
  /-- The bytes of the key share for the peer, if there is one. -/
  keyShare : Option Nat
  /-- The batch was applied. -/
  applied : Bool

/-- `KeyRequest`, if the key is missing. -/
def Answer.keyRequest (answer : Answer) : List Frame :=
  if answer.hasCurrentKey then [] else [.keyRequest]

/-- What a session loop does with a frame.  Anything but a hello first would end the
    session. -/
def Party.handle (hello : Frame) (answer : Answer) (p : Party) : Message → Party
  | .hello =>
    { p with
      trusted := true
      sentHello := true
      todo := (if p.sentHello then [] else [hello]) ++ answer.keyRequest }
  | .rosters => { p with todo := answer.keyRequest }
  | .keyRequest => { p with todo := answer.keyShare.toList.map (fun n => ⟨.keyShare, n, []⟩) }
  | .keyShare => p
  | .records batch =>
    { p with
      todo := if answer.applied then [.applied batch] else answer.keyRequest ++ [.retry batch] }
  | .applied batch | .retry batch =>
    { p with inFlight := if p.inFlight = some batch then none else p.inFlight }

/-- What happens, on which side. -/
inductive Deed where
  /-- The transport takes up to `n` bytes of what the loop sends. -/
  | write (n : Nat)
  /-- The reader at the other end reads up to `n` bytes. -/
  | read (n : Nat)
  /-- The reader at the other end puts a frame into the inbox. -/
  | deliver
  /-- The loop begins to send what it has to. -/
  | start
  /-- The loop takes a frame from its inbox. -/
  | take (answer : Answer)
  /-- A command of the node: the rosters or a key. -/
  | command (frame : Frame)
  /-- A page is pushed: a tick, a change, a nudge or an answer asks for it. -/
  | push (json : Nat) (blobs : List Nat)

/-- The loop is at its `select`. -/
def Link.Idle (l : Link) (i : Side) : Prop :=
  (l.party i).todo = [] ∧ (l.stream i).unwritten = 0

instance (l : Link) (i : Side) : Decidable (l.Idle i) := inferInstanceAs (Decidable (_ ∧ _))

def Link.setParty (l : Link) (i : Side) (p : Party) : Link :=
  { l with party := update l.party i p }

def Link.setStream (l : Link) (i : Side) (p : Pipe Frame) : Link :=
  { l with stream := update l.stream i p }

/-- The reader of a stream: after the first frame it waits until its side is told to
    trust the other. -/
def Link.read (l : Link) (i : Side) (n : Nat) : Link :=
  if l.greeted i = true ∧ (l.party i.other).trusted = false then l
  else
    let stream := (l.stream i).read Frame.size n
    { l.setStream i stream with
      greeted := update l.greeted i (l.greeted i || stream.held.isSome) }

/-- A frame is taken and handled. -/
def Link.take (l : Link) (i : Side) (answer : Answer) : Link :=
  match (l.stream i.other).slot with
  | some frame =>
    if l.Idle i ∧ ((l.party i).trusted = true ∨ frame.message = .hello) then
      (l.setStream i.other (l.stream i.other).take).setParty i
        ((l.party i).handle (.hello (setup.hello i)) answer frame.message)
    else l
  | none => l

/-- One of these things. -/
def Link.step (l : Link) (i : Side) : Deed → Link
  | .write n => l.setStream i ((l.stream i).write Frame.size streamReceiveWindow n)
  | .read n => l.read i n
  | .deliver => l.setStream i (l.stream i).deliver
  | .start =>
    match (l.party i).todo with
    | frame :: todo =>
      if (l.stream i).unwritten = 0 then
        (l.setStream i ((l.stream i).start Frame.size frame)).setParty i { l.party i with todo }
      else l
    | [] => l
  | .take answer => l.take setup i answer
  | .command frame =>
    if l.Idle i ∧ (l.party i).trusted = true ∧ frame.Allowed ∧
        (frame.message = .rosters ∨ frame.message = .keyShare) then
      l.setStream i ((l.stream i).start Frame.size frame)
    else l
  | .push json blobs =>
    let frame : Frame := ⟨.records (l.party i).nextBatch, json, blobs⟩
    if l.Idle i ∧ (l.party i).trusted = true ∧ (l.party i).inFlight = none ∧ frame.Allowed then
      (l.setStream i ((l.stream i).start Frame.size frame)).setParty i
        { l.party i with
          inFlight := some (l.party i).nextBatch, nextBatch := (l.party i).nextBatch + 1 }
    else l

/-- A list of them, from a state on. -/
def Link.run (l : Link) (deeds : List (Side × Deed)) : Link :=
  deeds.foldl (fun l d => l.step setup d.1 d.2) l

/-- Both session loops are inside `send` and stay there, whatever happens while the
    connection is up. -/
def Link.Deadlocked (l : Link) : Prop :=
  ∀ deeds, ∀ i, 0 < ((l.run setup deeds).stream i).unwritten

/-- What one side has sent or is sending, and the other loop has not taken, has room:
    one frame in the inbox, one with the reader, and the others in the window. -/
def Link.Fits (l : Link) (i : Side) : Prop :=
  Pipe.total Frame.size ((l.stream i).outstanding.drop 2) ≤ streamReceiveWindow

instance (l : Link) (i : Side) : Decidable (l.Fits i) := inferInstanceAs (Decidable (_ ≤ _))

/-! ## §3. What holds in every state -/

/-- A stream and the loop that writes to it.  Until the loop has seen the other side's
    hello it has sent nothing but its own, which the window can hold. -/
structure SideSound (stream : Pipe Frame) (party : Party) : Prop where
  valid : stream.Valid Frame.size streamReceiveWindow
  stranger : party.trusted = false →
    Pipe.total Frame.size (stream.outstanding ++ party.todo) ≤ streamReceiveWindow

def Link.Sound (l : Link) : Prop := ∀ i, SideSound (l.stream i) (l.party i)

variable {setup : Setup} {l : Link} {i : Side}

theorem sound_setStream (h : l.Sound) {p : Pipe Frame} (hp : SideSound p (l.party i)) :
    (l.setStream i p).Sound := by
  intro j
  by_cases hj : j = i
  · subst hj
    show SideSound (update l.stream j p j) (l.party j)
    rw [update_self]
    exact hp
  · show SideSound (update l.stream i p j) (l.party j)
    rw [update_of_ne hj]
    exact h j

theorem sound_setParty (h : l.Sound) {q : Party} (hq : SideSound (l.stream i) q) :
    (l.setParty i q).Sound := by
  intro j
  by_cases hj : j = i
  · subst hj
    show SideSound (l.stream j) (update l.party j q j)
    rw [update_self]
    exact hq
  · show SideSound (l.stream j) (update l.party i q j)
    rw [update_of_ne hj]
    exact h j

/-- What the two ends of a stream do by themselves. -/
theorem sideSound_move {stream : Pipe Frame} {party : Party} (h : SideSound stream party)
    (m : Pipe.Move) : SideSound (stream.move Frame.size streamReceiveWindow m) party :=
  ⟨Pipe.valid_move h.valid m, by rw [Pipe.outstanding_move]; exact h.stranger⟩

/-- A side that has seen the other's hello may begin to send anything. -/
theorem sideSound_start {stream : Pipe Frame} {party : Party}
    (h : stream.Valid Frame.size streamReceiveWindow) (hdone : stream.unwritten = 0)
    (htrusted : party.trusted = true) (frame : Frame) :
    SideSound (stream.start Frame.size frame) party :=
  ⟨Pipe.valid_start h hdone frame, fun hnot => by rw [htrusted] at hnot; cases hnot⟩

theorem sound_begun (h : l.Sound) : (l.step setup i .start).Sound := by
  unfold Link.step
  dsimp only
  split
  next frame todo htodo =>
    split
    next hdone =>
      have hi := h i
      have hparty : (l.setParty i { l.party i with todo }).Sound := by
        refine sound_setParty h ⟨hi.valid, fun hnot => ?_⟩
        have hle := hi.stranger hnot
        rw [htodo] at hle
        simp only [Pipe.total_append, Pipe.total_cons] at hle ⊢
        omega
      -- the frame leaves the list and enters the stream
      refine sound_setStream hparty ⟨Pipe.valid_start hi.valid hdone frame, fun hnot => ?_⟩
      have hself : (l.setParty i { l.party i with todo }).party i = { l.party i with todo } :=
        update_self ..
      rw [hself] at hnot ⊢
      have hle := hi.stranger hnot
      rw [htodo] at hle
      rw [Pipe.outstanding_start]
      simp only [Pipe.total_append, Pipe.total_cons, Pipe.total_nil] at hle ⊢
      omega
    next => exact h
  next => exact h

/-- Handling a frame needs the other side's hello, or is about it. -/
theorem trusted_handle {hello : Frame} {answer : Answer} {p : Party} {message : Message}
    (h : p.trusted = true ∨ message = .hello) : (p.handle hello answer message).trusted = true := by
  cases message with
  | hello => rfl
  | rosters => exact h.resolve_right (by simp)
  | keyRequest => exact h.resolve_right (by simp)
  | keyShare => exact h.resolve_right (by simp)
  | records batch => exact h.resolve_right (by simp)
  | applied batch => exact h.resolve_right (by simp)
  | retry batch => exact h.resolve_right (by simp)

theorem sound_take (h : l.Sound) (answer : Answer) : (l.take setup i answer).Sound := by
  unfold Link.take
  split
  next frame hslot =>
    split
    next hguard =>
      have hother := h i.other
      have hstream : (l.setStream i.other (l.stream i.other).take).Sound := by
        refine sound_setStream h ⟨Pipe.valid_take hother.valid, fun hnot => ?_⟩
        have hle := hother.stranger hnot
        rw [Pipe.outstanding_of_slot hslot] at hle
        simp only [List.cons_append, Pipe.total_cons] at hle
        omega
      refine sound_setParty hstream ⟨(hstream i).valid, fun hnot => ?_⟩
      rw [trusted_handle hguard.2] at hnot
      cases hnot
    next => exact h
  next => exact h

theorem sound_read (h : l.Sound) (n : Nat) : (l.read i n).Sound := by
  unfold Link.read
  split
  · exact h
  · exact sound_setStream h (sideSound_move (h i) (.read n))

/-- One deed keeps the two sides sound. -/
theorem sound_step (h : l.Sound) (i : Side) (d : Deed) : (l.step setup i d).Sound := by
  cases d with
  | write n => exact sound_setStream h (sideSound_move (h i) (.write n))
  | read n => exact sound_read h n
  | deliver => exact sound_setStream h (sideSound_move (h i) .deliver)
  | start => exact sound_begun h
  | take answer => exact sound_take h answer
  | command frame =>
    unfold Link.step
    dsimp only
    split
    next hguard =>
      exact sound_setStream h (sideSound_start (h i).valid hguard.1.2 hguard.2.1 frame)
    next => exact h
  | push json blobs =>
    unfold Link.step
    dsimp only
    split
    next hguard =>
      have hstream := sound_setStream h
        (sideSound_start (h i).valid hguard.1.2 hguard.2.1
          ⟨.records (l.party i).nextBatch, json, blobs⟩)
      refine sound_setParty hstream ⟨(hstream i).valid, fun hnot => ?_⟩
      have hnot : (l.party i).trusted = false := hnot
      rw [hguard.2.1] at hnot
      cases hnot
    next => exact h

theorem sound_run_from (h : l.Sound) (deeds : List (Side × Deed)) : (l.run setup deeds).Sound := by
  induction deeds generalizing l with
  | nil => exact h
  | cons d deeds ih => exact ih (sound_step h d.1 d.2)

theorem sound_link (setup : Setup) : setup.link.Sound := by
  intro i
  refine ⟨Pipe.valid_empty, fun _ => ?_⟩
  show Pipe.total Frame.size ([] ++ if setup.knows i then [.hello (setup.hello i)] else [])
    ≤ streamReceiveWindow
  have hle := setup.hello_le i
  unfold maxHelloFrame at hle
  unfold streamReceiveWindow
  split
  · show 4 + setup.hello i + 4 + 0 + 0 ≤ _
    omega
  · show 0 ≤ _
    omega

/-- **What holds in every state the two sides can reach.** -/
theorem sound_run (setup : Setup) (deeds : List (Side × Deed)) :
    (setup.link.run setup deeds).Sound :=
  sound_run_from (sound_link setup) deeds

/-! ## §4. Stuck -/

/-- If neither side's frames fit, both loops are in `send`. -/
theorem sending_of_not_fits (h : l.Sound) (hfull : ¬ l.Fits i) : 0 < (l.stream i).unwritten :=
  Pipe.blocked_of_overfull (h i).valid (Nat.lt_of_not_le hfull)

theorem outstanding_setStream_self {p : Pipe Frame}
    (hp : p.outstanding = (l.stream i).outstanding) (j : Side) :
    ((l.setStream i p).stream j).outstanding = (l.stream j).outstanding := by
  by_cases hj : j = i
  · subst hj
    show (update l.stream j p j).outstanding = _
    rw [update_self]
    exact hp
  · show (update l.stream i p j).outstanding = _
    rw [update_of_ne hj]

/-- While both loops are in `send`, nothing is begun and nothing is taken. -/
theorem outstanding_step (h : ∀ j, 0 < (l.stream j).unwritten) (i : Side) (d : Deed) (j : Side) :
    ((l.step setup i d).stream j).outstanding = (l.stream j).outstanding := by
  have hbusy : ¬ l.Idle i := fun hidle => by
    have hi := h i
    rw [hidle.2] at hi
    omega
  cases d with
  | write n => exact outstanding_setStream_self (Pipe.outstanding_move _ _ (.write n)) j
  | read n =>
    show ((l.read i n).stream j).outstanding = _
    unfold Link.read
    split
    · rfl
    · exact outstanding_setStream_self
        (Pipe.outstanding_move Frame.size streamReceiveWindow (.read n)) j
  | deliver =>
    exact outstanding_setStream_self
      (Pipe.outstanding_move Frame.size streamReceiveWindow .deliver) j
  | start =>
    have hsend : ¬ (l.stream i).unwritten = 0 := Nat.ne_of_gt (h i)
    unfold Link.step
    dsimp only
    split
    · rw [if_neg hsend]
    · rfl
  | take answer =>
    show ((l.take setup i answer).stream j).outstanding = _
    unfold Link.take
    split
    · rw [if_neg (fun hguard => hbusy hguard.1)]
    · rfl
  | command frame =>
    unfold Link.step
    dsimp only
    rw [if_neg (fun hguard => hbusy hguard.1)]
  | push json blobs =>
    unfold Link.step
    dsimp only
    rw [if_neg (fun hguard => hbusy hguard.1)]

/-- **If neither side's frames fit, the two loops are stuck for ever.** -/
theorem deadlocked_of_not_fits (h : l.Sound) (hfull : ∀ i, ¬ l.Fits i) : l.Deadlocked setup := by
  intro deeds
  induction deeds generalizing l with
  | nil => exact fun i => sending_of_not_fits h (hfull i)
  | cons d deeds ih =>
    have hsend : ∀ j, 0 < (l.stream j).unwritten := fun j => sending_of_not_fits h (hfull j)
    refine ih (sound_step h d.1 d.2) (fun i => ?_)
    unfold Link.Fits
    rw [outstanding_step hsend]
    exact hfull i

/-! ## §5. Not stuck -/

/-- What a stream's ends do, as deeds of the side that writes to it. -/
def deedOf : Pipe.Move → Deed
  | .write n => .write n
  | .read n => .read n
  | .deliver => .deliver

/-- With the other side's trust its reader reads whatever there is. -/
theorem step_deedOf (setup : Setup) (htrusted : (l.party i.other).trusted = true) (m : Pipe.Move) :
    (l.step setup i (deedOf m)).stream i
        = (l.stream i).move Frame.size streamReceiveWindow m ∧
      (l.step setup i (deedOf m)).party = l.party := by
  cases m with
  | write n => exact ⟨update_self .., rfl⟩
  | read n =>
    have hmay : ¬ (l.greeted i = true ∧ (l.party i.other).trusted = false) := by
      rw [htrusted]
      simp
    show (l.read i n).stream i = _ ∧ (l.read i n).party = l.party
    unfold Link.read
    rw [if_neg hmay]
    exact ⟨update_self .., rfl⟩
  | deliver => exact ⟨update_self .., rfl⟩

theorem run_deedOf (htrusted : (l.party i.other).trusted = true) (ms : List Pipe.Move) :
    (l.run setup (ms.map (fun m => (i, deedOf m)))).stream i
      = (l.stream i).moves Frame.size streamReceiveWindow ms := by
  induction ms generalizing l with
  | nil => rfl
  | cons m ms ih =>
    obtain ⟨hstream, hparty⟩ := step_deedOf setup htrusted m
    show ((l.step setup i (deedOf m)).run setup _).stream i = _
    rw [ih (by rw [hparty]; exact htrusted), hstream]
    rfl

/-- A side that has sent nothing but its hello finishes by itself. -/
theorem finishes_of_stranger (setup : Setup) (h : l.Sound) (hnot : (l.party i).trusted = false) :
    ((l.step setup i (.write (l.stream i).unwritten)).stream i).unwritten = 0 := by
  have hwrite : (l.step setup i (.write (l.stream i).unwritten)).stream i
      = (l.stream i).write Frame.size streamReceiveWindow (l.stream i).unwritten :=
    update_self ..
  rw [hwrite]
  show (l.stream i).unwritten
    - min (l.stream i).unwritten (streamReceiveWindow - (l.stream i).inFlight Frame.size) = 0
  have hle := (h i).stranger hnot
  have hparts := (h i).valid.parts
  unfold Pipe.outstanding at hle
  unfold Pipe.inFlight
  simp only [Pipe.total_append] at hle
  omega

/-- **If one side's frames fit, one of the loops can get out of its send.** -/
theorem not_deadlocked_of_fits (h : l.Sound) (hfits : l.Fits i) : ¬ l.Deadlocked setup := by
  intro hdead
  by_cases hstranger : ∃ j, (l.party j).trusted = false
  · obtain ⟨j, hj⟩ := hstranger
    have hdone := finishes_of_stranger setup h hj
    have hsend := hdead [(j, .write (l.stream j).unwritten)] j
    have hrun : l.run setup [(j, .write (l.stream j).unwritten)]
        = l.step setup j (.write (l.stream j).unwritten) := rfl
    rw [hrun, hdone] at hsend
    omega
  · have htrusted : (l.party i.other).trusted = true := by
      by_contra hnot
      exact hstranger ⟨i.other, Bool.eq_false_iff.mpr hnot⟩
    obtain ⟨ms, hms⟩ := Pipe.drains (by decide) (h i).valid (Nat.not_lt.mpr hfits)
    have hsend := hdead (ms.map (fun m => (i, deedOf m))) i
    rw [run_deedOf htrusted, hms] at hsend
    omega

/-- **When two sessions are not stuck.**  In any state two sessions reach, there is a way
    for one of the two loops to get out of its `send` exactly when the frames of one side
    that the other has not taken fit: all but the first two into the window. -/
theorem deadlock_free_iff (setup : Setup) (deeds : List (Side × Deed)) :
    ¬ (setup.link.run setup deeds).Deadlocked setup ↔
      ∃ i, (setup.link.run setup deeds).Fits i := by
  constructor
  · intro hfree
    by_contra hnone
    exact hfree (deadlocked_of_not_fits (sound_run setup deeds) (not_exists.mp hnone))
  · rintro ⟨i, hfits⟩
    exact not_deadlocked_of_fits (sound_run setup deeds) hfits

namespace Sample

/-- Two members of a group, with hellos of two kilobytes. -/
def members : Setup := ⟨fun _ => true, fun _ => 2000, fun _ => by decide⟩

/-- A frame is sent, read and put into the inbox. -/
def across (i : Side) : List (Side × Deed) := [(i, .write 4096), (i, .read 4096), (i, .deliver)]

/-- Both greet; then each has removed a device, so it sends the rosters and a key, and
    pushes a page with a picture of five megabytes. -/
def bothRemove : List (Side × Deed) :=
  let answer : Answer := ⟨true, none, true⟩
  let change (i : Side) : List (Side × Deed) :=
    [(i, .command ⟨.rosters, 3000, []⟩)] ++ across i ++ [(i, .command ⟨.keyShare, 200, []⟩)] ++
      across i ++ [(i, .push 100 [5 * 1024 * 1024])]
  [(.dialler, .start)] ++ across .dialler ++ [(.listener, .start)] ++ across .listener ++
    [(.dialler, .take answer), (.listener, .take answer)] ++ change .dialler ++ change .listener

/-- Both are now in the `send` of their page, for ever. -/
theorem both_remove_and_push_deadlock :
    (members.link.run members bothRemove).Deadlocked members :=
  deadlocked_of_not_fits (sound_run members bothRemove) (fun i => by
    cases i with
    | dialler => decide +kernel
    | listener => decide +kernel)

end Sample

end Panora.Sync
