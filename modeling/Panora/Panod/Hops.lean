/-
  Panora.Panod.Hops — entries that travel from device to device.

  Devices capture, pin, delete, clear and run retention, hand out pages of their feeds and apply
  records that were handed out, in any order and at any time later.  The hash of an entry is over
  its formats in the order of `wanted_order`; the database forgets the order, and `load_payloads`
  finds it again.

  Main result:
    * `entries_stay_verifiable` — on every device, what a live entry loads as has the hash the
      entry is under.
-/
import Panora.Panod.Made

namespace Panora.Panod

open Storage Lib Lib.Op

/-! ## §1. Entries that can be verified -/

/-- Payloads that were captured, in the order they are captured in, with this hash. -/
structure Verifies (h : Hash) (lists : List (List MimePayload)) (k : EntryKey)
    (payloads : List MimePayload) : Prop where
  known : payloads ∈ lists
  preferred : Preferred payloads
  formats : ∀ p ∈ payloads, p.mime ≠ thumbnailMime
  hash : h.payloadHash payloads = k.contentHash

/-- Contents and lists of payloads that the hash tells apart. -/
structure ToldApart (h : Hash) (all : List MimePayload) (lists : List (List MimePayload)) : Prop where
  contents : CollisionFreeOn h (all.map MimePayload.data)
  lists : ∀ a ∈ lists, ∀ b ∈ lists, h.payloadHash a = h.payloadHash b → a = b

section Verifiable

variable {h : Hash} {all : List MimePayload} {lists : List (List MimePayload)} {d d' : Daemon}
  {env : Env} {record : SyncRecord} {r : EntryRow}

theorem verifiable_blank (hapart : ToldApart h all lists) (key : Key) :
    Stocked h all (Verifies h lists) (blank key) :=
  ⟨⟨fun p hp q hq heq => hapart.contents p.data (List.mem_map_of_mem hp) q.data
      (List.mem_map_of_mem hq) heq, fun _ _ hsome => absurd hsome Bool.false_ne_true⟩,
    fun _ hb => absurd hb List.not_mem_nil, fun _ hr => absurd hr List.not_mem_nil⟩

/-- **What a live entry loads as has its hash.** -/
theorem Stocked.verified (hd : Stocked h all (Verifies h lists) d) (hr : r ∈ d.db.entries.rows)
    (hlive : r.cols.deleted = false) :
    ∃ payloads, loadPayloads d r.id = .ok payloads ∧ Verifies h lists r.key payloads := by
  obtain ⟨payloads, hfits, hholds⟩ | ⟨hdel, -⟩ := hd.stock r hr
  · have hrow := Table.get_eq_some.mpr ⟨hr, rfl⟩
    exact ⟨payloads, loadPayloads_of_holds hrow hlive hholds hfits.preferred, hfits⟩
  · exact absurd (hlive.symm.trans hdel) Bool.false_ne_true

/-- A capture, and its retention pass. -/
theorem Stocked.stored (hd : Stocked env.hash all (Verifies env.hash lists) d)
    (hapart : ToldApart env.hash all lists) {data : ClipboardData}
    (hown : Verifies env.hash lists (keyOf env data) data.payloads) (hput : putBy env data ⊆ all) :
    Stocked env.hash all (Verifies env.hash lists) (Panod.stored env data d) := by
  rw [stored_eq]
  have hcapture := hd.capture hown.formats hown.preferred.nodup hput (fun held hheld => by
    -- the same hash is the same list
    rw [recaptured (hheld.imp_right fun h =>
      hapart.lists _ h.known _ hown.known (h.hash.trans hown.hash.symm))]
    exact hown)
  exact hcapture.thinned (thinned_collectGarbage env _)

/-! ## §2. Records -/

/-- A record of a live entry carries its payloads as they were captured. -/
def Genuine (h : Hash) (lists : List (List MimePayload)) (record : SyncRecord) : Prop :=
  record.deleted = false → Verifies h lists record.key record.payloads

/-- What the feed hands out of such a history is genuine. -/
theorem Stocked.genuine (hd : Stocked h all (Verifies h lists) d) {since next : Int} {limit : Nat}
    {scope : SyncScope} {records : List SyncRecord} {more : Bool}
    (hpage : syncChanges env d since limit scope = .ok (records, next, more))
    (hmem : record ∈ records) : Genuine h lists record := by
  obtain ⟨r, hr, -, hrecord⟩ := mem_syncChanges hpage hmem
  obtain ⟨payloads, hload, rfl⟩ := recordOf_some hrecord
  intro hlive
  have hlive : r.cols.deleted = false := hlive
  obtain ⟨captured, hcaptured, hverifies⟩ := hd.verified hr hlive
  rw [payloadsOf, hlive, if_neg Bool.false_ne_true, hcaptured] at hload
  cases hload
  exact hverifies

theorem thinned_deleteLive (env : Env) (entry : Entry) :
    Keeps Thinned (deleteLive env entry) := by
  unfold deleteLive
  split
  · exact keeps_pure Thinned.refl ()
  · refine Thinned.bind (thinned_tombstone entry.id env.now) fun _ => ?_
    exact Thinned.bind (thinned_collectGarbage env) fun _ => keeps_pure Thinned.refl ()

/-- **Applying a genuine record** keeps the history verifiable. -/
theorem Stocked.applied (hapart : ToldApart env.hash all lists)
    (hgenuine : Genuine env.hash lists record)
    (hput : putBy env (captureOf (clampTimes env record)) ⊆ all) :
    Keeps (fun d d' => Stocked env.hash all (Verifies env.hash lists) d →
      Stocked env.hash all (Verifies env.hash lists) d') (applyRecord env record) := by
  generalize hR : (fun d d' : Daemon => Stocked env.hash all (Verifies env.hash lists) d →
    Stocked env.hash all (Verifies env.hash lists) d') = R
  have hbind : ∀ {α β : Type} {x : Request α} {f : α → Request β}, Keeps R x →
      (∀ a, Keeps R (f a)) → Keeps R (x >>= f) := by
    subst hR
    exact fun hx hf => keeps_bind (fun _ _ _ h h' hd => h' (h hd)) hx hf
  have hthin : ∀ {α : Type} {x : Request α}, Keeps Thinned x → Keeps R x := by
    subst hR
    exact fun hx d hd => hd.thinned (hx d)
  have htake : ∀ record id, Keeps Thinned (takeOver record id) :=
    fun _ _ => thinned_tracked (fun _ h => h)
  unfold applyRecord
  dsimp only
  split
  · exact hthin (keeps_pure Thinned.refl _)
  refine hbind (hthin ?_) fun _ => hbind (hthin (keeps_reads Thinned.refl _)) fun here => ?_
  · unfold observe
    split
    · exact fun d => Recast.thinned (d := d) (recast_of_eq rfl rfl)
    · exact keeps_pure Thinned.refl ()
  split
  · exact hthin (keeps_pure Thinned.refl _)
  unfold applyWinning
  split
  · -- a tombstone
    cases here with
    | none => exact hthin (keeps_pure Thinned.refl _)
    | some entry =>
      refine hthin (Thinned.bind (thinned_deleteLive env entry) fun _ => ?_)
      exact Thinned.bind (thinned_tracked (fun _ h => h)) fun _ => keeps_pure Thinned.refl _
  next hlive =>
    split
    · exact hthin (Thinned.bind (htake _ _) fun _ => keeps_pure Thinned.refl _)
    · -- content that is not here is stored as a capture is
      unfold applyNew
      split
      · have hverifies := hgenuine (Bool.eq_false_iff.mpr hlive)
        have hstore : Keeps R (store env (captureOf (clampTimes env record))) := by
          subst hR
          exact fun d hd => hd.stored hapart
            ⟨hverifies.known, hverifies.preferred, hverifies.formats, rfl⟩ hput
        refine hbind hstore fun entry => hthin ?_
        refine Thinned.bind (thinned_changeDb ?_) fun _ =>
          Thinned.bind (htake _ _) fun _ => keeps_pure Thinned.refl _
        intro db db' hrun
        rw [Database.changing_eq hrun]
        refine ⟨rfl, _, rfl, ?_⟩
        intro r _ hlive
        split at hlive
        · exact hlive
        · exact hlive
      · exact hthin (keeps_pure Thinned.refl _)

end Verifiable

/-! ## §3. Devices -/

/-- What happens on a device. -/
inductive Doing where
  | captured (env : Env) (data : ClipboardData) (hcaptured : Captured data)
  | pinned (env : Env) (id : Nat) (on : Bool)
  | deleted (env : Env) (id : Nat)
  | cleared (env : Env)
  | passed (env : Env)
  | applied (env : Env) (record : SyncRecord)

namespace Doing

def env : Doing → Env
  | captured env _ _ | pinned env _ _ | deleted env _ | cleared env | passed env
  | applied env _ => env

/-- The device after it, whatever it answered. -/
def run (d : Daemon) : Doing → Daemon
  | captured env data _ => stored env data d
  | pinned env id on => (exec (setPinned env id on) d).2
  | deleted env id => (exec (delete env id) d).2
  | cleared env => (exec (clear env) d).2
  | passed env => (exec (collectGarbage env) d).2
  | applied env record => (exec (applyRecord env record) d).2

/-- The record it applies, if any. -/
def record : Doing → Option SyncRecord
  | applied _ record => some record
  | _ => none

/-- What it puts into the blob directory. -/
def puts : Doing → List MimePayload
  | captured env data _ => putBy env data
  | applied env record => putBy env (captureOf (clampTimes env record))
  | _ => []

/-- The list of payloads it captures, if any. -/
def captures : Doing → List (List MimePayload)
  | captured _ data _ => [data.payloads]
  | _ => []

end Doing

/-- The devices and the records their feeds have handed out, after any number of steps that put
    and capture nothing but these payloads. -/
inductive Reached {D : Type} [DecidableEq D] (h : Hash) (all : List MimePayload)
    (lists : List (List MimePayload)) : (D → Daemon) → List SyncRecord → Prop where
  | start (keys : D → Key) : Reached h all lists (fun i => blank (keys i)) []
  | does {devices : D → Daemon} {sent : List SyncRecord} (i : D) (doing : Doing)
      (reached : Reached h all lists devices sent) (hash : doing.env.hash = h)
      (puts : doing.puts ⊆ all) (captures : doing.captures ⊆ lists)
      (handedOut : ∀ record ∈ doing.record, record ∈ sent) :
      Reached h all lists (Function.update devices i (doing.run (devices i))) sent
  | handsOut {devices : D → Daemon} {sent records : List SyncRecord} (i : D) (env : Env)
      (since next : Int) (limit : Nat) (scope : SyncScope) (more : Bool)
      (reached : Reached h all lists devices sent)
      (page : syncChanges env (devices i) since limit scope = .ok (records, next, more)) :
      Reached h all lists devices (sent ++ records)

/-- Several things happen on one device. -/
theorem Reached.run {D : Type} [DecidableEq D] {h : Hash} {all : List MimePayload}
    {lists : List (List MimePayload)} {devices : D → Daemon} {sent : List SyncRecord}
    (hreached : Reached h all lists devices sent) {i : D} {d : Daemon} (hd : devices i = d)
    {doings : List Doing}
    (hall : ∀ doing ∈ doings, doing.env.hash = h ∧ doing.puts ⊆ all ∧ doing.captures ⊆ lists ∧
      ∀ record ∈ doing.record, record ∈ sent) :
    Reached h all lists (Function.update devices i (doings.foldl Doing.run d)) sent := by
  subst hd
  induction doings generalizing devices with
  | nil =>
    rw [List.foldl_nil, Function.update_eq_self]
    exact hreached
  | cons doing rest ih =>
    obtain ⟨⟨hhash, hputs, hcaptures, hhanded⟩, hrest⟩ := List.forall_mem_cons.mp hall
    have hafter := ih (hreached.does i doing hhash hputs hcaptures hhanded) hrest
    rw [Function.update_idem, Function.update_self] at hafter
    exact hafter

theorem thinned_clear (env : Env) : Keeps Thinned (clear env) :=
  keeps_of_maintains Thinned.refl fun d => (retains_thinned env d).clear

theorem Stocked.run {all : List MimePayload} {lists : List (List MimePayload)} {doing : Doing}
    {d : Daemon} (hapart : ToldApart doing.env.hash all lists) (hputs : doing.puts ⊆ all)
    (hcaptures : doing.captures ⊆ lists)
    (hgenuine : ∀ record ∈ doing.record, Genuine doing.env.hash lists record)
    (hd : Stocked doing.env.hash all (Verifies doing.env.hash lists) d) :
    Stocked doing.env.hash all (Verifies doing.env.hash lists) (doing.run d) := by
  cases doing with
  | captured env data hcaptured =>
    have hknown : data.payloads ∈ lists := hcaptures List.mem_cons_self
    exact hd.stored hapart
      ⟨hknown, hcaptured.preferred, hcaptured.mime_ne_thumbnail, rfl⟩ hputs
  | pinned env id on => exact hd.thinned (thinned_setPinned env id on d)
  | deleted env id => exact hd.thinned (thinned_delete env id d)
  | cleared env => exact hd.thinned (thinned_clear env d)
  | passed env => exact hd.thinned (thinned_collectGarbage env d)
  | applied env record => exact Stocked.applied hapart (hgenuine record rfl) hputs d hd

/-- **Entries stay verifiable on every device**, however they got there. -/
theorem entries_stay_verifiable {D : Type} [DecidableEq D] {h : Hash} {all : List MimePayload}
    {lists : List (List MimePayload)} (hapart : ToldApart h all lists) {devices : D → Daemon}
    {sent : List SyncRecord} (hreached : Reached h all lists devices sent) (i : D)
    (r : EntryRow) (hr : r ∈ (devices i).db.entries.rows) (hlive : r.cols.deleted = false) :
    ∃ payloads, loadPayloads (devices i) r.id = .ok payloads ∧
      h.payloadHash payloads = r.key.contentHash := by
  have hkept : (∀ i, Stocked h all (Verifies h lists) (devices i)) ∧
      ∀ record ∈ sent, Genuine h lists record := by
    clear hr
    induction hreached with
    | start keys =>
      exact ⟨fun i => verifiable_blank hapart (keys i), fun _ h => absurd h List.not_mem_nil⟩
    | does j doing _ hhash hputs hcaptures hhanded ih =>
      obtain ⟨hall, hsent⟩ := ih
      refine ⟨fun i => ?_, hsent⟩
      subst hhash
      by_cases hij : i = j
      · subst hij
        rw [Function.update_self]
        exact (hall i).run hapart hputs hcaptures
          (fun record hrecord => hsent record (hhanded record hrecord))
      · rw [Function.update_of_ne hij]
        exact hall i
    | handsOut j env since next limit scope more _ hpage ih =>
      obtain ⟨hall, hsent⟩ := ih
      refine ⟨hall, fun record hrecord => ?_⟩
      obtain hold | hnew := List.mem_append.mp hrecord
      · exact hsent record hold
      · exact (hall j).genuine hpage hnew
  obtain ⟨payloads, hload, hverifies⟩ := (hkept.1 i).verified hr hlive
  exact ⟨payloads, hload, hverifies.hash⟩

namespace Sample

/-- The environment of a device of this name. -/
def envOf (deviceId : String) : Env := { env with deviceId }

/-- A copy in two formats is deleted, and copied once more: its row is revived. -/
def copiedAgain : List Doing :=
  [.captured (envOf "laptop") twoFormats captured_twoFormats, .deleted (envOf "laptop") 1,
    .captured (envOf "laptop") twoFormats captured_twoFormats]

def onLaptop : Daemon := copiedAgain.foldl Doing.run (blank [1])

/-- What the feed of a daemon hands out. -/
def feedOf (d : Daemon) : List SyncRecord :=
  (syncChanges env d 0 32 ⟨false, false⟩).toOption.elim [] Prod.fst

theorem page_feedOf {d : Daemon} (h : feedOf d ≠ []) :
    ∃ next more, syncChanges env d 0 32 ⟨false, false⟩ = .ok (feedOf d, next, more) := by
  cases hpage : syncChanges env d 0 32 ⟨false, false⟩ with
  | error e => exact absurd (by rw [feedOf, hpage]; rfl) h
  | ok page => exact ⟨page.2.1, page.2.2, by rw [feedOf, hpage]; rfl⟩

theorem feedOf_onLaptop : feedOf onLaptop ≠ [] := by decide +kernel

/-- A second device applies it. -/
def applied : List Doing := [.applied (envOf "desktop") ((feedOf onLaptop).head feedOf_onLaptop)]

def onDesktop : Daemon := applied.foldl Doing.run (blank [1])

theorem feedOf_onDesktop : feedOf onDesktop ≠ [] := by decide +kernel

/-- It hands it on, and a third device applies it. -/
def appliedOn : List Doing := [.applied (envOf "phone") ((feedOf onDesktop).head feedOf_onDesktop)]

def onPhone : Daemon := appliedOn.foldl Doing.run (blank [1])

theorem within_twoFormats : ∀ doing ∈ copiedAgain ++ applied ++ appliedOn,
    doing.env.hash = hash ∧ doing.puts ⊆ putBy env twoFormats ∧
      doing.captures ⊆ [twoFormats.payloads] := by
  have hdata : ∀ doing ∈ copiedAgain ++ applied ++ appliedOn,
      doing.puts ⊆ putBy env twoFormats ∧ doing.captures ⊆ [twoFormats.payloads] := by
    decide +kernel
  intro doing hdoing
  refine ⟨?_, hdata doing hdoing⟩
  simp only [copiedAgain, applied, appliedOn, List.cons_append, List.nil_append, List.mem_cons,
    List.not_mem_nil, or_false] at hdoing
  rcases hdoing with rfl | rfl | rfl | rfl | rfl <;> rfl

/-- A copy that was revived on one device, and got to a third by way of a second. -/
theorem entries_stay_verifiable_two_hops :
    ∃ r ∈ onPhone.db.entries.rows, r.cols.deleted = false ∧
      ∃ payloads, loadPayloads onPhone r.id = .ok payloads ∧
        hash.payloadHash payloads = r.key.contentHash := by
  have hapart : ToldApart hash (putBy env twoFormats) [twoFormats.payloads] :=
    ⟨by unfold CollisionFreeOn; decide +kernel, by decide +kernel⟩
  have hwithin : ∀ {doings : List Doing} {sent : List SyncRecord},
      doings ⊆ copiedAgain ++ applied ++ appliedOn →
      (∀ doing ∈ doings, ∀ record ∈ doing.record, record ∈ sent) →
      ∀ doing ∈ doings, doing.env.hash = hash ∧ doing.puts ⊆ putBy env twoFormats ∧
        doing.captures ⊆ [twoFormats.payloads] ∧ ∀ record ∈ doing.record, record ∈ sent := by
    intro doings sent hsub hhanded doing hdoing
    obtain ⟨hhash, hputs, hcaptures⟩ := within_twoFormats doing (hsub hdoing)
    exact ⟨hhash, hputs, hcaptures, hhanded doing hdoing⟩
  obtain ⟨next, more, hpage⟩ := page_feedOf feedOf_onLaptop
  obtain ⟨next', more', hpage'⟩ := page_feedOf feedOf_onDesktop
  have hstart : Reached hash (putBy env twoFormats) [twoFormats.payloads]
      (fun _ : Fin 3 => blank [1]) [] := .start fun _ => [1]
  have hlaptop : Reached hash (putBy env twoFormats) [twoFormats.payloads]
      (Function.update (fun _ : Fin 3 => blank [1]) 0 onLaptop) [] :=
    hstart.run rfl (hwithin (by simp) (by simp [copiedAgain, Doing.record]))
  have hhanded := hlaptop.handsOut 0 env 0 next 32 ⟨false, false⟩ more
    (by rw [Function.update_self]; exact hpage)
  have hdesktop : Reached hash (putBy env twoFormats) [twoFormats.payloads]
      (Function.update (Function.update (fun _ : Fin 3 => blank [1]) 0 onLaptop) 1 onDesktop) _ :=
    hhanded.run (Function.update_of_ne (by decide) _ _)
      (hwithin (by simp) (by simp [applied, Doing.record]))
  have hhanded' := hdesktop.handsOut 1 env 0 next' 32 ⟨false, false⟩ more'
    (by rw [Function.update_self]; exact hpage')
  have hphone : Reached hash (putBy env twoFormats) [twoFormats.payloads]
      (Function.update (Function.update (Function.update (fun _ : Fin 3 => blank [1]) 0 onLaptop) 1
        onDesktop) 2 onPhone) _ :=
    hhanded'.run ((Function.update_of_ne (by decide) _ _).trans
        (Function.update_of_ne (by decide) _ _))
      (hwithin (by simp) (by simp [appliedOn, Doing.record]))
  obtain ⟨r, hr, hlive⟩ : ∃ r ∈ onPhone.db.entries.rows, r.cols.deleted = false := by
    decide +kernel
  have hverified := entries_stay_verifiable hapart hphone 2 r
  rw [Function.update_self] at hverified
  exact ⟨r, hr, hlive, hverified hr hlive⟩

end Sample

end Panora.Panod
