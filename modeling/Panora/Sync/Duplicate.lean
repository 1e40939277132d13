/-
  Panora.Sync.Duplicate — several connections between two nodes.

  `Shared::register`, `unregister` and `run_session` in
  `crates/panora-sync/src/node.rs`.  Each node has one session with a peer.  A
  connection the lower identity dialled displaces one it did not; any other is turned
  away.  Whoever turns a connection away closes it, and a session that is displaced
  closes its connection when it ends; the session at the other end of a closed
  connection ends, too.

  The two nodes register the connections each in its own order.  Registrations and
  the ends of sessions interleave in any way.

  Main results:
    * `canonicalAt_eq` — both nodes compute the same of a connection;
    * `exists_settled` — the closes come to an end;
    * `keep_same_iff` — for which two orders both nodes end on the same connection,
      however the steps interleave.
-/
import Mathlib

namespace Panora.Sync

open List Function

/-! ## §1. The two ends -/

/-- The two nodes. -/
inductive End where
  | here
  | there
  deriving DecidableEq

/-- A connection, and which node dialled it. -/
structure Conn where
  number : Nat
  dialler : End
  deriving DecidableEq

/-- Two nodes, and the connections between them as each comes to register them. -/
structure Connections (Identity : Type) [LinearOrder Identity] where
  identity : End → Identity
  distinct : identity .here ≠ identity .there
  order : End → List Conn
  nodup : ∀ e, (order e).Nodup
  nonempty : order .here ≠ []

variable {Identity : Type} [LinearOrder Identity] (cs : Connections Identity)

def End.other : End → End
  | .here => .there
  | .there => .here

/-- `canonical`, as the node at `me` computes it. -/
def Connections.canonicalAt (me : End) (c : Conn) : Bool :=
  decide (c.dialler = me) == decide (cs.identity me < cs.identity me.other)

/-- The connection was dialled by the lower identity. -/
def Connections.canonical (c : Conn) : Bool :=
  decide (cs.identity c.dialler < cs.identity c.dialler.other)

/-- **Both nodes compute the same of a connection**: whether the lower identity dialled it. -/
theorem Connections.canonicalAt_eq (me : End) (c : Conn) : cs.canonicalAt me c = cs.canonical c := by
  rcases lt_or_gt_of_ne cs.distinct with hlt | hlt <;>
    cases me <;> cases hc : c.dialler <;>
    simp [Connections.canonicalAt, Connections.canonical, End.other, hc, hlt, hlt.not_gt]

/-! ## §2. Registering and closing -/

/-- A node: the session it has registered, the connections it will register, the sessions
    that run, and those of them that were told to close. -/
structure Registry where
  peer : Option Conn
  waiting : List Conn
  running : List Conn
  told : List Conn

/-- Two nodes, and the connections that were closed. -/
structure Pair where
  node : End → Registry
  closed : List Conn

def Connections.start : Pair := ⟨fun e => ⟨none, cs.order e, [], []⟩, []⟩

/-- The node at `me` turns a connection away if the registered one is canonical or it is not. -/
def Connections.refusesAt (me : End) (existing c : Conn) : Bool :=
  cs.canonicalAt me existing || !cs.canonicalAt me c

/-- The same at either node. -/
def Connections.refuses (existing c : Conn) : Bool := cs.canonical existing || !cs.canonical c

theorem Connections.refusesAt_eq (me : End) (existing c : Conn) :
    cs.refusesAt me existing c = cs.refuses existing c := by
  simp only [Connections.refusesAt, Connections.refuses, Connections.canonicalAt_eq]

/-- `register` for the next connection, and the close if it is turned away. -/
def Pair.register (s : Pair) (e : End) : Pair :=
  let r := s.node e
  match r.waiting with
  | [] => s
  | c :: waiting =>
    match r.peer with
    | none =>
      { s with
        node := update s.node e
          { r with peer := some c, waiting, running := c :: r.running } }
    | some existing =>
      if cs.refusesAt e existing c then
        { node := update s.node e { r with waiting }, closed := c :: s.closed }
      else
        { s with
          node := update s.node e
            ⟨some c, waiting, c :: r.running, existing :: r.told⟩ }

/-- A session ends, if it was told to or its connection is closed: `unregister`, and its
    connection is closed. -/
def Pair.finish (s : Pair) (e : End) (c : Conn) : Pair :=
  let r := s.node e
  if c ∈ r.running ∧ (c ∈ r.told ∨ c ∈ s.closed) then
    { node := update s.node e
        { r with
          peer := if r.peer = some c then none else r.peer
          running := r.running.filter (fun x => x ≠ c) }
      closed := c :: s.closed }
  else s

inductive Turn where
  | register (e : End)
  | finish (e : End) (c : Conn)

def Pair.step (s : Pair) : Turn → Pair
  | .register e => s.register cs e
  | .finish e c => s.finish e c

def Pair.run (s : Pair) (turns : List Turn) : Pair := turns.foldl (Pair.step cs) s

/-- Every connection is registered at both ends, and no session is to end. -/
def Pair.Settled (s : Pair) : Prop :=
  ∀ e, (s.node e).waiting = [] ∧
    ∀ c ∈ (s.node e).running, c ∉ (s.node e).told ∧ c ∉ s.closed

/-- Both nodes have a session registered, on the same connection. -/
def Pair.Agree (s : Pair) : Prop := ∃ c, ∀ e, (s.node e).peer = some c

/-- The first canonical connection, or the first if none is. -/
def Connections.pick (e : End) : Option Conn :=
  ((cs.order e).find? cs.canonical).or (cs.order e).head?

variable {cs} {s : Pair} {m c : Conn} {e : End}

/-! ## §3. The closes come to an end -/

/-- A session that has to end, ends. -/
theorem running_finish (h : c ∈ (s.node e).running ∧ (c ∈ (s.node e).told ∨ c ∈ s.closed)) :
    ((s.finish e c).node e).running = (s.node e).running.filter (fun x => x ≠ c) := by
  unfold Pair.finish
  rw [if_pos h]
  show (update s.node e _ e).running = _
  rw [update_self]

theorem node_finish_of_ne {e' : End} (hne : e' ≠ e) : (s.finish e c).node e' = s.node e' := by
  unfold Pair.finish
  dsimp only
  split
  · show update s.node e _ e' = _
    rw [update_of_ne hne]
  · rfl

theorem waiting_finish (e' : End) : ((s.finish e c).node e').waiting = (s.node e').waiting := by
  by_cases hne : e' = e
  · subst hne
    unfold Pair.finish
    dsimp only
    split
    · show (update s.node e' _ e').waiting = _
      rw [update_self]
    · rfl
  · rw [node_finish_of_ne hne]

/-- The sessions that run at either end. -/
def Pair.sessions (s : Pair) : Nat := (s.node .here).running.length + (s.node .there).running.length

theorem sessions_finish (h : c ∈ (s.node e).running ∧ (c ∈ (s.node e).told ∨ c ∈ s.closed)) :
    (s.finish e c).sessions < s.sessions := by
  have hfewer : ((s.finish e c).node e).running.length < (s.node e).running.length := by
    rw [running_finish h]
    exact length_filter_lt_length_iff_exists.mpr ⟨c, h.1, by simp⟩
  have hother : ∀ e', e' ≠ e → ((s.finish e c).node e').running.length
      = (s.node e').running.length := by
    intro e' hne
    rw [node_finish_of_ne hne]
  unfold Pair.sessions
  cases e with
  | here =>
    have hthere := hother .there (by simp)
    omega
  | there =>
    have hhere := hother .here (by simp)
    omega

/-- **After the registrations the closes come to an end**, without any further
    registration. -/
theorem exists_settled (cs : Connections Identity) (h : ∀ e, (s.node e).waiting = []) :
    ∃ ends : List (End × Conn), (s.run cs (ends.map (fun t => .finish t.1 t.2))).Settled := by
  -- along the number of sessions
  induction hn : s.sessions using Nat.strongRecOn generalizing s with
  | _ n ih =>
    by_cases hdone : s.Settled
    · exact ⟨[], hdone⟩
    · have hsome : ∃ e c, c ∈ (s.node e).running ∧ (c ∈ (s.node e).told ∨ c ∈ s.closed) := by
        by_contra hnone
        refine hdone (fun e => ⟨h e, fun c hc => ?_⟩)
        constructor
        · intro htold
          exact hnone ⟨e, c, hc, .inl htold⟩
        · intro hclosed
          exact hnone ⟨e, c, hc, .inr hclosed⟩
      obtain ⟨e, c, hc⟩ := hsome
      have hwaiting : ∀ e', ((s.finish e c).node e').waiting = [] := by
        intro e'
        rw [waiting_finish]
        exact h e'
      obtain ⟨ends, hends⟩ := ih _ (by rw [← hn]; exact sessions_finish hc) hwaiting rfl
      exact ⟨(e, c) :: ends, hends⟩

/-! ## §4. The same choice at both ends -/

/-- A node and the connection `m` that both would pick: it has `m`, or it will register `m`
    and until then has nothing that would turn `m` away.  Nothing displaces `m`. -/
structure Registry.Heads (cs : Connections Identity) (m : Conn) (r : Registry) : Prop where
  course : (∃ pre post, r.waiting = pre ++ m :: post ∧ m ∉ post ∧
      ∀ c, c ∈ pre ∨ r.peer = some c → cs.refuses c m = false) ∨
    (m ∉ r.waiting ∧ r.peer = some m)
  told : m ∉ r.told
  wins : ∀ c ∈ r.waiting, c ≠ m → cs.refuses m c = true

/-- Both nodes do, and `m` stays open. -/
structure Pair.Heads (cs : Connections Identity) (m : Conn) (s : Pair) : Prop where
  node : ∀ e, (s.node e).Heads cs m
  unclosed : m ∉ s.closed

theorem heads_update (h : s.Heads cs m) {r : Registry} {closed : List Conn} (hr : r.Heads cs m)
    (hclosed : m ∉ closed) : Pair.Heads cs m ⟨update s.node e r, closed⟩ := by
  refine ⟨fun e' => ?_, hclosed⟩
  by_cases he : e' = e
  · subst he
    show (update s.node e' r e').Heads cs m
    rw [update_self]
    exact hr
  · show (update s.node e r e').Heads cs m
    rw [update_of_ne he]
    exact h.node e'

theorem heads_finish (h : s.Heads cs m) : (s.finish e c).Heads cs m := by
  unfold Pair.finish
  dsimp only
  split
  next hends =>
    have hne : m ≠ c := by
      intro heq
      subst heq
      exact hends.2.elim (h.node e).told h.unclosed
    refine heads_update h ⟨?_, (h.node e).told, (h.node e).wins⟩ (by simp [hne, h.unclosed])
    rcases (h.node e).course with ⟨pre, post, hwait, hpost, hbefore⟩ | ⟨hnot, hpeer⟩
    · refine .inl ⟨pre, post, hwait, hpost, fun x hx => hbefore x ?_⟩
      -- a session that ends leaves nothing in its place
      refine hx.imp_right (fun hpeer => ?_)
      have hpeer : (if (s.node e).peer = some c then none else (s.node e).peer) = some x := hpeer
      split at hpeer
      · cases hpeer
      · exact hpeer
    · refine .inr ⟨hnot, ?_⟩
      show (if (s.node e).peer = some c then none else (s.node e).peer) = some m
      rw [hpeer, if_neg (fun heq => hne (Option.some.inj heq))]
  next => exact h

/-- What a node has registered after the next connection. -/
def Connections.keep (cs : Connections Identity) (peer : Option Conn) (c : Conn) : Option Conn :=
  match peer with
  | none => some c
  | some existing => if cs.refuses existing c then some existing else some c

/-- Registering, as one of two things: the connection is turned away, or it is taken and
    what was there is told to close. -/
theorem register_cases (cs : Connections Identity) {waiting : List Conn} (hwait : (s.node e).waiting = c :: waiting) :
    (∃ existing, (s.node e).peer = some existing ∧ cs.refuses existing c = true ∧
      s.register cs e
        = ⟨update s.node e { s.node e with waiting }, c :: s.closed⟩) ∨
    ((∀ existing, (s.node e).peer = some existing → cs.refuses existing c = false) ∧
      s.register cs e
        = ⟨update s.node e ⟨some c, waiting, c :: (s.node e).running,
            (s.node e).peer.toList ++ (s.node e).told⟩, s.closed⟩) := by
  unfold Pair.register
  simp only [cs.refusesAt_eq]
  rw [hwait]
  cases hpeer : (s.node e).peer with
  | none => exact .inr ⟨(fun x hx => by cases hx), rfl⟩
  | some existing =>
    cases hrefuse : cs.refuses existing c with
    | true =>
      refine .inl ⟨existing, rfl, hrefuse, ?_⟩
      dsimp only
      rw [if_pos hrefuse]
    | false =>
      refine .inr ⟨fun x hx => ?_, ?_⟩
      · cases hx
        exact hrefuse
      · dsimp only
        rw [if_neg (by rw [hrefuse]; simp)]
        rfl

namespace Registry.Heads

variable {r : Registry} {waiting : List Conn}

/-- Nothing turns itself away, so what `m` would be turned away by is not `m`. -/
theorem peer_ne {pre : List Conn} (hbefore : ∀ c, c ∈ pre ∨ r.peer = some c → cs.refuses c m = false) :
    r.peer ≠ some m := by
  intro hhas
  have hself := hbefore m (.inr hhas)
  unfold Connections.refuses at hself
  cases hm : cs.canonical m <;> simp [hm] at hself

/-- What is turned away is not `m`. -/
theorem turnedAway (h : r.Heads cs m) {existing : Conn} (hwait : r.waiting = c :: waiting)
    (hpeer : r.peer = some existing) (hrefuse : cs.refuses existing c = true) :
    m ≠ c ∧ Registry.Heads cs m { r with waiting } := by
  have hwins : ∀ x ∈ waiting, x ≠ m → cs.refuses m x = true := fun x hx =>
    h.wins x (by rw [hwait]; exact mem_cons_of_mem _ hx)
  rcases h.course with ⟨pre, post, hsplit, hpost, hbefore⟩ | ⟨hnot, hhas⟩
  · have hne : m ≠ c := by
      intro heq
      subst heq
      rw [hbefore existing (.inr hpeer)] at hrefuse
      cases hrefuse
    rw [hwait] at hsplit
    cases pre with
    | nil => exact absurd (cons.inj hsplit).1.symm hne
    | cons x pre =>
      obtain ⟨-, hrest⟩ := cons.inj hsplit
      refine ⟨hne, .inl ⟨pre, post, hrest, hpost, fun x hx => ?_⟩, h.told, hwins⟩
      exact hbefore x (hx.imp_left (mem_cons_of_mem _))
  · rw [hwait, mem_cons, not_or] at hnot
    exact ⟨hnot.1, .inr ⟨hnot.2, hhas⟩, h.told, hwins⟩

/-- What is taken is `m`, or comes before `m` and does not turn it away. -/
theorem taken (h : r.Heads cs m) (hwait : r.waiting = c :: waiting)
    (hfree : ∀ existing, r.peer = some existing → cs.refuses existing c = false) :
    Registry.Heads cs m ⟨some c, waiting, c :: r.running, r.peer.toList ++ r.told⟩ := by
  have hwins : ∀ x ∈ waiting, x ≠ m → cs.refuses m x = true := fun x hx =>
    h.wins x (by rw [hwait]; exact mem_cons_of_mem _ hx)
  rcases h.course with ⟨pre, post, hsplit, hpost, hbefore⟩ | ⟨hnot, hhas⟩
  · have htold : m ∉ r.peer.toList ++ r.told := by
      rw [mem_append, Option.mem_toList, not_or]
      exact ⟨peer_ne hbefore, h.told⟩
    rw [hwait] at hsplit
    cases pre with
    | nil =>
      obtain ⟨rfl, rfl⟩ := cons.inj hsplit
      exact ⟨.inr ⟨hpost, rfl⟩, htold, hwins⟩
    | cons x pre =>
      obtain ⟨rfl, hrest⟩ := cons.inj hsplit
      refine ⟨.inl ⟨pre, post, hrest, hpost, fun x hx => ?_⟩, htold, hwins⟩
      rcases hx with hx | hx
      · exact hbefore x (.inl (mem_cons_of_mem _ hx))
      · cases hx
        exact hbefore c (.inl mem_cons_self)
  · -- `m` is here and turns away anything else
    rw [hwait, mem_cons, not_or] at hnot
    have hrefuse := h.wins c (by rw [hwait]; exact mem_cons_self) (Ne.symm hnot.1)
    rw [hfree m hhas] at hrefuse
    cases hrefuse

end Registry.Heads

/-- A connection that is taken before `m` comes does not turn `m` away. -/
theorem heads_register (h : s.Heads cs m) : (s.register cs e).Heads cs m := by
  cases hwait : (s.node e).waiting with
  | nil =>
    have hsame : s.register cs e = s := by
      unfold Pair.register
      dsimp only
      rw [hwait]
    rw [hsame]
    exact h
  | cons c waiting =>
    rcases register_cases cs hwait with ⟨existing, hpeer, hrefuse, hrun⟩ | ⟨hfree, hrun⟩
    · obtain ⟨hne, hnode⟩ := (h.node e).turnedAway hwait hpeer hrefuse
      rw [hrun]
      exact heads_update h hnode (by simp [hne, h.unclosed])
    · rw [hrun]
      exact heads_update h ((h.node e).taken hwait hfree) h.unclosed

theorem heads_run (h : s.Heads cs m) (turns : List Turn) : (s.run cs turns).Heads cs m := by
  induction turns generalizing s with
  | nil => exact h
  | cons t turns ih =>
    cases t with
    | register e => exact ih (heads_register h)
    | finish e c => exact ih (heads_finish h)

/-- What is picked: the first of the connections that it does not turn away. -/
theorem pick_split (h : cs.pick e = some m) :
    ∃ pre post, cs.order e = pre ++ m :: post ∧ (∀ c ∈ pre, cs.refuses c m = false) ∧
      ∀ c ∈ cs.order e, c ≠ m → cs.refuses m c = true := by
  unfold Connections.pick at h
  cases hfind : (cs.order e).find? cs.canonical with
  | some x =>
    rw [hfind] at h
    cases h
    obtain ⟨hcanonical, pre, post, hsplit, hpre⟩ := find?_eq_some_iff_append.mp hfind
    refine ⟨pre, post, hsplit, fun c hc => ?_, fun c _ _ => ?_⟩
    · have hnot := hpre c hc
      unfold Connections.refuses
      simp only [Bool.not_eq_eq_eq_not, Bool.not_true] at hnot
      rw [hnot, hcanonical]
      rfl
    · unfold Connections.refuses
      rw [hcanonical]
      rfl
  | none =>
    rw [hfind] at h
    have hnone := find?_eq_none.mp hfind
    have h : (cs.order e).head? = some m := h
    obtain ⟨post, hsplit⟩ := head?_eq_some_iff.mp h
    refine ⟨[], post, hsplit, by simp, fun c hc _ => ?_⟩
    unfold Connections.refuses
    rw [Bool.eq_false_iff.mpr (hnone c hc)]
    simp

theorem heads_start (h : ∀ e, cs.pick e = some m) : cs.start.Heads cs m := by
  refine ⟨fun e => ?_, by simp [Connections.start]⟩
  obtain ⟨pre, post, hsplit, hpre, hwins⟩ := pick_split (h e)
  have hnodup := cs.nodup e
  rw [hsplit, nodup_append] at hnodup
  have hpost : m ∉ post := (nodup_cons.mp hnodup.2.1).1
  refine ⟨.inl ⟨pre, post, hsplit, hpost, fun c hc => ?_⟩, by simp [Connections.start], hwins⟩
  rcases hc with hc | hc
  · exact hpre c hc
  · cases hc

/-! ## §5. Different choices -/

/-- Registering at one end: what it has registered then, and that the other end is not
    concerned. -/
theorem register_spec (cs : Connections Identity) {waiting : List Conn}
    (hwait : (s.node e).waiting = c :: waiting) :
    ((s.register cs e).node e).peer = cs.keep (s.node e).peer c ∧
      ((s.register cs e).node e).waiting = waiting ∧
      ∀ e', e' ≠ e → (s.register cs e).node e' = s.node e' := by
  rcases register_cases cs hwait with ⟨existing, hpeer, hrefuse, hrun⟩ | ⟨hnone, hrun⟩
  · rw [hrun]
    refine ⟨?_, ?_, fun e' hne => update_of_ne hne ..⟩
    · show (update s.node e _ e).peer = _
      rw [update_self, hpeer]
      unfold Connections.keep
      dsimp only
      rw [if_pos hrefuse]
    · show (update s.node e _ e).waiting = _
      rw [update_self]
  · rw [hrun]
    refine ⟨?_, ?_, fun e' hne => update_of_ne hne ..⟩
    · show (update s.node e _ e).peer = _
      rw [update_self]
      unfold Connections.keep
      cases hpeer : (s.node e).peer with
      | none => rfl
      | some existing =>
        dsimp only
        rw [if_neg (by rw [hnone existing hpeer]; simp)]
    · show (update s.node e _ e).waiting = _
      rw [update_self]

/-- All registrations of one end. -/
theorem run_register (cs : Connections Identity) (e : End) (l : List Conn) :
    ∀ s : Pair, (s.node e).waiting = l →
      ((s.run cs (replicate l.length (.register e))).node e).peer
          = l.foldl cs.keep (s.node e).peer ∧
        ((s.run cs (replicate l.length (.register e))).node e).waiting = [] ∧
        ∀ e', e' ≠ e →
          (s.run cs (replicate l.length (.register e))).node e' = s.node e' := by
  induction l with
  | nil =>
    intro s hwait
    exact ⟨rfl, hwait, fun _ _ => rfl⟩
  | cons c l ih =>
    intro s hwait
    obtain ⟨hpeer, hrest, hother⟩ := register_spec cs hwait
    obtain ⟨hpeer', hwait', hother'⟩ := ih (s.register cs e) hrest
    have hrun : s.run cs (replicate (c :: l).length (.register e))
        = (s.register cs e).run cs (replicate l.length (.register e)) := rfl
    rw [hrun]
    refine ⟨?_, hwait', fun e' hne => ?_⟩
    · rw [hpeer', hpeer]
      rfl
    · rw [hother' e' hne, hother e' hne]

theorem foldl_keep_some (cs : Connections Identity) (l : List Conn) : ∀ x : Conn,
    l.foldl cs.keep (some x)
      = if cs.canonical x then some x else (l.find? cs.canonical).or (some x) := by
  induction l with
  | nil =>
    intro x
    cases cs.canonical x <;> rfl
  | cons c l ih =>
    intro x
    have hkeep : cs.keep (some x) c
        = if cs.canonical x || !cs.canonical c then some x else some c := rfl
    show l.foldl cs.keep (cs.keep (some x) c) = _
    rw [hkeep]
    -- the registered one, then the next, is canonical or not
    cases hx : cs.canonical x with
    | true =>
      show l.foldl cs.keep (some x) = some x
      rw [ih, hx]
      rfl
    | false =>
      rw [find?_cons]
      cases hc : cs.canonical c with
      | true =>
        show l.foldl cs.keep (some c) = some c
        rw [ih, hc]
        rfl
      | false =>
        show l.foldl cs.keep (some x) = (l.find? cs.canonical).or (some x)
        rw [ih, hx]
        rfl

/-- Registering everything leaves what is picked. -/
theorem foldl_keep (cs : Connections Identity) (e : End) :
    (cs.order e).foldl cs.keep none = cs.pick e := by
  unfold Connections.pick
  cases cs.order e with
  | nil => rfl
  | cons c l =>
    show l.foldl cs.keep (some c) = _
    rw [foldl_keep_some, find?_cons]
    cases cs.canonical c <;> rfl

/-- The end of a session at most empties a place. -/
theorem peer_finish (e' : End) :
    ((s.finish e c).node e').peer = (s.node e').peer ∨ ((s.finish e c).node e').peer = none := by
  by_cases hne : e' = e
  · subst hne
    unfold Pair.finish
    dsimp only
    split
    · show (update s.node e' _ e').peer = _ ∨ (update s.node e' _ e').peer = _
      rw [update_self]
      dsimp only
      split
      · exact .inr rfl
      · exact .inl rfl
    · exact .inl rfl
  · rw [node_finish_of_ne hne]
    exact .inl rfl

theorem peer_run_finish (cs : Connections Identity) (ends : List (End × Conn)) (e : End) :
    ∀ s : Pair, ∀ x, ((s.run cs (ends.map (fun t => .finish t.1 t.2))).node e).peer = some x →
      (s.node e).peer = some x := by
  induction ends with
  | nil => exact fun _ _ h => h
  | cons t ends ih =>
    intro s x h
    have hstep := ih (s.finish t.1 t.2) x h
    rcases peer_finish (s := s) (e := t.1) (c := t.2) e with hsame | hnone
    · rw [hsame] at hstep
      exact hstep
    · rw [hnone] at hstep
      cases hstep

theorem run_append (cs : Connections Identity) (s : Pair) (t u : List Turn) :
    s.run cs (t ++ u) = (s.run cs t).run cs u :=
  foldl_append

/-- Each end registers everything before any session ends. -/
theorem exists_apart (cs : Connections Identity) : ∃ turns, (cs.start.run cs turns).Settled ∧
      ∀ e x, ((cs.start.run cs turns).node e).peer = some x → cs.pick e = some x := by
  obtain ⟨hpeer, hwait, hother⟩ := run_register cs .here (cs.order .here) cs.start rfl
  -- both ends in turn, then all closes
  let s1 := cs.start.run cs (replicate (cs.order .here).length (.register .here))
  have hthere : (s1.node .there) = cs.start.node .there := hother .there (by simp)
  obtain ⟨hpeer', hwait', hother'⟩ :=
    run_register cs .there (cs.order .there) s1 (by rw [hthere]; rfl)
  let s2 := s1.run cs (replicate (cs.order .there).length (.register .there))
  have hhere : (s2.node .here) = s1.node .here := hother' .here (by simp)
  have hwaiting : ∀ e, (s2.node e).waiting = [] := by
    intro e
    cases e with
    | here =>
      rw [hhere]
      exact hwait
    | there => exact hwait'
  have hpicked : ∀ e, (s2.node e).peer = cs.pick e := by
    intro e
    rw [← foldl_keep]
    cases e with
    | here =>
      rw [hhere]
      exact hpeer
    | there =>
      rw [hthere] at hpeer'
      exact hpeer'
  obtain ⟨ends, hends⟩ := exists_settled cs hwaiting
  refine ⟨replicate (cs.order .here).length (.register .here) ++
    replicate (cs.order .there).length (.register .there) ++
    ends.map (fun t => .finish t.1 t.2), ?_⟩
  rw [run_append, run_append]
  refine ⟨hends, fun e x hx => ?_⟩
  rw [← hpicked e]
  exact peer_run_finish cs ends e s2 x hx

/-- **When both nodes keep the same connection.**  However the registrations at the two
    ends and the closes they lead to interleave, both nodes end with a session registered
    on the same connection, exactly when the first connection that the lower identity
    dialled (or, if there is none, the first of all) is the same in both orders. -/
theorem keep_same_iff (cs : Connections Identity) :
    (∀ turns, (cs.start.run cs turns).Settled → (cs.start.run cs turns).Agree) ↔
      cs.pick .here = cs.pick .there := by
  constructor
  · intro hall
    obtain ⟨turns, hsettled, hpick⟩ := exists_apart cs
    obtain ⟨c, hc⟩ := hall turns hsettled
    rw [hpick .here c (hc .here), hpick .there c (hc .there)]
  · intro heq turns hsettled
    have hsome : ∃ m, cs.pick .here = some m := by
      unfold Connections.pick
      cases horder : cs.order .here with
      | nil => exact absurd horder cs.nonempty
      | cons c l =>
        cases (c :: l).find? cs.canonical with
        | none => exact ⟨c, rfl⟩
        | some x => exact ⟨x, rfl⟩
    obtain ⟨m, hm⟩ := hsome
    have hboth : ∀ e, cs.pick e = some m := by
      intro e
      cases e with
      | here => exact hm
      | there =>
        rw [← heq]
        exact hm
    have hheads := heads_run (heads_start hboth) turns
    refine ⟨m, fun e => ?_⟩
    rcases (hheads.node e).course with ⟨pre, post, hsplit, -, -⟩ | ⟨-, hpeer⟩
    · rw [(hsettled e).1] at hsplit
      exact absurd hsplit (by simp)
    · exact hpeer

namespace Sample

/-- Two connections that one node dialled, to two addresses of the other; the ends come to
    register them in different orders. -/
def crossed : Connections Nat where
  identity
    | .here => 1
    | .there => 2
  distinct := by decide
  order
    | .here => [⟨1, .here⟩, ⟨2, .here⟩]
    | .there => [⟨2, .here⟩, ⟨1, .here⟩]
  nodup e := by cases e <;> decide
  nonempty := by simp

/-- Each end turns away the connection the other has; both sessions end. -/
def crossedTurns : List Turn :=
  [.register .here, .register .there, .register .here, .register .there,
    .finish .here ⟨1, .here⟩, .finish .there ⟨2, .here⟩]

/-- No connection is left. -/
theorem crossed_registrations_leave_none :
    (crossed.start.run crossed crossedTurns).Settled ∧
      ¬ (crossed.start.run crossed crossedTurns).Agree ∧
      ∀ e, ((crossed.start.run crossed crossedTurns).node e).peer = none := by
  have hnone : ∀ e, ((crossed.start.run crossed crossedTurns).node e).peer = none := by
    intro e
    cases e with
    | here => decide
    | there => decide
  refine ⟨fun e => ?_, fun hagree => ?_, hnone⟩
  · cases e with
    | here => decide
    | there => decide
  · obtain ⟨c, hc⟩ := hagree
    have hhere := hc .here
    rw [hnone] at hhere
    cases hhere

end Sample

end Panora.Sync
