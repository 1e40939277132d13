/-
  Panora.Lib.Lww — last writer wins.

  A register holds the newest state it has seen: a state replaces the one held
  when its stamp is greater.  Folding states into a register that holds something
  gives the greatest of them all, so the order they come in, and how often, does
  not matter.

  `absorb` is the register that may be empty and takes a deletion only for what
  it holds: a deletion of something unknown is dropped.  Such a register forgets
  the deletion, and an older live state that arrives later is taken.
  `absorb_converges_iff` says exactly when that cannot be seen: when there is
  nothing live at all, or the greatest state is live.

  General: any states, any linear order of stamps.
-/
import Mathlib

namespace Panora.Lib.Lww

open List

variable {α σ : Type} [LinearOrder σ] (stamp : α → σ)

/-! ## §1. A register that holds something -/

/-- The newer of two states; at a tie, the one held. -/
def newer (held new : α) : α := if stamp held < stamp new then new else held

theorem le_newer_left (a b : α) : stamp a ≤ stamp (newer stamp a b) := by
  unfold newer
  by_cases h : stamp a < stamp b
  · rw [if_pos h]
    exact le_of_lt h
  · rw [if_neg h]

theorem le_newer_right (a b : α) : stamp b ≤ stamp (newer stamp a b) := by
  unfold newer
  by_cases h : stamp a < stamp b
  · rw [if_pos h]
  · rw [if_neg h]
    exact not_lt.mp h

theorem newer_eq (a b : α) : newer stamp a b = a ∨ newer stamp a b = b := by
  unfold newer
  by_cases h : stamp a < stamp b
  · exact .inr (if_pos h)
  · exact .inl (if_neg h)

/-- What a register holds after a list of states. -/
def newest (held : α) (l : List α) : α := l.foldl (newer stamp) held

theorem le_newest (l : List α) : ∀ held, stamp held ≤ stamp (newest stamp held l) := by
  induction l with
  | nil =>
    intro held
    exact le_refl _
  | cons b l ih =>
    intro held
    exact le_trans (le_newer_left stamp held b) (ih _)

variable {x : α} {l : List α}

theorem le_newest_of_mem (h : x ∈ l) : ∀ held : α, stamp x ≤ stamp (newest stamp held l) := by
  induction l with
  | nil => cases h
  | cons b l ih =>
    intro held
    rcases mem_cons.mp h with rfl | h
    · exact le_trans (le_newer_right stamp held x) (le_newest stamp l _)
    · exact ih h _

/-- The register holds what it held before, or one of the states. -/
theorem newest_mem (l : List α) : ∀ held, newest stamp held l = held ∨ newest stamp held l ∈ l := by
  induction l with
  | nil =>
    intro held
    exact .inl rfl
  | cons b l ih =>
    intro held
    show newest stamp (newer stamp held b) l = held ∨ newest stamp (newer stamp held b) l ∈ b :: l
    rcases ih (newer stamp held b) with h | h
    · rcases newer_eq stamp held b with hb | hb
      · exact .inl (h.trans hb)
      · exact .inr (by rw [h.trans hb]; exact mem_cons_self)
    · exact .inr (mem_cons_of_mem _ h)

/-- What was held stays unless something is strictly newer. -/
theorem newest_eq_held {held : α} (h : ∀ x ∈ l, stamp x ≤ stamp held) :
    newest stamp held l = held := by
  induction l with
  | nil => rfl
  | cons b l ih =>
    obtain ⟨hb, hl⟩ := forall_mem_cons.mp h
    show newest stamp (newer stamp held b) l = held
    rw [newer, if_neg (not_lt.mpr hb)]
    exact ih hl

/-- States with one stamp are one state. -/
def StampUnique (l : List α) : Prop := ∀ x ∈ l, ∀ y ∈ l, stamp x = stamp y → x = y

/-- **Order and repetition do not matter** to a register that holds something. -/
theorem newest_congr {l' : List α} (hset : ∀ x, x ∈ l ↔ x ∈ l')
    (huniq : StampUnique stamp l) (held : α) : newest stamp held l = newest stamp held l' := by
  by_cases hle : ∀ x ∈ l, stamp x ≤ stamp held
  · rw [newest_eq_held stamp hle,
      newest_eq_held stamp (fun x hx => hle x ((hset x).mpr hx))]
  · -- something is newer, so both ends are the greatest state of the same set
    simp only [not_forall, not_le] at hle
    obtain ⟨x, hx, hlt⟩ := hle
    have hne : ∀ m : List α, x ∈ m → newest stamp held m ∈ m := by
      intro m hm
      rcases newest_mem stamp m held with h | h
      · have := le_newest_of_mem stamp hm held
        rw [h] at this
        exact absurd hlt (not_lt.mpr this)
      · exact h
    have hmem := hne l hx
    have hmem' := (hset _).mpr (hne l' ((hset x).mp hx))
    refine huniq _ hmem _ hmem' (le_antisymm ?_ ?_)
    · exact le_newest_of_mem stamp ((hset _).mp hmem) held
    · exact le_newest_of_mem stamp hmem' held

/-! ## §2. A register that drops deletions of what it does not hold -/

variable (live : α → Bool)

/-- Take a state in: an empty register takes only a live one. -/
def absorb (held : Option α) (new : α) : Option α :=
  match held with
  | none => if live new then some new else none
  | some a => some (newer stamp a new)

/-- What can be seen of a register: a live state. -/
def visible (held : Option α) : Option α := held.filter live

theorem foldl_absorb_some (l : List α) :
    ∀ a, l.foldl (absorb stamp live) (some a) = some (newest stamp a l) := by
  induction l with
  | nil =>
    intro a
    rfl
  | cons b l ih =>
    intro a
    exact ih (newer stamp a b)

/-- An empty register stays empty until the first live state. -/
theorem foldl_absorb_dead {dead : List α} (h : ∀ x ∈ dead, live x = false) :
    (dead ++ l).foldl (absorb stamp live) none = l.foldl (absorb stamp live) none := by
  induction dead with
  | nil => rfl
  | cons b dead ih =>
    obtain ⟨hb, hdead⟩ := forall_mem_cons.mp h
    rw [cons_append, foldl_cons, absorb, hb]
    exact ih hdead

theorem foldl_absorb_live {a : α} (h : live a = true) (l : List α) :
    (a :: l).foldl (absorb stamp live) none = some (newest stamp a l) := by
  rw [foldl_cons, absorb, h]
  exact foldl_absorb_some stamp live l a

/-- A list without live states, or its first live state and what comes after. -/
theorem split_at_live (l : List α) :
    (∀ x ∈ l, live x = false) ∨
      ∃ dead a rest, l = dead ++ a :: rest ∧ (∀ x ∈ dead, live x = false) ∧ live a = true := by
  induction l with
  | nil => exact .inl (by simp)
  | cons b l ih =>
    by_cases hb : live b = true
    · exact .inr ⟨[], b, l, rfl, by simp, hb⟩
    · have hb : live b = false := by simpa using hb
      rcases ih with h | ⟨dead, a, rest, rfl, hdead, ha⟩
      · exact .inl (forall_mem_cons.mpr ⟨hb, h⟩)
      · exact .inr ⟨b :: dead, a, rest, rfl, forall_mem_cons.mpr ⟨hb, hdead⟩, ha⟩

/-- If the greatest state is live, an empty register ends with it. -/
theorem foldl_absorb_greatest {g : α} (huniq : StampUnique stamp l)
    (hg : g ∈ l) (hlive : live g = true) (hmax : ∀ x ∈ l, stamp x ≤ stamp g) :
    l.foldl (absorb stamp live) none = some g := by
  rcases split_at_live live l with h | ⟨dead, a, rest, rfl, hdead, ha⟩
  · rw [h g hg] at hlive
    cases hlive
  · rw [foldl_absorb_dead stamp live hdead, foldl_absorb_live stamp live ha]
    -- what the register holds is one of the states from `a` on, and as new as `g`
    have hmem : newest stamp a rest ∈ dead ++ a :: rest := by
      rcases newest_mem stamp rest a with h | h
      · rw [h]
        simp
      · simp [h]
    have hle : stamp g ≤ stamp (newest stamp a rest) := by
      rcases mem_append.mp hg with hd | hr
      · rw [hdead g hd] at hlive
        cases hlive
      · rcases mem_cons.mp hr with rfl | hr
        · exact le_newest stamp rest _
        · exact le_newest_of_mem stamp hr a
    rw [huniq _ hmem _ hg (le_antisymm (hmax _ hmem) hle)]

/-- Without live states an empty register stays empty. -/
theorem foldl_absorb_none (h : ∀ x ∈ l, live x = false) :
    l.foldl (absorb stamp live) none = none := by
  have := foldl_absorb_dead stamp live (l := []) h
  rwa [append_nil] at this

/-- A register that saw the live states first ends with the greatest state of all. -/
theorem foldl_absorb_live_first (hx : x ∈ l) (hlive : live x = true) :
    ∃ g ∈ l, (∀ y ∈ l, stamp y ≤ stamp g) ∧
      (x :: l).foldl (absorb stamp live) none = some g := by
  refine ⟨newest stamp x l, ?_, fun y hy => le_newest_of_mem stamp hy x,
    foldl_absorb_live stamp live hlive l⟩
  rcases newest_mem stamp l x with h | h
  · rw [h]
    exact hx
  · exact h

/-- One that saw the live states last ends with a live one. -/
theorem foldl_absorb_live_last (hx : x ∈ l) (hlive : live x = true) :
    ∃ g, live g = true ∧
      (l.filter (fun y => !live y) ++ l.filter live).foldl (absorb stamp live) none
        = some g := by
  have hdead : ∀ y ∈ l.filter (fun y => !live y), live y = false := by
    intro y hy
    simpa using (mem_filter.mp hy).2
  rw [foldl_absorb_dead stamp live hdead]
  cases hl : l.filter live with
  | nil =>
    have : x ∈ l.filter live := mem_filter.mpr ⟨hx, hlive⟩
    rw [hl] at this
    cases this
  | cons a rest =>
    have hall : ∀ y ∈ a :: rest, live y = true := by
      intro y hy
      rw [← hl] at hy
      exact (mem_filter.mp hy).2
    refine ⟨newest stamp a rest, ?_, foldl_absorb_live stamp live (hall a (by simp)) rest⟩
    rcases newest_mem stamp rest a with h | h
    · rw [h]
      exact hall a (by simp)
    · exact hall _ (mem_cons_of_mem _ h)

/-- **When an empty register converges**: exactly when nothing is live, or the
    greatest state is. -/
theorem absorb_converges_iff (huniq : StampUnique stamp l) :
    (∀ l' : List α, (∀ x, x ∈ l' ↔ x ∈ l) →
        visible live (l'.foldl (absorb stamp live) none)
          = visible live (l.foldl (absorb stamp live) none))
      ↔ ((∃ x ∈ l, live x = true) →
        ∃ g ∈ l, live g = true ∧ ∀ y ∈ l, stamp y ≤ stamp g) := by
  constructor
  · intro h hex
    obtain ⟨x, hx, hlive⟩ := hex
    -- live states first against live states last
    obtain ⟨g, hg, hmax, hfirst⟩ := foldl_absorb_live_first stamp live hx hlive
    obtain ⟨g', hg', hlast⟩ := foldl_absorb_live_last stamp live hx hlive
    have h1 := h (x :: l) (fun y => by
      rw [mem_cons]
      exact ⟨fun hy => hy.elim (fun e => e ▸ hx) (fun hy => hy), .inr⟩)
    have h2 := h (l.filter (fun y => !live y) ++ l.filter live) (fun y => by
      rw [mem_append, mem_filter, mem_filter]
      cases live y <;> simp)
    rw [hfirst] at h1
    rw [hlast, ← h1] at h2
    have hsee : visible live (some g') = some g' := by simp [visible, Option.filter, hg']
    rw [hsee] at h2
    by_cases hglive : live g = true
    · exact ⟨g, hg, hglive, hmax⟩
    · rw [visible, Option.filter, if_neg hglive] at h2
      cases h2
  · intro h l' hset
    by_cases hex : ∃ x ∈ l, live x = true
    · obtain ⟨g, hg, hlive, hmax⟩ := h hex
      have huniq' : StampUnique stamp l' :=
        fun x hx y hy => huniq x ((hset x).mp hx) y ((hset y).mp hy)
      rw [foldl_absorb_greatest stamp live huniq hg hlive hmax,
        foldl_absorb_greatest stamp live huniq' ((hset g).mpr hg) hlive
          (fun x hx => hmax x ((hset x).mp hx))]
    · have hnone : ∀ x ∈ l, live x = false := by
        intro x hx
        by_contra hne
        exact hex ⟨x, hx, by simpa using hne⟩
      rw [foldl_absorb_none stamp live hnone,
        foldl_absorb_none stamp live (fun x hx => hnone x ((hset x).mp hx))]

/-! ## §3. One register for each key -/

variable {κ : Type} [DecidableEq κ] (key : α → κ)

/-- Take a state in at its key. -/
def absorbAt (held : κ → Option α) (new : α) : κ → Option α :=
  fun k => if key new = k then absorb stamp live (held k) new else held k

/-- Each register sees the states of its own key. -/
theorem foldl_absorbAt (l : List α) (k : κ) : ∀ held : κ → Option α,
    l.foldl (absorbAt stamp live key) held k
      = (l.filter (fun x => decide (key x = k))).foldl (absorb stamp live) (held k) := by
  induction l with
  | nil =>
    intro held
    rfl
  | cons b l ih =>
    intro held
    rw [foldl_cons, ih, absorbAt]
    by_cases hb : key b = k
    · rw [if_pos hb, filter_cons_of_pos (by simpa using hb), foldl_cons]
    · rw [if_neg hb, filter_cons_of_neg (by simpa using hb)]

/-- **When all registers converge**: exactly when, for every key whose register is
    empty at the start and that has a live state, the greatest state is live. -/
theorem absorbAt_converges_iff (held : κ → Option α)
    (huniq : ∀ x ∈ l, ∀ y ∈ l, key x = key y → stamp x = stamp y → x = y) :
    (∀ l' : List α, (∀ x, x ∈ l' ↔ x ∈ l) → ∀ k,
        visible live (l'.foldl (absorbAt stamp live key) held k)
          = visible live (l.foldl (absorbAt stamp live key) held k))
      ↔ ∀ k, held k = none → (∃ x ∈ l, key x = k ∧ live x = true) →
        ∃ g ∈ l, key g = k ∧ live g = true ∧ ∀ y ∈ l, key y = k → stamp y ≤ stamp g := by
  have huniqAt : ∀ k, StampUnique stamp (l.filter (fun x => decide (key x = k))) := by
    intro k x hx y hy hxy
    obtain ⟨hx, hkx⟩ := mem_filter.mp hx
    obtain ⟨hy, hky⟩ := mem_filter.mp hy
    exact huniq x hx y hy ((of_decide_eq_true hkx).trans (of_decide_eq_true hky).symm) hxy
  constructor
  · intro h k hempty hex
    -- an order of one key's states extends to an order of all of them
    have hone := (absorb_converges_iff stamp live (huniqAt k)).mp (fun m hm => by
      have := h (m ++ l.filter (fun x => decide (key x ≠ k))) (fun x => by
        rw [mem_append, hm, mem_filter, mem_filter]
        by_cases hk : key x = k <;> simp [hk]) k
      rw [foldl_absorbAt, foldl_absorbAt, hempty] at this
      have hfilter : (m ++ l.filter (fun x => decide (key x ≠ k))).filter
          (fun x => decide (key x = k)) = m := by
        rw [filter_append, filter_filter,
          filter_eq_self.mpr (fun x hx => (mem_filter.mp ((hm x).mp hx)).2)]
        simp
      rw [hfilter] at this
      exact this)
    obtain ⟨x, hx, hkx, hlive⟩ := hex
    obtain ⟨g, hg, hglive, hmax⟩ :=
      hone ⟨x, mem_filter.mpr ⟨hx, by simpa using hkx⟩, hlive⟩
    obtain ⟨hg, hkg⟩ := mem_filter.mp hg
    exact ⟨g, hg, by simpa using hkg, hglive,
      fun y hy hky => hmax y (mem_filter.mpr ⟨hy, by simpa using hky⟩)⟩
  · intro h l' hset k
    have hsetk : ∀ x, x ∈ l'.filter (fun x => decide (key x = k))
        ↔ x ∈ l.filter (fun x => decide (key x = k)) := by
      intro x
      rw [mem_filter, mem_filter, hset]
    rw [foldl_absorbAt, foldl_absorbAt]
    cases hheld : held k with
    | some a =>
      rw [foldl_absorb_some, foldl_absorb_some]
      have huniq' : StampUnique stamp (l'.filter (fun x => decide (key x = k))) :=
        fun x hx y hy => huniqAt k x ((hsetk x).mp hx) y ((hsetk y).mp hy)
      rw [newest_congr stamp hsetk huniq' a]
    | none =>
      refine (absorb_converges_iff stamp live (huniqAt k)).mpr ?_ _ hsetk
      intro hex
      obtain ⟨x, hx, hlive⟩ := hex
      obtain ⟨hx, hkx⟩ := mem_filter.mp hx
      obtain ⟨g, hg, hkg, hglive, hmax⟩ := h k hheld ⟨x, hx, by simpa using hkx, hlive⟩
      refine ⟨g, mem_filter.mpr ⟨hg, by simpa using hkg⟩, hglive, fun y hy => ?_⟩
      obtain ⟨hy, hky⟩ := mem_filter.mp hy
      exact hmax y hy (by simpa using hky)

/-! ## §4. States read off messages -/

variable {β : Type} (read : β → α)

/-- A list of states that messages of `l` carry is read off such messages. -/
theorem exists_map_eq {l : List β} {m : List α} (h : ∀ s ∈ m, s ∈ l.map read) :
    ∃ l' : List β, l'.map read = m ∧ ∀ x ∈ l', x ∈ l := by
  induction m with
  | nil => exact ⟨[], rfl, by simp⟩
  | cons s m ih =>
    obtain ⟨hs, hm⟩ := forall_mem_cons.mp h
    obtain ⟨x, hx, rfl⟩ := mem_map.mp hs
    obtain ⟨l', rfl, hl'⟩ := ih hm
    exact ⟨x :: l', rfl, forall_mem_cons.mpr ⟨hx, hl'⟩⟩

/-- **The same for messages**, of which no two carry one state. -/
theorem messages_converge_iff {l : List β} (held : κ → Option α)
    (hinj : ∀ x ∈ l, ∀ y ∈ l, read x = read y → x = y)
    (huniq : ∀ x ∈ l, ∀ y ∈ l, key (read x) = key (read y) →
      stamp (read x) = stamp (read y) → read x = read y) :
    (∀ l' : List β, (∀ x, x ∈ l' ↔ x ∈ l) → ∀ k,
        visible live ((l'.map read).foldl (absorbAt stamp live key) held k)
          = visible live ((l.map read).foldl (absorbAt stamp live key) held k))
      ↔ ∀ k, held k = none → (∃ x ∈ l, key (read x) = k ∧ live (read x) = true) →
        ∃ g ∈ l, key (read g) = k ∧ live (read g) = true ∧
          ∀ y ∈ l, key (read y) = k → stamp (read y) ≤ stamp (read g) := by
  have hstates := absorbAt_converges_iff stamp live key (l := l.map read) held (by
    intro s hs t ht
    obtain ⟨x, hx, rfl⟩ := mem_map.mp hs
    obtain ⟨y, hy, rfl⟩ := mem_map.mp ht
    exact huniq x hx y hy)
  have hex : ∀ p : α → Prop, (∃ s ∈ l.map read, p s) ↔ ∃ x ∈ l, p (read x) := by
    intro p
    simp
  simp only [hex, forall_mem_map] at hstates
  rw [← hstates]
  constructor
  · intro h m hset k
    -- any order of the states is an order of the messages
    obtain ⟨l', rfl, hl'⟩ := exists_map_eq read (l := l) (fun s hs => (hset s).mp hs)
    refine h l' (fun x => ⟨hl' x, fun hx => ?_⟩) k
    obtain ⟨y, hy, heq⟩ := mem_map.mp ((hset (read x)).mpr (mem_map_of_mem hx))
    rw [hinj x hx y (hl' y hy) heq.symm]
    exact hy
  · intro h l' hset k
    refine h (l'.map read) (fun s => ?_) k
    rw [mem_map, mem_map]
    exact exists_congr fun x => and_congr_left' (hset x)

end Panora.Lib.Lww
