/-
  Panora.Lib.Feed — a feed of numbered items, read page by page.

  §1 is how a page is made: a walk over a list that may stop early, and the same
  walk over a list that is fetched a few items at a time.

  §2 and §3 are what a reader can rely on.  A feed has at each position at most
  one item.  Whoever writes gives changed items positions beyond the counter, so
  at or below it items only disappear (`Later`).  A reader that takes every item
  between its old and its new cursor then holds the current state of everything
  at or below the cursor (`UpToDate`), whatever was written in between.

  General: any items, any keys, any linearly ordered positions.
-/
import Mathlib

namespace Panora.Lib.Feed

open List

/-! ## §1. Walks -/

section Walk

variable {σ α ε : Type}

/-- Go through a list until a step stops or fails; tells whether it got to the end. -/
def walk (f : σ → α → Except ε (σ × Bool)) : σ → List α → Except ε (σ × Bool)
  | s, [] => .ok (s, true)
  | s, a :: l =>
    match f s a with
    | .error e => .error e
    | .ok (s', true) => walk f s' l
    | .ok (s', false) => .ok (s', false)

/-- The same, over items fetched a few at a time, until there are none. -/
def walkFetched (fetch : σ → List α) (f : σ → α → Except ε (σ × Bool)) :
    Nat → σ → Except ε σ
  | 0, s => .ok s
  | fuel + 1, s =>
    match fetch s with
    | [] => .ok s
    | a :: l =>
      match walk f s (a :: l) with
      | .error e => .error e
      | .ok (s', true) => walkFetched fetch f fuel s'
      | .ok (s', false) => .ok s'

variable {f : σ → α → Except ε (σ × Bool)} {s s' : σ} {l l' : List α}

theorem walk_append_of_end (h : walk f s l = .ok (s', true)) :
    walk f s (l ++ l') = walk f s' l' := by
  induction l generalizing s with
  | nil =>
    injection h with h
    injection h with h
    rw [h]
    rfl
  | cons a l ih =>
    rw [cons_append, walk]
    rw [walk] at h
    split at h
    · cases h
    · exact ih h
    · cases h

theorem walk_append_of_stop (h : walk f s l = .ok (s', false)) :
    walk f s (l ++ l') = .ok (s', false) := by
  induction l generalizing s with
  | nil => exact absurd h (by simp [walk])
  | cons a l ih =>
    rw [cons_append, walk]
    rw [walk] at h
    split at h
    · cases h
    · exact ih h
    · exact h

theorem walk_append_of_error {e : ε} (h : walk f s l = .error e) :
    walk f s (l ++ l') = .error e := by
  induction l generalizing s with
  | nil => exact absurd h (by simp [walk])
  | cons a l ih =>
    rw [cons_append, walk]
    rw [walk] at h
    split at h
    · exact h
    · exact ih h
    · cases h

/-- What every step over an item of some kind keeps, a walk over such items keeps. -/
theorem walk_keeps {P : σ → Prop} {Q : α → Prop}
    (hstep : ∀ s a s' go, Q a → P s → f s a = .ok (s', go) → P s')
    {go : Bool} (hl : ∀ a ∈ l, Q a) (hs : P s) (h : walk f s l = .ok (s', go)) : P s' := by
  induction l generalizing s with
  | nil =>
    cases h
    exact hs
  | cons a l ih =>
    obtain ⟨ha, hl⟩ := forall_mem_cons.mp hl
    rw [walk] at h
    split at h
    next => cases h
    next s1 hf => exact ih hl (hstep s a s1 true ha hs hf) h
    next s1 hf =>
      cases h
      exact hstep s a _ false ha hs hf

/-- The same, over items fetched a few at a time. -/
theorem walkFetched_keeps {P : σ → Prop} {Q : α → Prop} {fetch : σ → List α}
    (hstep : ∀ s a s' go, Q a → P s → f s a = .ok (s', go) → P s')
    (hfetch : ∀ s, ∀ a ∈ fetch s, Q a) :
    ∀ fuel s, P s → walkFetched fetch f fuel s = .ok s' → P s' := by
  intro fuel
  induction fuel with
  | zero =>
    intro s hs h
    cases h
    exact hs
  | succ fuel ih =>
    intro s hs h
    rw [walkFetched] at h
    split at h
    next =>
      cases h
      exact hs
    next a l hitems =>
      have hl : ∀ b ∈ a :: l, Q b := by
        rw [← hitems]
        exact hfetch s
      split at h
      next => cases h
      next s1 hwalk => exact ih s1 (walk_keeps hstep hl hs hwalk) h
      next s1 hwalk =>
        cases h
        exact walk_keeps hstep hl hs hwalk

/-- **Fetching a few at a time makes no difference**: with enough fuel the walk is
    the walk over everything there is, if what is left after a batch is the rest. -/
theorem walkFetched_eq {fetch rest : σ → List α} {n : Nat}
    (hfetch : ∀ s, fetch s = (rest s).take (n + 1))
    (hrest : ∀ s s', walk f s (fetch s) = .ok (s', true) → rest s' = (rest s).drop (n + 1)) :
    ∀ fuel s, (rest s).length < fuel →
      walkFetched fetch f fuel s = (walk f s (rest s)).map Prod.fst := by
  intro fuel
  induction fuel with
  | zero => exact fun s h => absurd h (Nat.not_lt_zero _)
  | succ fuel ih =>
    intro s hlen
    have hsplit : rest s = fetch s ++ (rest s).drop (n + 1) := by
      rw [hfetch, take_append_drop]
    cases hf : fetch s with
    | nil =>
      -- nothing fetched: nothing is left
      have hnil : rest s = [] := by
        have := hfetch s
        rw [hf] at this
        cases hr : rest s with
        | nil => rfl
        | cons a l => rw [hr] at this; cases this
      rw [walkFetched, hf, hnil]
      rfl
    | cons a l =>
      rw [walkFetched, hf]
      dsimp only
      rw [hf] at hsplit
      cases hw : walk f s (a :: l) with
      | error e =>
        rw [hsplit, walk_append_of_error hw]
        rfl
      | ok r =>
        obtain ⟨s', go⟩ := r
        cases go with
        | false =>
          rw [hsplit, walk_append_of_stop hw]
          rfl
        | true =>
          have hdrop := hrest s s' (by rw [hf]; exact hw)
          have hshorter : (rest s').length < fuel := by
            have hne : 0 < (rest s).length := by rw [hsplit]; simp
            rw [hdrop, length_drop]
            omega
          dsimp only
          rw [ih s' hshorter, hsplit, walk_append_of_end hw, hdrop]

end Walk

/-! ## §2. Feeds and their writers -/

section Reading

variable {π κ α : Type} [LinearOrder π]

/-- What a reader may be given: at each position at most one item, each key at
    most once, nothing beyond the counter. -/
structure Offer (π κ α : Type) [LinearOrder π] where
  counter : π
  item : π → Option (κ × α)
  bounded : ∀ p x, item p = some x → p ≤ counter
  once : ∀ p q x y, item p = some x → item q = some y → x.1 = y.1 → p = q

variable {o o' o'' : Offer π κ α}

/-- What writing does: the counter only grows, and at or below the old counter
    there is nothing that was not there. -/
structure Later (o o' : Offer π κ α) : Prop where
  counter : o.counter ≤ o'.counter
  item : ∀ p x, p ≤ o.counter → o'.item p = some x → o.item p = some x

/-! ## §3. Readers -/

/-- A page read from `c`: every item after `c` up to the new cursor, and no other. -/
structure Page (o : Offer π κ α) (c : π) (items : List (κ × α)) (c' : π) : Prop where
  forward : c ≤ c'
  within : c ≤ o.counter → c' ≤ o.counter
  complete : ∀ p x, c < p → p ≤ c' → o.item p = some x → x ∈ items
  sound : ∀ x ∈ items, ∃ p, c < p ∧ p ≤ c' ∧ o.item p = some x

/-- A reader: where it left off, and the last item it got for each key. -/
structure Reader (π κ α : Type) where
  cursor : π
  got : κ → Option α

/-- Take a page in. -/
def Reader.take [DecidableEq κ] (rd : Reader π κ α) (items : List (κ × α)) (cursor : π) : Reader π κ α where
  cursor := cursor
  got k := match items.reverse.find? (fun x => x.1 = k) with
    | some x => some x.2
    | none => rd.got k

variable {rd : Reader π κ α} {items : List (κ × α)} {c c' p : π} {x : κ × α}

/-- The reader holds the current item of every key at or below its cursor. -/
structure UpToDate (o : Offer π κ α) (rd : Reader π κ α) : Prop where
  within : rd.cursor ≤ o.counter
  holds : ∀ p x, p ≤ rd.cursor → o.item p = some x → rd.got x.1 = some x.2

/-- Nothing a writer does spoils what the reader holds. -/
theorem UpToDate.later (h : UpToDate o rd) (hlater : Later o o') : UpToDate o' rd where
  within := le_trans h.within hlater.counter
  holds p x hp hx := h.holds p x hp (hlater.item p x (le_trans hp h.within) hx)

/-- Whatever a page has under the key of an item is that item. -/
theorem Page.eq_of_key {y : κ × α} (h : Page o c items c') (hx : o.item p = some x)
    (hy : y ∈ items) (hkey : y.1 = x.1) : y = x := by
  obtain ⟨q, -, -, hq⟩ := h.sound y hy
  have hpq := o.once q p y x hq hx hkey
  rw [hpq, hx] at hq
  exact (Option.some.inj hq).symm

variable [DecidableEq κ]

theorem Page.got_of_mem (h : Page o c items c') (hx : o.item p = some x) (hmem : x ∈ items) :
    (rd.take items c').got x.1 = some x.2 := by
  unfold Reader.take
  dsimp only
  split
  next y hfind =>
    have hy := mem_reverse.mp (mem_of_find?_eq_some hfind)
    rw [h.eq_of_key hx hy (by simpa using find?_some hfind)]
  next hnone =>
    exact absurd (find?_eq_none.mp hnone x (mem_reverse.mpr hmem)) (by simp)

theorem Page.got_of_notMem (h : Page o c items c') (hx : o.item p = some x) (hmem : x ∉ items) :
    (rd.take items c').got x.1 = rd.got x.1 := by
  unfold Reader.take
  dsimp only
  split
  next y hfind =>
    have hy := mem_reverse.mp (mem_of_find?_eq_some hfind)
    rw [h.eq_of_key hx hy (by simpa using find?_some hfind)] at hy
    exact absurd hy hmem
  next => rfl

/-- **Reading a page keeps the reader up to date**, now up to the new cursor. -/
theorem UpToDate.page (h : UpToDate o rd) (hpage : Page o rd.cursor items c') :
    UpToDate o (rd.take items c') where
  within := hpage.within h.within
  holds p x hp hx := by
    by_cases hmem : x ∈ items
    · exact hpage.got_of_mem hx hmem
    · rw [hpage.got_of_notMem hx hmem]
      refine h.holds p x ?_ hx
      by_contra hlt
      exact hmem (hpage.complete p x (lt_of_not_ge hlt) hp hx)

end Reading

end Panora.Lib.Feed
