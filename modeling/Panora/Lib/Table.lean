/-
  Panora.Lib.Table — a table with a row id and a unique key.

  A row has an id, a key and the other columns.  A table is a list of rows in
  which no id and no key occurs twice; both are fields of the structure, so a
  table that breaks them cannot be written down.  An update touches only the
  other columns, a new row gets an id no row has, and a deletion takes rows
  away, so every operation returns a table again.

  The lemmas say what each operation does to the two ways of finding a row: by
  its id and by its key.

  General: any key type, any columns.
-/
import Panora.Lib.Keyed

namespace Panora.Lib

open Keyed List

/-- One row. -/
structure Row (κ γ : Type) where
  id : Nat
  key : κ
  cols : γ
  deriving DecidableEq, Repr

/-- A table: ids and keys are unique. -/
structure Table (κ γ : Type) where
  rows : List (Row κ γ)
  idsNodup : (rows.map Row.id).Nodup
  keysNodup : (rows.map Row.key).Nodup

namespace Table

variable {κ γ : Type}

variable {t : Table κ γ}

@[ext] theorem ext {u : Table κ γ} (h : t.rows = u.rows) : t = u := by
  obtain ⟨rows, _, _⟩ := t
  obtain ⟨rows', _, _⟩ := u
  have h : rows = rows' := h
  subst h
  rfl

instance [DecidableEq κ] [DecidableEq γ] : DecidableEq (Table κ γ) := fun t u =>
  decidable_of_iff (t.rows = u.rows) ⟨ext, fun h => h ▸ rfl⟩

/-- The table without rows. -/
def empty : Table κ γ := ⟨[], nodup_nil, nodup_nil⟩

/-! ## §1. Finding rows -/

/-- The row with this id. -/
def get (t : Table κ γ) (id : Nat) : Option (Row κ γ) := lookup Row.id t.rows id

/-- The row with this key. -/
def find [DecidableEq κ] (t : Table κ γ) (k : κ) : Option (Row κ γ) := lookup Row.key t.rows k

variable {id : Nat} {r : Row κ γ}

theorem get_eq_some : t.get id = some r ↔ r ∈ t.rows ∧ r.id = id :=
  lookup_eq_some t.idsNodup

theorem get_eq_none : t.get id = none ↔ ∀ r ∈ t.rows, r.id ≠ id :=
  lookup_eq_none

/-- Two rows with one id are one row. -/
theorem eq_of_id_eq {r' : Row κ γ} (hr : r ∈ t.rows) (hr' : r' ∈ t.rows)
    (h : r.id = r'.id) : r = r' := by
  have h1 := get_eq_some.mpr ⟨hr, rfl⟩
  have h2 := get_eq_some.mpr ⟨hr', rfl⟩
  rw [← h, h1] at h2
  injection h2

variable {k : κ}

section Key

variable [DecidableEq κ]

theorem find_eq_some : t.find k = some r ↔ r ∈ t.rows ∧ r.key = k :=
  lookup_eq_some t.keysNodup

theorem find_eq_none : t.find k = none ↔ ∀ r ∈ t.rows, r.key ≠ k :=
  lookup_eq_none

theorem get_of_find (h : t.find k = some r) : t.get r.id = some r :=
  get_eq_some.mpr ⟨(find_eq_some.mp h).1, rfl⟩

theorem find_of_get (h : t.get id = some r) : t.find r.key = some r :=
  find_eq_some.mpr ⟨(get_eq_some.mp h).1, rfl⟩

end Key

/-! ## §2. Updates -/

/-- Put new columns into one row, leaving the others alone. -/
def setCols (f : Row κ γ → γ) (r : Row κ γ) : Row κ γ := { r with cols := f r }

/-- `UPDATE … SET cols = f`, over every row. -/
def mapCols (t : Table κ γ) (f : Row κ γ → γ) : Table κ γ where
  rows := t.rows.map (setCols f)
  idsNodup := by
    rw [map_map]
    exact t.idsNodup
  keysNodup := by
    rw [map_map]
    exact t.keysNodup

/-- `UPDATE … SET cols = f WHERE id = …`. -/
def update (t : Table κ γ) (id : Nat) (f : γ → γ) : Table κ γ :=
  t.mapCols (fun r => if r.id = id then f r.cols else r.cols)

theorem mem_mapCols {f : Row κ γ → γ} :
    r ∈ (t.mapCols f).rows ↔ ∃ r0 ∈ t.rows, setCols f r0 = r := by
  unfold mapCols
  rw [mem_map]

theorem get_mapCols (t : Table κ γ) (f : Row κ γ → γ) (id : Nat) :
    (t.mapCols f).get id = (t.get id).map (setCols f) := by
  ext r
  rw [Option.map_eq_some_iff, get_eq_some, mem_mapCols]
  constructor
  · intro h
    obtain ⟨⟨r0, hr0, rfl⟩, hid⟩ := h
    exact ⟨r0, get_eq_some.mpr ⟨hr0, hid⟩, rfl⟩
  · intro h
    obtain ⟨r0, hr0, rfl⟩ := h
    obtain ⟨hmem, hid⟩ := get_eq_some.mp hr0
    exact ⟨⟨r0, hmem, rfl⟩, hid⟩

theorem find_mapCols [DecidableEq κ] (t : Table κ γ) (f : Row κ γ → γ) (k : κ) :
    (t.mapCols f).find k = (t.find k).map (setCols f) := by
  ext r
  rw [Option.map_eq_some_iff, find_eq_some, mem_mapCols]
  constructor
  · intro h
    obtain ⟨⟨r0, hr0, rfl⟩, hkey⟩ := h
    exact ⟨r0, find_eq_some.mpr ⟨hr0, hkey⟩, rfl⟩
  · intro h
    obtain ⟨r0, hr0, rfl⟩ := h
    obtain ⟨hmem, hkey⟩ := find_eq_some.mp hr0
    exact ⟨⟨r0, hmem, rfl⟩, hkey⟩

/-- Two passes over the rows are one. -/
theorem mapCols_mapCols (t : Table κ γ) (f g : Row κ γ → γ) :
    (t.mapCols f).mapCols g = t.mapCols (fun r => g (setCols f r)) := by
  apply ext
  show (t.rows.map (setCols f)).map (setCols g) = _
  rw [map_map]
  rfl

/-- The row an update is about. -/
theorem get_update_self (h : t.get id = some r)
    (f : γ → γ) : (t.update id f).get id = some { r with cols := f r.cols } := by
  unfold update
  rw [get_mapCols, h, Option.map_some, setCols, if_pos (get_eq_some.mp h).2]

/-- The other rows. -/
theorem get_update_of_ne (t : Table κ γ) {id' : Nat} (hne : id' ≠ id) (f : γ → γ) :
    (t.update id f).get id' = t.get id' := by
  unfold update
  rw [get_mapCols]
  cases h : t.get id' with
  | none => rfl
  | some r =>
    have hid := (get_eq_some.mp h).2
    rw [Option.map_some, setCols, if_neg (by rw [hid]; exact hne)]

theorem find_update_self [DecidableEq κ] (h : t.find k = some r) (f : γ → γ) :
    (t.update r.id f).find k = some { r with cols := f r.cols } := by
  unfold update
  rw [find_mapCols, h, Option.map_some, setCols, if_pos rfl]

theorem find_update_of_ne [DecidableEq κ] {k' : κ}
    (h : t.find k = some r) (hne : k' ≠ k) (f : γ → γ) : (t.update r.id f).find k' = t.find k' := by
  unfold update
  rw [find_mapCols]
  cases h' : t.find k' with
  | none => rfl
  | some r' =>
    have hid : r'.id ≠ r.id := by
      intro heq
      have := eq_of_id_eq (find_eq_some.mp h').1 (find_eq_some.mp h).1 heq
      exact hne (by rw [← (find_eq_some.mp h').2, ← (find_eq_some.mp h).2, this])
    rw [Option.map_some, setCols, if_neg hid]

/-- An update of an id no row has does nothing. -/
theorem update_of_get_none (h : t.get id = none) (f : γ → γ) : t.update id f = t := by
  apply ext
  show t.rows.map _ = t.rows
  rw [map_congr_left (g := fun r => r), map_id']
  intro r hr
  show setCols _ r = r
  rw [setCols, if_neg (get_eq_none.mp h r hr)]

/-! ## §3. Insertions -/

/-- The highest id in use. -/
def maxId (t : Table κ γ) : Nat := (t.rows.map Row.id).foldr max 0

/-- The id the next row gets: one more than the highest in use. -/
def nextId (t : Table κ γ) : Nat := t.maxId + 1

theorem id_lt_nextId (h : r ∈ t.rows) : r.id < t.nextId :=
  Nat.lt_succ_of_le (le_max_of_le' 0 (mem_map_of_mem h) le_rfl)

section Key

variable [DecidableEq κ]

/-- `INSERT` of a row whose key no row has. -/
def insert (t : Table κ γ) (k : κ) (c : γ) (h : t.find k = none) : Table κ γ where
  rows := t.rows ++ [⟨t.nextId, k, c⟩]
  idsNodup := by
    rw [map_append, nodup_append]
    refine ⟨t.idsNodup, by simp, ?_⟩
    intro a ha b hb
    obtain ⟨r, hr, rfl⟩ := mem_map.mp ha
    rw [show b = t.nextId by simpa using hb]
    exact Nat.ne_of_lt (id_lt_nextId hr)
  keysNodup := by
    rw [map_append, nodup_append]
    refine ⟨t.keysNodup, by simp, ?_⟩
    intro a ha b hb
    obtain ⟨r, hr, rfl⟩ := mem_map.mp ha
    rw [show b = k by simpa using hb]
    exact find_eq_none.mp h r hr

variable {t : Table κ γ} {k : κ} {c : γ}

theorem mem_insert {h : t.find k = none} :
    r ∈ (t.insert k c h).rows ↔ r ∈ t.rows ∨ r = ⟨t.nextId, k, c⟩ := by
  unfold insert
  rw [mem_append, mem_singleton]

theorem find_insert_self (h : t.find k = none) : (t.insert k c h).find k = some ⟨t.nextId, k, c⟩ :=
  find_eq_some.mpr ⟨mem_insert.mpr (.inr rfl), rfl⟩

theorem get_insert_self (h : t.find k = none) :
    (t.insert k c h).get t.nextId = some ⟨t.nextId, k, c⟩ :=
  get_eq_some.mpr ⟨mem_insert.mpr (.inr rfl), rfl⟩

theorem get_insert_of_ne (h : t.find k = none) (hne : id ≠ t.nextId) :
    (t.insert k c h).get id = t.get id := by
  ext r
  rw [get_eq_some, get_eq_some, mem_insert]
  constructor
  · intro hr
    obtain ⟨hr | rfl, hid⟩ := hr
    · exact ⟨hr, hid⟩
    · exact absurd hid.symm hne
  · intro hr
    exact ⟨.inl hr.1, hr.2⟩

theorem find_insert_of_ne (h : t.find k = none) {k' : κ} (hne : k' ≠ k) :
    (t.insert k c h).find k' = t.find k' := by
  ext r
  rw [find_eq_some, find_eq_some, mem_insert]
  constructor
  · intro hr
    obtain ⟨hr | rfl, hkey⟩ := hr
    · exact ⟨hr, hkey⟩
    · exact absurd hkey.symm hne
  · intro hr
    exact ⟨.inl hr.1, hr.2⟩

/-- `INSERT … ON CONFLICT … DO UPDATE`: the row of a key gets these columns. -/
def put (t : Table κ γ) (k : κ) (c : γ) : Table κ γ :=
  match h : t.find k with
  | some r => t.update r.id (fun _ => c)
  | none => t.insert k c h

theorem put_of_new (h : t.find k = none) : t.put k c = t.insert k c h := by
  unfold put
  split
  next r hr => exact absurd (hr.symm.trans h) (by simp)
  next => rfl

/-- A row that is there is updated. -/
theorem update_eq_put (h : t.find k = some r) (f : γ → γ) :
    t.update r.id f = t.put k (f r.cols) := by
  unfold put
  split
  next r' hr' =>
    cases h.symm.trans hr'
    apply ext
    refine map_congr_left fun x hx => ?_
    by_cases hid : x.id = r.id
    · rw [eq_of_id_eq hx (find_eq_some.mp h).1 hid]
      simp [setCols]
    · simp [setCols, hid]
  next hnone => exact absurd (h.symm.trans hnone) (by simp)

theorem find_put_of_ne {k' : κ} (hne : k' ≠ k) : (t.put k c).find k' = t.find k' := by
  cases h : t.find k with
  | some r =>
    rw [← update_eq_put h (fun _ => c)]
    exact find_update_of_ne h hne _
  | none =>
    rw [put_of_new h]
    exact find_insert_of_ne h hne

/-- What was put first is written over. -/
theorem put_put (t : Table κ γ) (k : κ) (c c' : γ) : (t.put k c).put k c' = t.put k c' := by
  cases h : t.find k with
  | some r =>
    have hput := find_update_self h (fun _ => c)
    rw [← update_eq_put h (fun _ => c), ← update_eq_put hput (fun _ => c'),
      ← update_eq_put h (fun _ => c')]
    unfold update
    rw [mapCols_mapCols]
    refine congrArg t.mapCols (funext fun x => ?_)
    by_cases hid : x.id = r.id <;> simp [setCols, hid]
  | none =>
    have hput := find_insert_self (c := c) h
    rw [put_of_new h, ← update_eq_put hput (fun _ => c'), put_of_new h]
    apply ext
    show (t.rows ++ [_]).map _ = t.rows ++ [_]
    rw [map_append, map_congr_left (g := fun x => x), map_id']
    · simp [setCols]
    · intro x hx
      simp [setCols, Nat.ne_of_lt (id_lt_nextId hx)]

end Key

/-! ## §4. Deletions -/

/-- `DELETE … WHERE NOT keep`. -/
def keepOnly (t : Table κ γ) (keep : Row κ γ → Bool) : Table κ γ where
  rows := t.rows.filter keep
  idsNodup := t.idsNodup.sublist (filter_sublist.map Row.id)
  keysNodup := t.keysNodup.sublist (filter_sublist.map Row.key)

theorem mem_keepOnly {keep : Row κ γ → Bool} :
    r ∈ (t.keepOnly keep).rows ↔ r ∈ t.rows ∧ keep r = true := by
  unfold keepOnly
  rw [mem_filter]

theorem keepOnly_keepOnly (t : Table κ γ) (p q : Row κ γ → Bool) :
    (t.keepOnly p).keepOnly q = t.keepOnly (fun r => p r && q r) := by
  apply ext
  show (t.rows.filter p).filter q = t.rows.filter (fun r => p r && q r)
  rw [filter_filter]
  exact filter_congr (fun r _ => Bool.and_comm _ _)

/-- A deletion that finds nothing. -/
theorem keepOnly_eq_self {keep : Row κ γ → Bool}
    (h : ∀ r ∈ t.rows, keep r = true) : t.keepOnly keep = t :=
  ext (filter_eq_self.mpr h)

theorem get_keepOnly (t : Table κ γ) (keep : Row κ γ → Bool) (id : Nat) :
    (t.keepOnly keep).get id = (t.get id).filter keep :=
  lookup_filter keep t.idsNodup

theorem find_keepOnly [DecidableEq κ] (t : Table κ γ) (keep : Row κ γ → Bool) (k : κ) :
    (t.keepOnly keep).find k = (t.find k).filter keep :=
  lookup_filter keep t.keysNodup

end Table

end Panora.Lib
