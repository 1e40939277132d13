/-
  Panora.Lib.Unicode — lowercasing.

  `char::to_lowercase` as far as it is relied on: what it does to ASCII letters and to the dotted
  capital İ, the one character that gives two.

  General: nothing of a program.
-/
import Mathlib

namespace Panora.Lib

/-- The dot above. -/
def dotAbove : Char := '̇'

/-- Lowercasing, character by character. -/
structure Unicode where
  toLowercase : Char → List Char
  ascii : ∀ c, c.toNat < 128 → toLowercase c = [c.toLower]
  dotted : toLowercase 'İ' = ['i', dotAbove]
  single : ∀ c, c ≠ 'İ' → ∃ l, toLowercase c = [l]
  toI : ∀ c, toLowercase c = ['i'] → c = 'i' ∨ c = 'I'
  toDot : ∀ c, toLowercase c = [dotAbove] ↔ c = dotAbove
  again : ∀ c, (toLowercase c).flatMap toLowercase = toLowercase c

namespace Unicode

/-- `str::to_lowercase`. -/
def lower (u : Unicode) (s : List Char) : List Char := s.flatMap u.toLowercase

/-- Lowercasing of ASCII letters and İ alone. -/
def basic : Unicode where
  toLowercase c := if c = 'İ' then ['i', dotAbove] else if c.toNat < 128 then [c.toLower] else [c]
  ascii c h := by
    rw [if_neg (by rintro rfl; exact absurd h (by decide)), if_pos h]
  dotted := rfl
  single c h := by
    rw [if_neg h]
    split
    · exact ⟨_, rfl⟩
    · exact ⟨_, rfl⟩
  toI c h := by
    have hsmall : ∀ n : Fin 128, (Char.ofNat n).toLower = 'i' →
        Char.ofNat n = 'i' ∨ Char.ofNat n = 'I' := by decide
    split at h
    · exact nomatch h
    · split at h
      next hlt =>
        have hi := hsmall ⟨c.toNat, hlt⟩ (by rw [Char.ofNat_toNat]; exact List.singleton_inj.mp h)
        rw [Char.ofNat_toNat] at hi
        exact hi
      next => exact .inl (List.singleton_inj.mp h)
  toDot c := by
    have hsmall : ∀ n : Fin 128, (Char.ofNat n).toLower ≠ dotAbove := by decide
    constructor
    · intro h
      split at h
      · exact nomatch h
      · split at h
        next hlt =>
          refine absurd (List.singleton_inj.mp h) ?_
          have hne := hsmall ⟨c.toNat, hlt⟩
          rw [Char.ofNat_toNat] at hne
          exact hne
        next => exact List.singleton_inj.mp h
    · rintro rfl
      decide
  again c := by
    have hsmall : ∀ n : Fin 128, (Char.ofNat n).toLower ≠ 'İ' ∧
        (Char.ofNat n).toLower.toNat < 128 ∧
        (Char.ofNat n).toLower.toLower = (Char.ofNat n).toLower := by decide
    split
    · decide
    next hdotted =>
      split
      next hlt =>
        have hlower := hsmall ⟨c.toNat, hlt⟩
        rw [Char.ofNat_toNat] at hlower
        rw [List.flatMap_singleton, if_neg hlower.1, if_pos hlower.2.1, hlower.2.2]
      next hlt => rw [List.flatMap_singleton, if_neg hdotted, if_neg hlt]

end Unicode

end Panora.Lib
