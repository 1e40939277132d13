/-
  Panora.Panod.Title — the window-title gate.

  `title_fold`, `PrivacyEngine::with_excluded_titles` and `evaluate_title` of
  `crates/panora-core/src/privacy.rs`: what a `Gate` asks as `titleAllows`.  The folding takes I to
  ı and İ to i, as Turkish does, so a phrase that holds an i in any form is missed in titles that
  ordinary lowercasing finds it in.

  Main result:
    * `title_gate_strict_iff` — the phrases for which the gate is as strict as lowercasing.
-/
import Panora.Lib.Unicode
import Panora.Panod.Formats

namespace Panora.Panod

open Panora.Lib List

/-! ## §1. The gate -/

/-- `title_fold`, of one character. -/
def foldChar (u : Unicode) (c : Char) : List Char :=
  if c = 'I' then ['ı'] else if c = 'İ' then ['i'] else u.toLowercase c

/-- Lowercase for the window-title exclusion match. -/
def titleFold (u : Unicode) (s : List Char) : List Char := s.flatMap (foldChar u)

/-- The phrases a title is searched for. -/
def withExcludedTitles (u : Unicode) (titles : List String) : List (List Char) :=
  (titles.map (fun t => titleFold u (trim t).toList)).filter (fun t => t ≠ [])

/-- Whether the copy is let through. -/
def evaluateTitle (u : Unicode) (excluded : List (List Char)) : Option String → Bool
  | none => true
  | some title =>
    if excluded = [] then true
    else !excluded.any (fun phrase => phrase <:+: titleFold u title.toList)

/-! ## §2. Folding against lowercasing -/

variable {u : Unicode} {c : Char} {s w : List Char}

theorem toLowercase_capital : u.toLowercase 'I' = ['i'] := u.ascii 'I' (by decide)

theorem toLowercase_small : u.toLowercase 'i' = ['i'] := u.ascii 'i' (by decide)

theorem foldChar_other (hI : c ≠ 'I') (hdotted : c ≠ 'İ') : foldChar u c = u.toLowercase c := by
  rw [foldChar, if_neg hI, if_neg hdotted]

/-- A character folds to one character, also an İ. -/
theorem foldChar_single (u : Unicode) (c : Char) : ∃ l, foldChar u c = [l] := by
  unfold foldChar
  split
  · exact ⟨_, rfl⟩
  · split
    · exact ⟨_, rfl⟩
    next hdotted => exact u.single c hdotted

theorem length_titleFold (u : Unicode) (s : List Char) : (titleFold u s).length = s.length := by
  induction s with
  | nil => rfl
  | cons c s ih =>
    obtain ⟨l, hl⟩ := foldChar_single u c
    rw [titleFold, flatMap_cons, hl, singleton_append, length_cons, length_cons]
    exact congrArg (· + 1) ih

/-- Only an i and an İ fold to i. -/
theorem mem_foldChar (h : 'i' ∈ foldChar u c) : c = 'i' ∨ c = 'İ' := by
  by_cases hI : c = 'I'
  · subst hI
    exact absurd h (by rw [foldChar, if_pos rfl]; decide)
  · by_cases hdotted : c = 'İ'
    · exact .inr hdotted
    · obtain ⟨l, hl⟩ := u.single c hdotted
      rw [foldChar_other hI hdotted, hl, mem_singleton] at h
      exact .inl ((u.toI c (h ▸ hl)).resolve_right hI)

theorem mem_titleFold : 'i' ∈ titleFold u s ↔ 'i' ∈ s ∨ 'İ' ∈ s := by
  constructor
  · intro h
    obtain ⟨c, hc, hi⟩ := mem_flatMap.mp h
    obtain rfl | rfl := mem_foldChar hi
    · exact .inl hc
    · exact .inr hc
  · rintro (h | h)
    · refine mem_flatMap.mpr ⟨_, h, ?_⟩
      rw [foldChar_other (by decide) (by decide), toLowercase_small]
      exact mem_singleton_self _
    · exact mem_flatMap.mpr ⟨_, h, by rw [foldChar, if_neg (by decide), if_pos rfl]; simp⟩

/-- What begins the lowercased title, and has no i, begins the folded one. -/
theorem prefix_titleFold (hw : 'i' ∉ w) (h : w <+: u.lower s) : w <+: titleFold u s := by
  induction s generalizing w with
  | nil => exact h
  | cons c s ih =>
    cases w with
    | nil => exact nil_prefix
    | cons x w =>
      have hx : x ≠ 'i' := fun hx => hw (hx ▸ mem_cons_self)
      rw [Unicode.lower, flatMap_cons] at h
      have hI : c ≠ 'I' := by
        rintro rfl
        rw [toLowercase_capital] at h
        exact hx (cons_prefix_cons.mp h).1
      have hdotted : c ≠ 'İ' := by
        rintro rfl
        rw [u.dotted] at h
        exact hx (cons_prefix_cons.mp h).1
      obtain ⟨l, hl⟩ := u.single c hdotted
      rw [hl] at h
      obtain ⟨rfl, hrest⟩ := cons_prefix_cons.mp h
      rw [titleFold, flatMap_cons, foldChar_other hI hdotted, hl]
      exact cons_prefix_cons.mpr ⟨rfl, ih (fun hi => hw (mem_cons_of_mem _ hi)) hrest⟩

/-- **What the lowercased title contains, and has no i, the folded one contains**, unless it
    begins with the dot that lowercasing splits off an İ. -/
theorem infix_titleFold (hw : 'i' ∉ w) (hdot : w.head? ≠ some dotAbove) (h : w <:+: u.lower s) :
    w <:+: titleFold u s := by
  induction s with
  | nil => exact h
  | cons c s ih =>
    have hlater (hs : w <:+: u.lower s) : w <:+: titleFold u (c :: s) :=
      (ih hs).trans (suffix_append _ _).isInfix
    by_cases hdotted : c = 'İ'
    · subst hdotted
      rw [Unicode.lower, flatMap_cons, u.dotted] at h
      obtain hhead | hrest := infix_cons_iff.mp h
      · exact (prefix_titleFold (s := 'İ' :: s) hw (by
          rw [Unicode.lower, flatMap_cons, u.dotted]; exact hhead)).isInfix
      · obtain hhead | hrest := infix_cons_iff.mp hrest
        · cases w with
          | nil => exact nil_infix
          | cons x w => exact absurd (congrArg some (cons_prefix_cons.mp hhead).1) hdot
        · exact hlater hrest
    · obtain ⟨l, hl⟩ := u.single c hdotted
      have hcons : u.lower (c :: s) = l :: u.lower s := by
        rw [Unicode.lower, flatMap_cons, hl]; rfl
      rw [hcons] at h
      obtain hhead | hrest := infix_cons_iff.mp h
      · exact (prefix_titleFold hw (hcons ▸ hhead)).isInfix
      · exact hlater hrest

/-! ## §3. Titles that are let through -/

/-- A phrase without an i in any form, that does not begin with the dot above. -/
def Undotted (s : List Char) : Prop :=
  (∀ c ∈ s, c ≠ 'i' ∧ c ≠ 'I' ∧ c ≠ 'İ') ∧ s.head? ≠ some dotAbove

theorem lower_eq_titleFold (h : ∀ c ∈ s, c ≠ 'i' ∧ c ≠ 'I' ∧ c ≠ 'İ') : u.lower s = titleFold u s :=
  flatMap_congr fun c hc => (foldChar_other (h c hc).2.1 (h c hc).2.2).symm

/-- The phrase with every i a capital I, and every İ a capital I with a dot above. -/
def dotless (c : Char) : List Char :=
  if c = 'i' then ['I'] else if c = 'İ' then ['I', dotAbove] else [c]

theorem lower_dotless (u : Unicode) (s : List Char) : u.lower (s.flatMap dotless) = u.lower s := by
  unfold Unicode.lower
  rw [flatMap_assoc]
  refine flatMap_congr fun c _ => ?_
  unfold dotless
  split
  next h => rw [h, flatMap_singleton, toLowercase_capital, toLowercase_small]
  next =>
    split
    next h =>
      rw [h, u.dotted, flatMap_cons, flatMap_singleton, toLowercase_capital,
        (u.toDot _).mpr rfl]
      rfl
    next => exact flatMap_singleton _ _

theorem i_not_mem_dotless (s : List Char) : 'i' ∉ titleFold u (s.flatMap dotless) := by
  have hnot : ∀ x : Char, x = 'i' ∨ x = 'İ' → x ∉ s.flatMap dotless := by
    intro x hx h
    obtain ⟨c, -, hc⟩ := mem_flatMap.mp h
    unfold dotless at hc
    split at hc
    · obtain rfl | rfl := hx <;> exact absurd hc (by decide)
    next hi =>
      split at hc
      · obtain rfl | rfl := hx <;> exact absurd hc (by decide)
      next hdotted =>
        rw [mem_singleton] at hc
        exact hx.elim (fun h => hi (hc ▸ h)) (fun h => hdotted (hc ▸ h))
  rw [mem_titleFold]
  exact fun h => h.elim (hnot _ (.inl rfl)) (hnot _ (.inr rfl))

/-- The phrase with every capital I a small one. -/
def smallI (c : Char) : Char := if c = 'I' then 'i' else c

theorem lower_smallI (u : Unicode) (s : List Char) : u.lower (s.map smallI) = u.lower s := by
  unfold Unicode.lower
  rw [flatMap_map]
  refine flatMap_congr fun c _ => ?_
  unfold smallI
  split
  next h => rw [h, toLowercase_capital, toLowercase_small]
  next => rfl

/-- **Any other phrase is missed in some title that lowercasing finds it in.** -/
theorem exists_missed (h : ¬ Undotted s) :
    ∃ title, u.lower s <:+: u.lower title ∧ ¬ titleFold u s <:+: titleFold u title := by
  by_cases hi : 'i' ∈ s ∨ 'İ' ∈ s
  · refine ⟨s.flatMap dotless, by rw [lower_dotless], fun hin => ?_⟩
    exact i_not_mem_dotless s (hin.subset (mem_titleFold.mpr hi))
  · by_cases hI : 'I' ∈ s
    · refine ⟨s.map smallI, by rw [lower_smallI], fun hin => hi ?_⟩
      -- as long as the phrase, the title would have to fold to the same
      have heq := hin.eq_of_length (by simp only [length_titleFold, length_map])
      have hsmall : 'i' ∈ s.map smallI := mem_map.mpr ⟨_, hI, rfl⟩
      rw [← mem_titleFold, heq]
      exact mem_titleFold.mpr (.inl hsmall)
    · have hnone : ∀ c ∈ s, c ≠ 'i' ∧ c ≠ 'I' ∧ c ≠ 'İ' := by
        intro c hc
        refine ⟨?_, ?_, ?_⟩ <;> rintro rfl
        · exact hi (.inl hc)
        · exact hI hc
        · exact hi (.inr hc)
      cases s with
      | nil => exact absurd ⟨hnone, nofun⟩ h
      | cons x s =>
        have hx : x = dotAbove := by
          by_contra hx
          exact h ⟨hnone, fun heq => hx (Option.some.inj heq)⟩
        subst hx
        refine ⟨'İ' :: s, ?_, fun hin => hi ?_⟩
        · rw [Unicode.lower, flatMap_cons, Unicode.lower, flatMap_cons, u.dotted,
            (u.toDot _).mpr rfl]
          exact (suffix_cons _ _).isInfix
        · rw [← mem_titleFold, hin.eq_of_length (by simp only [length_titleFold, length_cons])]
          exact mem_titleFold.mpr (.inr mem_cons_self)

/-! ## §4. The result -/

theorem titleFold_ne_nil (h : s ≠ []) : titleFold u s ≠ [] := by
  intro hnil
  have hlength := length_titleFold u s
  rw [hnil] at hlength
  exact h (length_eq_zero_iff.mp hlength.symm)

/-- A configured phrase that the folded title contains has the copy rejected. -/
theorem evaluateTitle_rejects {titles : List String} {phrase title : String} (hmem : phrase ∈ titles)
    (hne : (trim phrase).toList ≠ [])
    (h : titleFold u (trim phrase).toList <:+: titleFold u title.toList) :
    evaluateTitle u (withExcludedTitles u titles) (some title) = false := by
  have hin : titleFold u (trim phrase).toList ∈ withExcludedTitles u titles :=
    mem_filter.mpr ⟨mem_map.mpr ⟨phrase, hmem, rfl⟩, by simpa using titleFold_ne_nil hne⟩
  rw [evaluateTitle, if_neg (ne_nil_of_mem hin), Bool.not_eq_false', any_eq_true]
  exact ⟨_, hin, decide_eq_true h⟩

theorem evaluateTitle_singleton {phrase title : String} (hne : (trim phrase).toList ≠ [])
    (h : evaluateTitle u (withExcludedTitles u [phrase]) (some title) = false) :
    titleFold u (trim phrase).toList <:+: titleFold u title.toList := by
  have hone : withExcludedTitles u [phrase] = [titleFold u (trim phrase).toList] :=
    filter_cons_of_pos (by simpa using titleFold_ne_nil hne)
  rw [evaluateTitle, hone, if_neg (cons_ne_nil _ _), Bool.not_eq_false', any_cons,
    any_nil, Bool.or_false] at h
  exact of_decide_eq_true h

/-- **The gate is as strict as lowercasing for the phrases without an i, and for no others.** -/
theorem title_gate_strict_iff (u : Unicode) (phrase : String) (hne : (trim phrase).toList ≠ []) :
    (∀ (titles : List String) (title : String), phrase ∈ titles →
      u.lower (trim phrase).toList <:+: u.lower title.toList →
      evaluateTitle u (withExcludedTitles u titles) (some title) = false) ↔
    Undotted (trim phrase).toList := by
  constructor
  · intro h
    by_contra hdotted
    obtain ⟨title, hlower, hfold⟩ := exists_missed (u := u) hdotted
    have hrejects := h [phrase] (String.ofList title) (mem_singleton_self _)
      (by rw [String.toList_ofList]; exact hlower)
    have hcontains := evaluateTitle_singleton hne hrejects
    rw [String.toList_ofList] at hcontains
    exact hfold hcontains
  · intro hundotted titles title hmem hlower
    refine evaluateTitle_rejects hmem hne ?_
    rw [lower_eq_titleFold hundotted.1] at hlower
    have hnoI : 'i' ∉ titleFold u (trim phrase).toList := fun h =>
      (mem_titleFold.mp h).elim (fun hi => (hundotted.1 _ hi).1 rfl)
        (fun hi => (hundotted.1 _ hi).2.2 rfl)
    refine infix_titleFold hnoI ?_ hlower
    cases hphrase : (trim phrase).toList with
    | nil => exact absurd hphrase hne
    | cons x s =>
      rw [hphrase] at hundotted
      obtain ⟨l, hl⟩ := foldChar_single u x
      rw [titleFold, flatMap_cons, hl]
      intro hdot
      have hother := hundotted.1 x mem_cons_self
      rw [foldChar_other hother.2.1 hother.2.2, Option.some.inj hdot, u.toDot] at hl
      exact hundotted.2 (congrArg some hl)

/-- A phrase without an i turns every title away that has it in any case. -/
theorem title_gate_strict_of_wallet : Undotted (trim " Wallet").toList ∧
    ∀ (titles : List String) (title : String), " Wallet" ∈ titles →
      Unicode.basic.lower (trim " Wallet").toList <:+: Unicode.basic.lower title.toList →
      evaluateTitle Unicode.basic (withExcludedTitles Unicode.basic titles) (some title) = false := by
  have htrim : (trim " Wallet").toList = ['W', 'a', 'l', 'l', 'e', 't'] := by decide +kernel
  have hundotted : Undotted (trim " Wallet").toList := by
    rw [htrim]
    simp [Undotted, dotAbove]
  exact ⟨hundotted, (title_gate_strict_iff _ _ (by simp [htrim])).mpr hundotted⟩

/-- The documented phrase misses the same words in capitals. -/
theorem capitals_let_through :
    Unicode.basic.lower (trim "Online Banking").toList <:+:
        Unicode.basic.lower "ONLINE BANKING".toList ∧
      evaluateTitle Unicode.basic (withExcludedTitles Unicode.basic ["Online Banking"])
        (some "ONLINE BANKING") = true := by
  decide +kernel

end Panora.Panod
