/-
  Panora.Panod.Gate — from a change of the clipboard to a capture.

  `Daemon::handle_event` up to the store, and the content filters
  (`PrivacyEngine::evaluate_content`).  Three functions decide what plain text is: which
  formats are read (`wantedOrder`, whatever the case), which one the text is taken from
  (`text`, by exact name), and which kind the content is (`classify`).

  What the filters on metadata and window titles say is a parameter, as is what a compiled
  pattern matches.

  Main results:
    * `handleEvent_eq_some` — what a capture has passed;
    * `plain_text_judged_iff` — when no plain text escapes the content filters;
    * `one_owner_iff` — when all payloads of a capture come from the owner that was judged.
-/
import Panora.Panod.Formats

namespace Panora.Panod

open Option

/-! ## §1. The content filters -/

/-- What `evaluate_content` answers. -/
inductive Verdict where
  | allow
  | rejectFilter
  | rejectSensitive
  deriving DecidableEq, Repr

/-- User-defined rules judged on the content itself. -/
structure ContentFilters where
  minTextLength : Nat
  ignoreWhitespaceOnly : Bool
  /-- What the compiled ignore patterns match. -/
  patterns : List (String → Bool)
  /-- Kinds to record; `none` means every kind. -/
  kinds : Option (List ContentKind)
  /-- `sensitive_policy = "drop"`. -/
  dropSensitive : Bool

/-- The rules a text is judged by, once it is trimmed. -/
def evaluateText (isHighEntropy : String → Bool) (filters : ContentFilters) (trimmed : String) :
    Verdict :=
  if filters.ignoreWhitespaceOnly && trimmed.isEmpty then .rejectFilter
  else if trimmed.length < filters.minTextLength then .rejectFilter
  else if filters.patterns.any (fun p => p trimmed) then .rejectFilter
  else if filters.dropSensitive && (detect isHighEntropy trimmed).isSome then .rejectSensitive
  else .allow

/-- Second gate, judged on the payloads once they have been read. -/
def evaluateContent (isHighEntropy : String → Bool) (filters : ContentFilters)
    (data : ClipboardData) : Verdict :=
  if filters.kinds.any (fun kinds => !kinds.contains (classify data)) then .rejectFilter
  else
    match text data with
    | none => .allow
    | some t => evaluateText isHighEntropy filters (trim t)

/-- A text that must not be recorded: it matches a pattern, or looks like a secret where those
    are dropped. -/
def ContentFilters.Catches (filters : ContentFilters) (isHighEntropy : String → Bool)
    (trimmed : String) : Prop :=
  (∃ p ∈ filters.patterns, p trimmed = true) ∨
    (filters.dropSensitive = true ∧ (detect isHighEntropy trimmed).isSome = true)

/-- A text that is caught is not allowed. -/
theorem evaluateText_of_catches {isHighEntropy : String → Bool} {filters : ContentFilters}
    {t : String} (h : filters.Catches isHighEntropy t) :
    evaluateText isHighEntropy filters t ≠ .allow := by
  unfold evaluateText
  split
  · simp
  split
  · simp
  split
  · simp
  next hpatterns =>
    rcases h with ⟨p, hp, hmatch⟩ | ⟨hdrop, hsecret⟩
    · exact absurd (List.any_eq_true.mpr ⟨p, hp, hmatch⟩) hpatterns
    · rw [hdrop, hsecret]
      simp

/-- The gate judges the text of a capture. -/
theorem evaluateContent_of_catches {isHighEntropy : String → Bool} {filters : ContentFilters}
    {data : ClipboardData} {t : String} (ht : (text data).map trim = some t)
    (h : filters.Catches isHighEntropy t) :
    evaluateContent isHighEntropy filters data ≠ .allow := by
  obtain ⟨s, hs, rfl⟩ := map_eq_some_iff.mp ht
  unfold evaluateContent
  split
  · simp
  · rw [hs]
    exact evaluateText_of_catches h

/-! ## §2. Reading a capture -/

/-- What a change of the clipboard is reported with. -/
structure ClipboardEvent where
  selection : Selection
  offeredMimes : List String
  sourceApp : Option String
  sourceTitle : Option String
  deriving DecidableEq, Repr

/-- What the daemon lets through. -/
structure Gate where
  locked : Bool
  recordPrimary : Bool
  /-- `PrivacyEngine::evaluate`, on the metadata alone. -/
  privacyAllows : ClipboardData → Bool
  /-- `PrivacyEngine::evaluate_title`. -/
  titleAllows : Option String → Bool
  maxMimeBytes : Nat
  isHighEntropy : String → Bool
  filters : ContentFilters

/-- What becomes of one read: a payload that is empty, too large or cannot be read is left
    out. -/
def keepRead (limit : Nat) (mime : String) : Option Bytes → Option MimePayload
  | some bytes => if bytes = [] ∨ limit < bytes.length then none else some ⟨mime, bytes⟩
  | none => none

/-- Read the formats one after another; the `i`-th read answers what the selection has at that
    moment. -/
def readPayloads (limit : Nat) (answer : Nat → String → Option Bytes) :
    Nat → List String → List MimePayload
  | _, [] => []
  | i, mime :: rest =>
    match keepRead limit mime (answer i mime) with
    | some p => p :: readPayloads limit answer (i + 1) rest
    | none => readPayloads limit answer (i + 1) rest

/-- Two lists of targets that hold the same names. -/
def sameTargets (a b : List String) : Bool :=
  (a.insertionSort (· ≤ ·)).dedup == (b.insertionSort (· ≤ ·)).dedup

/-- The capture an event becomes when its payloads are these. -/
def ClipboardEvent.capture (event : ClipboardEvent) (payloads : List MimePayload) :
    ClipboardData :=
  ⟨event.selection, payloads, event.offeredMimes, event.sourceApp⟩

/-- Process one clipboard change: what is stored, if anything.  `current` is what the last
    reading of the targets answers. -/
def handleEvent (g : Gate) (event : ClipboardEvent) (answer : Nat → String → Option Bytes)
    (current : Option (List String)) : Option ClipboardData :=
  if g.locked then none
  else if event.selection = .primary && !g.recordPrimary then none
  else if !g.privacyAllows (event.capture []) then none
  else if !g.titleAllows event.sourceTitle then none
  else
    let payloads := readPayloads g.maxMimeBytes answer 0 (wantedOrder event.offeredMimes)
    if payloads = [] then none
    else if current.any (fun c => !sameTargets c event.offeredMimes) then none
    else if evaluateContent g.isHighEntropy g.filters (event.capture payloads) = .allow then
      some (event.capture payloads)
    else none

section Reads

variable {limit : Nat} {answer : Nat → String → Option Bytes} {g : Gate} {event : ClipboardEvent}
  {current : Option (List String)} {data : ClipboardData}

theorem mime_keepRead {mime : String} {bytes : Option Bytes} {p : MimePayload}
    (h : keepRead limit mime bytes = some p) : p.mime = mime := by
  cases bytes with
  | none => exact absurd h (by simp [keepRead])
  | some b =>
    unfold keepRead at h
    dsimp only at h
    split at h
    · cases h
    · rw [← some.inj h]

/-- The payloads stand in the order their formats are read in. -/
theorem readPayloads_sublist (limit : Nat) (answer : Nat → String → Option Bytes)
    (mimes : List String) :
    ∀ i, ((readPayloads limit answer i mimes).map MimePayload.mime).Sublist mimes := by
  induction mimes with
  | nil => exact fun _ => List.Sublist.refl _
  | cons mime rest ih =>
    intro i
    unfold readPayloads
    cases hread : keepRead limit mime (answer i mime) with
    | none => exact (ih (i + 1)).cons mime
    | some p =>
      show (p.mime :: (readPayloads limit answer (i + 1) rest).map MimePayload.mime).Sublist _
      rw [mime_keepRead hread]
      exact (ih (i + 1)).cons_cons mime

theorem captured_readPayloads (event : ClipboardEvent) :
    Captured (event.capture (readPayloads limit answer 0 (wantedOrder event.offeredMimes))) :=
  readPayloads_sublist limit answer _ 0

/-- **What a capture has passed.** -/
theorem handleEvent_eq_some : handleEvent g event answer current = some data ↔
    (g.locked = false ∧ (event.selection = .primary → g.recordPrimary = true) ∧
      g.privacyAllows (event.capture []) = true ∧ g.titleAllows event.sourceTitle = true) ∧
    data = event.capture (readPayloads g.maxMimeBytes answer 0 (wantedOrder event.offeredMimes)) ∧
    data.payloads ≠ [] ∧ (∀ c ∈ current, sameTargets c event.offeredMimes = true) ∧
    evaluateContent g.isHighEntropy g.filters data = .allow := by
  have hfalse : ∀ b : Bool, ¬ (!b) = true ↔ b = true := by simp
  unfold handleEvent
  dsimp only
  generalize readPayloads g.maxMimeBytes answer 0 (wantedOrder event.offeredMimes) = payloads
  constructor
  · intro h
    split at h
    · cases h
    next hlocked =>
    split at h
    · cases h
    next hprimary =>
    split at h
    · cases h
    next hprivacy =>
    split at h
    · cases h
    next htitle =>
    split at h
    · cases h
    next hsome =>
    split at h
    · cases h
    next htargets =>
    split at h
    · next hallow =>
      rw [← some.inj h]
      refine ⟨⟨by simpa using hlocked, fun hsel => ?_, (hfalse _).mp hprivacy,
        (hfalse _).mp htitle⟩, rfl, hsome, fun c hc => ?_, hallow⟩
      · simpa [hsel] using hprimary
      · rw [mem_def.mp hc] at htargets
        simpa using htargets
    · cases h
  · intro h
    obtain ⟨⟨hlocked, hprimary, hprivacy, htitle⟩, hdata, hsome, htargets, hallow⟩ := h
    rw [hdata] at hsome hallow ⊢
    have hsome : payloads ≠ [] := hsome
    rw [if_neg (by simp [hlocked]), if_neg, if_neg (by simp [hprivacy]), if_neg (by simp [htitle]),
      if_neg hsome, if_neg, if_pos hallow]
    · cases current with
      | none => simp
      | some c => simpa using htargets c rfl
    · intro hnot
      simp only [Bool.and_eq_true, decide_eq_true_eq] at hnot
      rw [hprimary hnot.1] at hnot
      exact absurd hnot.2 (by simp)

end Reads

/-! ## §3. Plain text that escapes -/

section Escapes

variable {isHighEntropy : String → Bool} {data : ClipboardData} {p : MimePayload} {t : String}

/-- Filters with one pattern and nothing else. -/
def onlyPattern (pattern : String → Bool) : ContentFilters := ⟨0, false, [pattern], none, false⟩

/-- Where the text that is judged is another one, a pattern for this one lets it through. -/
theorem evaluateContent_onlyPattern (h : (text data).map trim ≠ some t) :
    evaluateContent isHighEntropy (onlyPattern (fun s => s = t)) data = .allow := by
  unfold evaluateContent
  rw [if_neg (by simp [onlyPattern])]
  cases htext : text data with
  | none => rfl
  | some s =>
    rw [htext] at h
    have hne : trim s ≠ t := fun heq => h (by rw [map_some, heq])
    unfold evaluateText onlyPattern
    simp [hne]

/-- A gate that lets everything through but what the content filters catch. -/
def openGate (maxMimeBytes : Nat) (isHighEntropy : String → Bool) (filters : ContentFilters) :
    Gate :=
  ⟨false, true, fun _ => true, fun _ => true, maxMimeBytes, isHighEntropy, filters⟩

/-- **When no plain text escapes.**  Whatever is offered and read, no gate records a capture
    with a plain-text payload it must not record exactly when each such payload either is
    named as `text` spells it, or has the text that is judged. -/
theorem plain_text_judged_iff (maxMimeBytes : Nat) (isHighEntropy : String → Bool)
    (event : ClipboardEvent) (answer : Nat → String → Option Bytes) :
    let payloads := readPayloads maxMimeBytes answer 0 (wantedOrder event.offeredMimes)
    (∀ (g : Gate) (current : Option (List String)), g.maxMimeBytes = maxMimeBytes →
      g.isHighEntropy = isHighEntropy →
      ∀ p ∈ payloads, isPlainText p.mime = true → ∀ t, textOf p = some t →
        g.filters.Catches isHighEntropy (trim t) → handleEvent g event answer current = none)
    ↔ ∀ p ∈ payloads, isPlainText p.mime = true → ∀ t, textOf p = some t →
        p.mime ∈ textMimes ∨ (text (event.capture payloads)).map trim = some (trim t) := by
  intro payloads
  have hcaptured : Captured (event.capture payloads) := captured_readPayloads event
  constructor
  · intro h p hp hplain t ht
    by_contra hnot
    obtain ⟨-, hother⟩ := not_or.mp hnot
    -- a pattern for this very text does not match the one that is judged
    have hallow : evaluateContent isHighEntropy (onlyPattern (fun s => s = trim t))
        (event.capture payloads) = .allow := evaluateContent_onlyPattern hother
    have hrecorded : handleEvent
        (openGate maxMimeBytes isHighEntropy (onlyPattern (fun s => s = trim t))) event answer none
        = some (event.capture payloads) := by
      refine handleEvent_eq_some.mpr ⟨⟨rfl, fun _ => rfl, rfl, rfl⟩, rfl, ?_, by simp, hallow⟩
      exact List.ne_nil_of_mem hp
    have hnone := h (openGate maxMimeBytes isHighEntropy (onlyPattern (fun s => s = trim t))) none
      rfl rfl p hp hplain t ht (Or.inl ⟨_, List.mem_cons_self, by simp⟩)
    rw [hrecorded] at hnone
    cases hnone
  · intro h g current hlimit hentropy p hp hplain t ht hcatches
    have hjudged : (text (event.capture payloads)).map trim = some (trim t) := by
      rcases h p hp hplain t ht with hmime | hsame
      · rw [text_of_exact hcaptured hp (hcaptured.mem_exactPlain hp hmime) ht]
        rfl
      · exact hsame
    have hreject := evaluateContent_of_catches hjudged hcatches
    rw [eq_none_iff_forall_ne_some]
    intro data hdata
    obtain ⟨-, hmade, -, -, hallow⟩ := handleEvent_eq_some.mp hdata
    rw [hmade, hlimit, hentropy] at hallow
    exact hreject hallow

end Escapes

namespace Sample

/-- A change that offers text under a name with capital letters first. -/
def shouted : ClipboardEvent :=
  ⟨.clipboard, ["text/plain;charset=UTF-8", "text/plain"], none, none⟩

/-- A card number, under every name. -/
def cardNumber : Nat → String → Option Bytes := fun _ _ => some (utf8 "4111111111111111")

/-- Secrets are dropped. -/
def dropping : Gate := openGate 100 (fun _ => false) ⟨1, true, [], none, true⟩

/-- `text/plain;charset=UTF-8` is read in place of `text/plain`, and as no text is found under
    that name, a card number is recorded where secrets are dropped. -/
theorem card_number_escapes :
    handleEvent dropping shouted cardNumber (some shouted.offeredMimes)
      = some (shouted.capture [⟨"text/plain;charset=UTF-8", utf8 "4111111111111111"⟩]) ∧
    isPlainText "text/plain;charset=UTF-8" = true ∧
    textOf ⟨"text/plain;charset=UTF-8", utf8 "4111111111111111"⟩ = some "4111111111111111" ∧
    detect (fun _ => false) "4111111111111111" = some .cardNumber := by
  decide +kernel

end Sample

/-! ## §4. Owners that change while they are read -/

section Owners

variable {ω : Type}

/-- Who holds the selection while the `i`-th format is read, and last while the targets are
    read again, and what each owner would answer then. -/
structure Schedule (ω : Type) where
  holder : Nat → ω
  /-- What an owner answers when its targets are read; `none` if that fails. -/
  targets : ω → Option (List String)
  /-- What it answers when the `i`-th format is read. -/
  contents : Nat → ω → String → Option Bytes

/-- The targets are read again after every format. -/
def Schedule.recheck (s : Schedule ω) (event : ClipboardEvent) : Option (List String) :=
  s.targets (s.holder (wantedOrder event.offeredMimes).length)

/-- `handle_event`, each read answered by whoever holds the selection then. -/
def Schedule.handle (s : Schedule ω) (g : Gate) (event : ClipboardEvent) : Option ClipboardData :=
  handleEvent g event (fun i mime => s.contents i (s.holder i) mime) (s.recheck event)

/-- The payloads of a capture come from one owner: each read that gave one was answered by
    `announced`, the owner the event and so the verdict on it are about. -/
def Schedule.OneOwner (s : Schedule ω) (g : Gate) (event : ClipboardEvent) (announced : ω) :
    Prop :=
  ∀ i mime, (wantedOrder event.offeredMimes)[i]? = some mime →
    (keepRead g.maxMimeBytes mime (s.contents i (s.holder i) mime)).isSome = true →
      s.holder i = announced

/-- A read that gives a payload is among the payloads. -/
theorem mem_readPayloads {limit : Nat} {answer : Nat → String → Option Bytes} {p : MimePayload}
    {mime : String} (mimes : List String) : ∀ {i j : Nat}, mimes[j]? = some mime →
      keepRead limit mime (answer (i + j) mime) = some p → p ∈ readPayloads limit answer i mimes := by
  induction mimes with
  | nil =>
    intro i j hj _
    cases hj
  | cons m rest ih =>
    intro i j hj hread
    unfold readPayloads
    cases j with
    | zero =>
      have hm : m = mime := by simpa using hj
      rw [hm, show answer i mime = answer (i + 0) mime from rfl, hread]
      exact List.mem_cons_self
    | succ j =>
      have hj : rest[j]? = some mime := by simpa using hj
      have hnext : keepRead limit mime (answer (i + 1 + j) mime) = some p := by
        rw [show i + 1 + j = i + (j + 1) by omega]
        exact hread
      have hmem := ih hj hnext
      cases keepRead limit m (answer i m) with
      | none => exact hmem
      | some q => exact List.mem_cons_of_mem q hmem

/-- One owner gives one byte for one format, and nothing else is given. -/
def onlyByte [DecidableEq ω] (owner : ω) (mime : String) : Nat → ω → String → Option Bytes :=
  fun _ o m => if o = owner ∧ m = mime then some [0] else none

/-- **When a capture comes from one owner.**  Whatever the owners have and the gate lets
    through, every payload of a capture is from the owner that was announced exactly when that
    one holds the selection through all the reads, or whoever holds it at the end answers with
    other targets. -/
theorem one_owner_iff [DecidableEq ω] (event : ClipboardEvent) (announced : ω)
    (holder : Nat → ω) (targets : ω → Option (List String)) :
    (∀ (g : Gate) (contents : Nat → ω → String → Option Bytes) (data : ClipboardData),
      (⟨holder, targets, contents⟩ : Schedule ω).handle g event = some data →
        (⟨holder, targets, contents⟩ : Schedule ω).OneOwner g event announced)
    ↔ (∀ i < (wantedOrder event.offeredMimes).length, holder i = announced) ∨
      ∃ c, targets (holder (wantedOrder event.offeredMimes).length) = some c ∧
        sameTargets c event.offeredMimes = false := by
  constructor
  · intro h
    by_contra hnot
    obtain ⟨hchange, hsame⟩ := not_or.mp hnot
    push Not at hchange
    obtain ⟨i, hi, hother⟩ := hchange
    -- the owner at the `i`-th read answers it with a byte, and nothing else is answered
    have hmime : (wantedOrder event.offeredMimes)[i]? = some (wantedOrder event.offeredMimes)[i] :=
      List.getElem?_eq_getElem hi
    generalize (wantedOrder event.offeredMimes)[i] = mime at hmime
    let s : Schedule ω := ⟨holder, targets, onlyByte (holder i) mime⟩
    let g : Gate := openGate 1 (fun _ => false) (onlyPattern (fun _ => false))
    let answer : Nat → String → Option Bytes := fun i mime => s.contents i (s.holder i) mime
    have hread : keepRead g.maxMimeBytes mime (answer i mime) = some ⟨mime, [0]⟩ := by
      show keepRead 1 mime (if holder i = holder i ∧ mime = mime then some [0] else none) = _
      rw [if_pos ⟨rfl, rfl⟩]
      rfl
    have hmem : (⟨mime, [0]⟩ : MimePayload)
        ∈ readPayloads 1 answer 0 (wantedOrder event.offeredMimes) := by
      apply mem_readPayloads _ hmime
      rw [Nat.zero_add]
      exact hread
    have hallow : ∀ data, evaluateContent g.isHighEntropy g.filters data = .allow := by
      intro data
      unfold evaluateContent
      rw [if_neg (by simp [g, openGate, onlyPattern])]
      cases text data with
      | none => rfl
      | some t => simp [evaluateText, g, openGate, onlyPattern]
    have hstored : s.handle g event
        = some (event.capture (readPayloads 1 answer 0 (wantedOrder event.offeredMimes))) := by
      refine handleEvent_eq_some.mpr ⟨⟨rfl, fun _ => rfl, rfl, rfl⟩, rfl,
        List.ne_nil_of_mem hmem, fun c hc => ?_, hallow _⟩
      by_contra hdiffer
      exact hsame ⟨c, hc, by simpa using hdiffer⟩
    exact hother (h g _ _ hstored i mime hmime (by rw [hread]; rfl))
  · intro h g contents data hstored i mime hmime hread
    rcases h with hheld | ⟨c, hc, hdiffer⟩
    · obtain ⟨hi, -⟩ := List.getElem?_eq_some_iff.mp hmime
      exact hheld i hi
    · have htargets := (handleEvent_eq_some.mp hstored).2.2.2.1 c hc
      rw [hdiffer] at htargets
      cases htargets

end Owners

namespace Sample

/-- An editor offers text and HTML; a browser with the same two formats takes the selection
    over between the two reads. -/
def overtaken : Schedule Bool :=
  ⟨fun i => decide (1 ≤ i), fun _ => some ["text/plain", "text/html"],
    fun _ browser _ => some (if browser then [98] else [97])⟩

/-- The capture has the text of the one and the HTML of the other. -/
theorem capture_of_two_owners :
    let event : ClipboardEvent :=
      ⟨.clipboard, ["text/plain", "text/html"], some "editor", some "notes"⟩
    overtaken.handle (openGate 100 (fun _ => false) ⟨1, true, [], none, false⟩) event
      = some (event.capture [⟨"text/plain", [97]⟩, ⟨"text/html", [98]⟩]) ∧
    overtaken.holder 0 = false ∧ overtaken.holder 1 = true := by
  decide +kernel

end Sample

end Panora.Panod
