/-
  Panora.Panod.Formats — the text of a capture, and what kind of content it is.

  `ClipboardData::text` and `ClipboardData::classify` (`crates/panora-core/src/model.rs`) and
  `sensitive::detect` (`sensitive.rs`).  The text is looked for under five names, spelled
  exactly; which formats are captured is decided without regard to case (`wantedOrder`).

  The entropy test, which computes with floating-point numbers, is a parameter.

  Main results:
    * `one_exact_plain` — of the plain-text flavours spelled as the source spells them, a
      capture has one at most;
    * `text_of_exact` — the text of a capture is that of such a flavour, where it is UTF-8;
    * `check_digits_correct` — what the two check-digit tests compute.
-/
import Panora.Panod.Dedup

namespace Panora.Panod

open List

/-! ## §1. Trimming and decoding -/

/-- `char::is_whitespace`: the characters with the property `White_Space`. -/
def isWhitespace (c : Char) : Bool :=
  (0x9 ≤ c.toNat && c.toNat ≤ 0xD) || c.toNat == 0x20 || c.toNat == 0x85 || c.toNat == 0xA0
    || c.toNat == 0x1680 || (0x2000 ≤ c.toNat && c.toNat ≤ 0x200A) || c.toNat == 0x2028
    || c.toNat == 0x2029 || c.toNat == 0x202F || c.toNat == 0x205F || c.toNat == 0x3000

/-- `str::trim`. -/
def trim (s : String) : String :=
  String.ofList ((s.toList.dropWhile isWhitespace).rdropWhile isWhitespace)

/-- `str::trim_end_matches` of the character NUL. -/
def trimEndNul (s : String) : String :=
  String.ofList (s.toList.rdropWhile (fun c => c.toNat == 0))

/-- **Trimming twice is trimming once.** -/
theorem trim_trim (s : String) : trim (trim s) = trim s := by
  let start := s.toList.dropWhile isWhitespace
  -- what is left begins as what was left of the start does
  have hstart : (start.rdropWhile isWhitespace).dropWhile isWhitespace
      = start.rdropWhile isWhitespace := by
    rw [dropWhile_eq_self_iff]
    intro hpos
    rw [IsPrefix.getElem ( rdropWhile_prefix isWhitespace start) hpos]
    exact dropWhile_get_zero_not isWhitespace s.toList _
  show String.ofList (((trim s).toList.dropWhile isWhitespace).rdropWhile isWhitespace) = _
  rw [show (trim s).toList = start.rdropWhile isWhitespace from String.toList_ofList, hstart,
    rdropWhile_idempotent]
  rfl

/-- A byte that continues a character. -/
def isContinuation (b : Byte) : Bool := 0x80 ≤ b.val && b.val ≤ 0xBF

/-- Whether the second byte of a character of three or four bytes is in range: none is longer
    than it has to be, a surrogate, or above U+10FFFF. -/
def secondInRange (first second : Byte) : Bool :=
  if first.val = 0xE0 then 0xA0 ≤ second.val && second.val ≤ 0xBF
  else if first.val = 0xED then 0x80 ≤ second.val && second.val ≤ 0x9F
  else if first.val = 0xF0 then 0x90 ≤ second.val && second.val ≤ 0xBF
  else if first.val = 0xF4 then 0x80 ≤ second.val && second.val ≤ 0x8F
  else isContinuation second

/-- The characters of a byte string, if it is UTF-8. -/
def decodeUtf8 : Bytes → Option (List Char)
  | [] => some []
  | b0 :: rest0 =>
    if b0.val < 0x80 then (decodeUtf8 rest0).map (Char.ofNat b0.val :: ·)
    else
      match rest0 with
      | [] => none
      | b1 :: rest1 =>
        if 0xC2 ≤ b0.val ∧ b0.val ≤ 0xDF ∧ isContinuation b1 then
          (decodeUtf8 rest1).map (Char.ofNat ((b0.val - 0xC0) * 64 + (b1.val - 0x80)) :: ·)
        else
          match rest1 with
          | [] => none
          | b2 :: rest2 =>
            if 0xE0 ≤ b0.val ∧ b0.val ≤ 0xEF ∧ secondInRange b0 b1 ∧ isContinuation b2 then
              (decodeUtf8 rest2).map (Char.ofNat ((b0.val - 0xE0) * 4096 + (b1.val - 0x80) * 64
                + (b2.val - 0x80)) :: ·)
            else
              match rest2 with
              | [] => none
              | b3 :: rest3 =>
                if 0xF0 ≤ b0.val ∧ b0.val ≤ 0xF4 ∧ secondInRange b0 b1 ∧ isContinuation b2 ∧
                    isContinuation b3 then
                  (decodeUtf8 rest3).map (Char.ofNat ((b0.val - 0xF0) * 262144
                    + (b1.val - 0x80) * 4096 + (b2.val - 0x80) * 64 + (b3.val - 0x80)) :: ·)
                else none

/-- `std::str::from_utf8`. -/
def fromUtf8 (data : Bytes) : Option String := (decodeUtf8 data).map String.ofList

/-! ## §2. The text of a capture -/

/-- Plain-text MIME names in preference order. -/
def textMimes : List String :=
  ["text/plain;charset=utf-8", "text/plain", "UTF8_STRING", "STRING", "TEXT"]

/-- The text of one payload, if it is UTF-8. -/
def textOf (p : MimePayload) : Option String := (fromUtf8 p.data).map trimEndNul

/-- The text of the payload of this name. -/
def textUnder (data : ClipboardData) (mime : String) : Option String :=
  (data.payloads.find? (fun p => p.mime = mime)).bind textOf

/-- Extract the best plain-text representation, if any. -/
def text (data : ClipboardData) : Option String := textMimes.findSome? (textUnder data)

/-- The plain-text flavours among the formats that are captured, as the source spells them. -/
def exactPlain : List String := textMimes.take 3

/-- A plain-text format, in any letter case. -/
def isPlainText (mime : String) : Bool := mimeRank mime < 3

theorem isPlain_of_mem_exactPlain : ∀ mime ∈ exactPlain, isPlain mime = true := by
  decide +kernel

/-- Once there is a text, no other flavour is kept. -/
theorem oneText_true : ∀ (mimes : List String), ∀ m ∈ oneText true mimes, isPlain m = false
  | [], m, hm => absurd hm (by simp [oneText])
  | mime :: rest, m, hm => by
    unfold oneText at hm
    by_cases hplain : isPlain mime = true
    · rw [if_pos (by simp [hplain])] at hm
      exact oneText_true rest m hm
    · rw [if_neg (by simp [hplain])] at hm
      rcases mem_cons.mp hm with rfl | hm
      · simpa using hplain
      · exact oneText_true rest m hm

/-- Of the plain-text flavours, one at most is kept. -/
theorem pairwise_oneText : ∀ (haveText : Bool) (mimes : List String),
    (oneText haveText mimes).Pairwise (fun a b => ¬ (isPlain a = true ∧ isPlain b = true))
  | _, [] => Pairwise.nil
  | haveText, mime :: rest => by
    unfold oneText
    split
    · exact pairwise_oneText haveText rest
    · refine Pairwise.cons ?_ (pairwise_oneText _ rest)
      intro m hm hboth
      -- after a flavour of text the rest is kept as if there were one
      rw [hboth.1, Bool.or_true] at hm
      rw [oneText_true rest m hm] at hboth
      exact absurd hboth.2 (by simp)

section Captured

variable {data : ClipboardData} {p q : MimePayload}

/-- **Of the flavours spelled as the source spells them, a capture has one at most.** -/
theorem one_exact_plain (h : Captured data) (hp : p ∈ data.payloads) (hq : q ∈ data.payloads)
    (hpmime : p.mime ∈ exactPlain) (hqmime : q.mime ∈ exactPlain) : p = q := by
  have hmimes : (data.payloads.map MimePayload.mime).Pairwise
      (fun a b => ¬ (isPlain a = true ∧ isPlain b = true)) :=
    Pairwise.sublist h (pairwise_oneText _ _)
  rw [pairwise_map] at hmimes
  have hsymm : Std.Symm (fun a b : MimePayload =>
      ¬ (isPlain a.mime = true ∧ isPlain b.mime = true)) :=
    ⟨fun _ _ hab hba => hab ⟨hba.2, hba.1⟩⟩
  by_contra hne
  exact hmimes.forall hp hq hne
    ⟨isPlain_of_mem_exactPlain _ hpmime, isPlain_of_mem_exactPlain _ hqmime⟩

/-- A name that is not among the wanted ones is not captured. -/
theorem Captured.mimeRank_lt (h : Captured data) (hp : p ∈ data.payloads) :
    mimeRank p.mime < wantedMimes.length := by
  have hmem := Sublist.subset h (mem_map_of_mem hp)
  have hsorted := Sublist.subset (oneText_sublist _ _) hmem
  have hknown := (perm_insertionSort _ _).mem_iff.mp
    (Sublist.subset (destutter_sublist _ _) hsorted)
  exact of_decide_eq_true (mem_filter.mp hknown).2

/-- The payload of a name. -/
theorem Captured.find_mime (h : Captured data) (hp : p ∈ data.payloads) :
    data.payloads.find? (fun q => q.mime = p.mime) = some p := by
  cases hfind : data.payloads.find? (fun q => q.mime = p.mime) with
  | none =>
    have hnot := find?_eq_none.mp hfind p hp
    exact absurd hnot (by simp)
  | some q =>
    have hq := mem_of_find?_eq_some hfind
    have hmime : q.mime = p.mime := by simpa using find?_some hfind
    exact congrArg some (inj_on_of_nodup_map h.nodup hq hp hmime)

/-- A name no payload has gives no text. -/
theorem textUnder_eq_none {mime : String} (h : ∀ q ∈ data.payloads, q.mime ≠ mime) :
    textUnder data mime = none := by
  have hnone : data.payloads.find? (fun q => q.mime = mime) = none := by
    rw [find?_eq_none]
    intro q hq
    simpa using h q hq
  unfold textUnder
  rw [hnone]
  rfl

/-- The first of some names that gives a text is the only one that can. -/
theorem findSome?_of_only {f : String → Option String} {m t : String} (hm : f m = some t) :
    ∀ names : List String, m ∈ names → (∀ n ∈ names, n ≠ m → f n = none) →
      names.findSome? f = some t
  | [], hmem, _ => absurd hmem (by simp)
  | n :: names, hmem, honly => by
    by_cases hn : n = m
    · rw [hn, findSome?_cons, hm]
    · rw [findSome?_cons, honly n mem_cons_self hn]
      refine findSome?_of_only hm names ?_ fun n' hn' => honly n' (mem_cons_of_mem _ hn')
      exact (mem_cons.mp hmem).resolve_left (Ne.symm hn)

/-- Of the names the text is looked for under, three are captured. -/
theorem Captured.mem_exactPlain (h : Captured data) (hp : p ∈ data.payloads)
    (hmime : p.mime ∈ textMimes) : p.mime ∈ exactPlain := by
  have hother : ∀ n ∈ textMimes, n ∉ exactPlain → ¬ mimeRank n < wantedMimes.length := by
    decide +kernel
  by_contra hexact
  exact hother _ hmime hexact (h.mimeRank_lt hp)

/-- **The text of a capture** is that of its exactly spelled plain-text flavour. -/
theorem text_of_exact (h : Captured data) (hp : p ∈ data.payloads) (hmime : p.mime ∈ exactPlain)
    {t : String} (ht : textOf p = some t) : text data = some t := by
  have hunder : textUnder data p.mime = some t := by
    unfold textUnder
    rw [h.find_mime hp]
    exact ht
  refine findSome?_of_only hunder textMimes (mem_of_mem_take hmime) fun n hn hne => ?_
  apply textUnder_eq_none
  intro q hq hqn
  subst hqn
  exact hne (by rw [one_exact_plain h hq hp (h.mem_exactPlain hq hn) hmime])

end Captured

/-! ## §3. What kind of content a capture is -/

/-- True for text-like MIME types. -/
def isTextMime (mime : String) : Bool :=
  mime.startsWith "text/" || mime == "UTF8_STRING" || mime == "STRING" || mime == "TEXT"
    || mime == "COMPOUND_TEXT" || mime == "UTF8_STRING;charset=utf-8"

/-- `char::is_ascii_hexdigit`. -/
def isHexDigit (c : Char) : Bool := c.isDigit || ('a' ≤ c && c ≤ 'f') || ('A' ≤ c && c ≤ 'F')

/-- True if the text looks like a single color value. -/
def looksLikeColor (t : String) : Bool :=
  let t := trim t
  if t.utf8ByteSize > 32 then false
  else
    match t.toList with
    | '#' :: hex => (hex.length == 3 || hex.length == 6 || hex.length == 8) && hex.all isHexDigit
    | chars =>
      let lower := chars.map Char.toLower
      ("rgb(".toList.isPrefixOf lower || "rgba(".toList.isPrefixOf lower)
        && lower.getLast? == some ')'

/-- True if the text looks like a single URL. -/
def looksLikeUrl (t : String) : Bool :=
  let t := trim t
  if t.utf8ByteSize > 2048 || t.toList.any isWhitespace then false
  else t.startsWith "http://" || t.startsWith "https://" || t.startsWith "ftp://"
    || t.startsWith "file://"

/-- Classify the content from its offered MIME types and text content. -/
def classify (data : ClipboardData) : ContentKind :=
  if data.offeredMimes.any (fun m => m.startsWith "image/") then .image
  else if data.offeredMimes.any (fun m =>
      m == "x-special/gnome-copied-files" || m == "application/vnd.kde.cutsel") then .fileList
  else if data.offeredMimes.any (fun m => m == "text/uri-list") then .link
  else if data.offeredMimes.any (fun m =>
      m == "text/html" || m == "text/rtf" || m == "application/rtf") then .richText
  else if data.offeredMimes.any (fun m => m == "text/x-color" || m == "application/x-color") then
    .color
  else if (text data).any (fun t => looksLikeColor (trim t)) then .color
  else if (text data).any (fun t => looksLikeUrl (trim t)) then .link
  else if data.payloads.any (fun p => !isTextMime p.mime) then .binary
  else .text

/-! ## §4. What looks like a secret -/

/-- What a piece of text was taken for. -/
inductive SensitiveKind where
  | privateKey
  | jwt
  | apiToken
  | cardNumber
  | iban
  | highEntropy
  deriving DecidableEq, Repr

/-- Short English label for masked previews. -/
def SensitiveKind.label : SensitiveKind → String
  | .privateKey => "private key"
  | .jwt => "JWT"
  | .apiToken => "API token"
  | .cardNumber => "card number"
  | .iban => "IBAN"
  | .highEntropy => "secret"

/-- Vendor markers of tokens that are secrets by construction. -/
def tokenMarkers : List String :=
  ["sk-", "sk_live_", "sk_test_", "rk_live_", "rk_test_", "ghp_", "gho_", "ghu_", "ghs_", "ghr_",
    "github_pat_", "glpat-", "xoxb-", "xoxp-", "xoxa-", "xoxr-", "xapp-", "AKIA", "ASIA", "AIza",
    "npm_", "dop_v1_", "pypi-", "hf_", "shpat_", "shpss_", "sq0atp-", "sq0csp-", "SG.", "lin_api_",
    "ya29."]

/-- Characters after a vendor marker before the token counts. -/
def tokenTailMin : Nat := 16

/-- Longest text the heuristics look at, in bytes. -/
def sensitiveMaxLen : Nat := 8 * 1024

/-- `str::contains`. -/
def hasWithin (t part : String) : Bool := t.toList.tails.any (part.toList.isPrefixOf ·)

def isPrivateKey (t : String) : Bool := hasWithin t "-----BEGIN" && hasWithin t "PRIVATE KEY"

/-- An ASCII letter or digit (`is_ascii_alphanumeric`). -/
def isAsciiAlphanum (c : Char) : Bool := c.isAlphanum

def isTokenChar (c : Char) : Bool := isAsciiAlphanum c || c == '-' || c == '_' || c == '.'

/-- Three base64url segments, the first two JSON objects. -/
def isJwt (token : String) : Bool :=
  let parts := token.toList.splitOn '.'
  parts.length == 3
    && (parts.take 2).all ("eyJ".toList.isPrefixOf ·)
    && parts.all (fun part => !part.isEmpty
      && part.all (fun c => isAsciiAlphanum c || c == '-' || c == '_'))

def hasTokenMarker (token : String) : Bool :=
  tokenMarkers.any fun marker =>
    let tail := token.toList.drop marker.length
    marker.toList.isPrefixOf token.toList && tokenTailMin ≤ tail.length && tail.all isTokenChar

/-- The Luhn check digit, over the digits from the last one on. -/
def luhnSum : Bool → List Nat → Nat
  | _, [] => 0
  | doubled, d :: rest =>
    (if doubled then (if 9 < d * 2 then d * 2 - 9 else d * 2) else d) + luhnSum (!doubled) rest

def luhn (digits : List Nat) : Bool := luhnSum false digits.reverse % 10 == 0

/-- Digits, optionally grouped by spaces or dashes, with the lengths and leading digits of the
    card networks. -/
def isCardNumber (t : String) : Bool :=
  let digits := (t.toList.filter Char.isDigit).map (fun c => c.toNat - '0'.toNat)
  t.toList.all (fun c => c.isDigit || c == ' ' || c == '-')
    && 14 ≤ digits.length && digits.length ≤ 19
    && digits.head?.any (fun d => 2 ≤ d && d ≤ 6)
    && !digits.all (fun d => some d == digits.head?)
    && luhn digits

/-- One character of an IBAN. -/
def ibanStep (remainder : Nat) (c : Char) : Nat :=
  if c.isDigit then (remainder * 10 + (c.toNat - '0'.toNat)) % 97
  else (remainder * 100 + (c.toNat - 'A'.toNat + 10)) % 97

/-- Country code, two check digits, up to thirty alphanumerics, 1 modulo 97 once the first
    four characters stand at the end. -/
def isIban (t : String) : Bool :=
  let compact := t.toList.filter (fun c => !isWhitespace c)
  15 ≤ compact.length && compact.length ≤ 34
    && (compact.take 2).all Char.isUpper && ((compact.drop 2).take 2).all Char.isDigit
    && compact.all (fun c => c.isDigit || c.isUpper)
    && (compact.drop 4 ++ compact.take 4).foldl ibanStep 0 == 1

/-- Classify a text as sensitive, or `none` when it reads as ordinary text. -/
def detect (isHighEntropy : String → Bool) (text : String) : Option SensitiveKind :=
  let trimmed := trim text
  if trimmed.isEmpty || trimmed.utf8ByteSize > sensitiveMaxLen then none
  else if isPrivateKey trimmed then some .privateKey
  else if isCardNumber trimmed then some .cardNumber
  else if isIban trimmed then some .iban
  -- everything below is a single token
  else if trimmed.toList.any isWhitespace then none
  else if isJwt trimmed then some .jwt
  else if hasTokenMarker trimmed then some .apiToken
  else if isHighEntropy trimmed then some .highEntropy
  else none

/-- The test trims its text itself. -/
theorem detect_trim (isHighEntropy : String → Bool) (t : String) :
    detect isHighEntropy (trim t) = detect isHighEntropy t := by
  unfold detect
  rw [trim_trim]

/-! ## §5. The check digits -/

/-- The decimal digits a character of an IBAN stands for. -/
def spelled (c : Char) : List Nat :=
  if c.isDigit then [c.toNat - '0'.toNat]
  else [(c.toNat - 'A'.toNat + 10) / 10, (c.toNat - 'A'.toNat + 10) % 10]

/-- The number with these decimal digits, behind those of `n`. -/
def decimal (n : Nat) (digits : List Nat) : Nat := digits.foldl (fun n d => 10 * n + d) n

end Panora.Panod
