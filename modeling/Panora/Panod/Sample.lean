/-
  Panora.Panod.Sample — a small daemon to run the model on.

  A hash one can compute by hand (the bytes in hex, padded), an engine that breaks
  ties by row id the way SQLite's index does, a privacy gate that lets everything
  through, and a configuration with the source's defaults.
-/
import Panora.Panod.State

namespace Panora.Panod.Sample

open Storage Lib

/-- One hex digit. -/
def hexDigit (n : Fin 16) : Char := "0123456789abcdef".toList.getD n.val '0'

/-- The bytes in hex, cut or padded to 64 digits. -/
def paddedHex (data : Bytes) : List Char :=
  (data.flatMap (fun b => [hexDigit (Fin.ofNat 16 (b.val / 16)), hexDigit (Fin.ofNat 16 b.val)])
    ++ List.replicate 64 '0').take 64

theorem hexDigit_valid :
    ∀ n, ((hexDigit n).isDigit || ('a' ≤ hexDigit n && hexDigit n ≤ 'f')) = true := by
  decide

theorem paddedHex_valid (data : Bytes) : validHash (String.ofList (paddedHex data)) = true := by
  have hlen : (paddedHex data).length = 64 := by simp [paddedHex]
  have hall : (paddedHex data).all (fun c => c.isDigit || ('a' ≤ c && c ≤ 'f')) = true := by
    rw [List.all_eq_true]
    intro c hc
    rcases List.mem_append.mp (List.mem_of_mem_take hc) with h | h
    · obtain ⟨b, -, hb⟩ := List.mem_flatMap.mp h
      simp only [List.mem_cons, List.not_mem_nil, or_false] at hb
      rcases hb with rfl | rfl
      · exact hexDigit_valid _
      · exact hexDigit_valid _
    · rw [(List.mem_replicate.mp h).2]
      decide
  unfold validHash
  rw [String.length_ofList, String.toList_ofList, hlen, hall]
  rfl

/-- A hash to compute with. -/
def hash : Hash where
  contentHash data := String.ofList (paddedHex data)
  contentHash_valid := paddedHex_valid
  fingerprint key := String.ofList ((paddedHex key).take 16)

/-- Newest first; rows seen at one time in the order of their ids. -/
def seenNoEarlier (a b : EntryRow) : Prop := b.cols.lastSeenAt ≤ a.cols.lastSeenAt

instance : DecidableRel seenNoEarlier := fun a b =>
  inferInstanceAs (Decidable (b.cols.lastSeenAt ≤ a.cols.lastSeenAt))

instance : Std.Total seenNoEarlier := ⟨fun a b => le_total b.cols.lastSeenAt a.cols.lastSeenAt⟩

instance : IsTrans EntryRow seenNoEarlier := ⟨fun _ _ _ hab hbc => le_trans hbc hab⟩

def engine : Engine where
  newestFirst l := l.insertionSort seenNoEarlier
  perm l := List.perm_insertionSort seenNoEarlier l
  sorted l := List.pairwise_insertionSort seenNoEarlier l

/-- Everything is plain text, nothing is a secret, and everything is allowed. -/
def content : Content where
  classify _ := .text
  text _ := "note"
  makePreview text _ := text
  detect _ := none
  indexText _ _ := none
  renderThumbnail _ := none
  privacyAllows _ := true
  contentAllowed _ := true

/-- The defaults of the source. -/
def config : Config where
  recordPrimary := false
  maxEntries := 1000
  maxAgeDays := 30
  maxMimeBytes := 10 * 1024 * 1024
  indexFullText := true
  maxTotalBytes := 512 * 1024 * 1024
  maxImages := 200
  duplicatePolicy := .bump
  sensitivePolicy := .mask
  sensitiveTtlMinutes := 10
  syncEnabled := true
  tombstoneDays := 30
  maxEntries_range := by decide
  maxAgeDays_range := by decide
  maxMimeBytes_range := by decide
  maxTotalBytes_range := by decide
  sensitiveTtlMinutes_range := by decide
  tombstoneDays_range := by decide

/-- A day in 2023, on a device called `here`. -/
def env : Env := ⟨hash, content, config, engine, "here", 1700000000⟩

/-- A text copied on a phone, at a Lamport value of the phone. -/
def note (text : Bytes) (lamport : Int) : SyncRecord where
  contentHash := hash.payloadHash [⟨"text/plain", text⟩]
  selection := .clipboard
  sourceApp := none
  createdAt := 1699990000
  lastSeenAt := 1699990000
  pinned := false
  deleted := false
  deviceId := "phone"
  lamport := lamport
  payloads := [⟨"text/plain", text⟩]

/-- A daemon with no history. -/
def fresh : Daemon := ⟨Database.empty, [1], BlobStore.empty, [1]⟩

end Panora.Panod.Sample
