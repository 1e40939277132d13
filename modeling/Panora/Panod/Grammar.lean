/-
  Panora.Panod.Grammar — the search grammar, and the entries of an application.

  `search::parse` (`crates/panora-core/src/search.rs`), with the condition `Database::query` makes
  of `app:`.  The name asked for is lowercased by `str::to_lowercase`, once by the parser and once
  more by the query; the stored name is lowercased by SQLite, which knows the ASCII letters only.

  `str::to_lowercase` and the reading of times (`parse_time`) are parameters (`Grammar`).

  Main results:
    * `app_search_finds_iff` — which entries a search for `app:"…"` finds;
    * `search_string_safe` — what any search string becomes.
-/
import Panora.Lib.Slice
import Panora.Lib.Unicode
import Panora.Panod.Formats
import Panora.Storage.Search

namespace Panora.Panod

open Storage Lib List

/-! ## §1. Tokens -/

/-- What the parser is built on: `str::to_lowercase` and `parse_time`. -/
structure Grammar where
  lowercase : List Char → List Char
  parseTime : List Char → Int → Option Int

inductive Token where
  | word (text : List Char)
  | phrase (text : List Char)

/-- A word up to the first blank outside quotes, and what follows it. -/
def splitWord : Bool → List Char → List Char × List Char
  | _, [] => ([], [])
  | inQuotes, c :: s =>
    if c = '"' then (splitWord (!inQuotes) s).map (c :: ·) id
    else if isWhitespace c && !inQuotes then ([], c :: s)
    else (splitWord inQuotes s).map (c :: ·) id

/-- The next token: a quoted phrase, or a word that may carry a quoted operator value. -/
def nextToken : List Char → Token × List Char
  | '"' :: inner => (.phrase (inner.takeWhile (· ≠ '"')), (inner.dropWhile (· ≠ '"')).tail)
  | s => (splitWord false s).map .word id

/-- `str::trim_matches` of the quote. -/
def trimQuotes (s : List Char) : List Char := (s.dropWhile (· = '"')).rdropWhile (· = '"')

/-! ## §2. Operators -/

/-- `str::to_ascii_lowercase`. -/
def asciiLowercase (s : List Char) : String := String.ofList (s.map Char.toLower)

def kindAlias (value : List Char) : Option ContentKind :=
  match asciiLowercase value with
  | "text" | "txt" | "plain" => some .text
  | "richtext" | "rich" | "html" | "rtf" => some .richText
  | "link" | "links" | "url" | "urls" => some .link
  | "image" | "images" | "img" | "picture" | "pictures" => some .image
  | "file" | "files" => some .fileList
  | "color" | "colour" | "colors" | "colours" => some .color
  | "binary" | "bin" => some .binary
  | _ => none

variable (g : Grammar) (now : Int)

/-- The query with an operator applied, if it is one and its value is readable. -/
def applyOperator (q : ParsedQuery) (key value : List Char) : Option ParsedQuery :=
  match asciiLowercase key with
  | "kind" | "type" => (kindAlias value).map (fun kind => { q with kind := some kind })
  | "app" | "source" =>
    if value = [] then none
    else some { q with app := some (String.ofList (g.lowercase value)) }
  | "pinned" | "pin" =>
    match asciiLowercase value with
    | "yes" | "true" | "1" | "on" => some { q with pinned := some true }
    | "no" | "false" | "0" | "off" => some { q with pinned := some false }
    | _ => none
  | "is" =>
    match asciiLowercase value with
    | "pinned" => some { q with pinned := some true }
    | "unpinned" => some { q with pinned := some false }
    | _ => none
  | "before" => (g.parseTime value now).map (fun ts => { q with before := some ts })
  | "after" | "since" => (g.parseTime value now).map (fun ts => { q with after := some ts })
  | _ => none

/-- An operator, where the word has a colon and is one; else a term. -/
def readWord (q : ParsedQuery) (word : List Char) : ParsedQuery :=
  let operator := if ':' ∈ word then
      applyOperator g now q (word.takeWhile (· ≠ ':')) (trimQuotes (word.dropWhile (· ≠ ':')).tail)
    else none
  operator.getD (if trimQuotes word = [] then q
    else { q with terms := q.terms ++ [String.ofList (trimQuotes word)] })

def readToken (q : ParsedQuery) : Token → ParsedQuery
  | .phrase text =>
    let phrase := trim (String.ofList text)
    if phrase = "" then q else { q with phrases := q.phrases ++ [phrase] }
  | .word text => readWord g now q text

/-! ## §3. The parser -/

/-- The loop of `parse`: `re:` takes everything that follows. -/
def parseRest : Nat → ParsedQuery → List Char → ParsedQuery
  | 0, q, _ => q
  | fuel + 1, q, rest =>
    if rest = [] then q
    else if "re:".toList.isPrefixOf rest then
      let pattern := trim (String.ofList (rest.drop 3))
      if pattern = "" then q else { q with regex := some pattern }
    else
      parseRest fuel (readToken g now q (nextToken rest).1)
        ((nextToken rest).2.dropWhile isWhitespace)

/-- The query that asks for nothing. -/
def emptyQuery : ParsedQuery := ⟨[], [], none, none, none, none, none, none⟩

/-- Parse a search string.  A round takes one character at least, so there are enough of them. -/
def parse (input : String) : ParsedQuery :=
  parseRest g now (trim input).length emptyQuery (trim input).toList

/-! ## §4. The entries of an application -/

/-- The condition `instr(LOWER(source_app), app.to_lowercase()) > 0`. -/
def inSqlite (t : TextEngine) : TextEngine :=
  { t with contains := fun name app =>
      decide (g.lowercase app.toList <:+: name.toList.map Char.toLower) }

/-- A query by search string alone. -/
def searching (input : String) : QueryFilter :=
  ⟨parse g now input, none, none, none, none, none, false⟩

/-- The text `app:"s"`. -/
def appSearch (s : List Char) : List Char := 'a' :: 'p' :: 'p' :: ':' :: '"' :: (s ++ ['"'])

variable {s : List Char}

/-- Inside quotes a word goes on to the quote that ends them. -/
theorem splitWord_quoted (h : '"' ∉ s) : splitWord true (s ++ ['"']) = (s ++ ['"'], []) := by
  induction s with
  | nil => rfl
  | cons c s ih =>
    obtain ⟨hc, hs⟩ := ne_and_not_mem_of_not_mem_cons h
    rw [cons_append, splitWord, if_neg hc.symm, Bool.not_true, Bool.and_false,
      if_neg Bool.false_ne_true, ih hs]
    rfl

theorem nextToken_appSearch (h : '"' ∉ s) : nextToken (appSearch s) = (.word (appSearch s), []) := by
  have hletters : nextToken (appSearch s) =
      ((splitWord true (s ++ ['"'])).map (['a', 'p', 'p', ':', '"'] ++ ·) id).map .word id := rfl
  rw [hletters, splitWord_quoted h]
  rfl

theorem trimQuotes_quoted (h : '"' ∉ s) : trimQuotes ('"' :: (s ++ ['"'])) = s := by
  have hfront : ('"' :: (s ++ ['"'])).dropWhile (· = '"') = (s ++ ['"']).dropWhile (· = '"') := rfl
  unfold trimQuotes
  rw [hfront]
  cases s with
  | nil => rfl
  | cons c s =>
    obtain ⟨hc, hs⟩ := ne_and_not_mem_of_not_mem_cons h
    rw [cons_append, dropWhile_cons_of_neg (by simpa using hc.symm),
      ← cons_append, rdropWhile_concat_pos _ _ _ (by decide),
      rdropWhile_eq_self_iff.mpr]
    intro hne hlast
    have hmem := getLast_mem hne
    rw [of_decide_eq_true hlast] at hmem
    exact h hmem

theorem trim_appSearch : trim (String.ofList (appSearch s)) = String.ofList (appSearch s) := by
  have hfront : (appSearch s).dropWhile isWhitespace = appSearch s := rfl
  have hback : (appSearch s).rdropWhile isWhitespace = appSearch s :=
    rdropWhile_concat_neg (p := isWhitespace) ('a' :: 'p' :: 'p' :: ':' :: '"' :: s) '"'
      (by decide)
  unfold trim
  rw [String.toList_ofList, hfront, hback]

/-- A search for `app:"s"` asks for the application and nothing else. -/
theorem parse_appSearch (hne : s ≠ []) (h : '"' ∉ s) :
    parse g now (String.ofList (appSearch s)) =
      { emptyQuery with app := some (String.ofList (g.lowercase s)) } := by
  have hoperator : applyOperator g now emptyQuery ['a', 'p', 'p'] s =
      some { emptyQuery with app := some (String.ofList (g.lowercase s)) } := by
    have hkey : asciiLowercase ['a', 'p', 'p'] = "app" := by decide
    simp only [applyOperator, hkey, if_neg hne]
  have hword : readWord g now emptyQuery (appSearch s) =
      { emptyQuery with app := some (String.ofList (g.lowercase s)) } := by
    have hkey : (appSearch s).takeWhile (· ≠ ':') = ['a', 'p', 'p'] := rfl
    have hvalue : ((appSearch s).dropWhile (· ≠ ':')).tail = '"' :: (s ++ ['"']) := rfl
    have hcolon : ':' ∈ appSearch s := by simp [appSearch]
    simp only [readWord]
    rw [if_pos hcolon, hkey, hvalue, trimQuotes_quoted h, hoperator, Option.getD_some]
  have hlength : (String.ofList (appSearch s)).length = s.length + 6 := by
    simp only [String.length_ofList, appSearch, length_cons, length_append,
      length_nil]
  have hregex : "re:".toList.isPrefixOf (appSearch s) = false := rfl
  unfold parse
  rw [trim_appSearch, hlength, String.toList_ofList, parseRest, if_neg (by simp [appSearch]),
    hregex, if_neg Bool.false_ne_true, nextToken_appSearch h, readToken, hword]
  rfl

/-- A search for `app:"s"` finds a live entry of an application exactly if the name, its ASCII
    letters lowercased, contains `s` lowercased. -/
theorem app_search_finds_iff (t : TextEngine) {db : Database} {cipher : Key} {id : Nat}
    {r : EntryRow} {name : String} (hget : db.entries.get id = some r)
    (hlive : r.cols.deleted = false) (hname : r.cols.sourceApp = some name) (hne : s ≠ [])
    (hquote : '"' ∉ s) :
    db.finds cipher (inSqlite g t) (searching g now (String.ofList (appSearch s))) id = true ↔
      g.lowercase (g.lowercase s) <:+: name.toList.map Char.toLower := by
  have happ : (inSqlite g t).contains name (String.ofList (g.lowercase s)) = true ↔
      g.lowercase (g.lowercase s) <:+: name.toList.map Char.toLower := by
    simp [inSqlite]
  rw [← happ]
  simp [Database.finds, hget, searching, parse_appSearch g now hne hquote, emptyQuery,
    QueryFilter.matchesEntry, QueryFilter.matchesText, QueryFilter.matchesRegex,
    QueryFilter.matchesPin, ParsedQuery.words, ParsedQuery.quoted, Database.rowToEntry, hlive, hname]

namespace Sample

/-- A reader of searches that knows no times. -/
def reader : Grammar := ⟨Unicode.basic.lower, fun _ _ => none⟩

/-- A database that holds a text copied in the application of this name. -/
def copiedIn (name : String) : Database :=
  (Database.empty.upsertEntry [1] ⟨⟨String.ofList (replicate 64 '0'), .clipboard⟩, "text", .text,
    "text/plain", 4, some name, 0, "here", 1, true⟩).2

/-- An engine that matches no words. -/
def noWords : TextEngine := ⟨fun _ _ _ _ => false, fun _ => none, fun _ _ => false⟩

/-- SQLite leaves the first letter of the name `İstanbul` as it is, and `İ` is lowercased to an i
    and a dot. -/
theorem own_name_not_found :
    ['İ'] <:+: "İstanbul".toList ∧
      (copiedIn "İstanbul").finds [1] (inSqlite reader noWords)
        (searching reader 0 (String.ofList (appSearch ['İ']))) 1 = false := by
  decide +kernel

theorem app_search_finds_iff_editor :
    (copiedIn "Text Editor").finds [1] (inSqlite reader noWords)
      (searching reader 0 (String.ofList (appSearch "tEXT e".toList))) 1 = true := by
  have hrow : ((copiedIn "Text Editor").entries.get 1).isSome = true := by decide +kernel
  obtain ⟨r, hr⟩ := Option.isSome_iff_exists.mp hrow
  have hcols : ((copiedIn "Text Editor").entries.get 1).all
      (fun r => !r.cols.deleted && r.cols.sourceApp = some "Text Editor") = true := by
    decide +kernel
  rw [hr, Option.all_some, Bool.and_eq_true, Bool.not_eq_true', decide_eq_true_eq] at hcols
  exact (app_search_finds_iff reader 0 noWords hr hcols.1 hcols.2 (by decide +kernel)
    (by decide +kernel)).mpr (by decide +kernel)

end Sample

/-! ## §5. What the parser cuts out, and the `MATCH` expression -/

/-- `str::find` of the quote: the offset it is at, from `i` on. -/
def findQuote : Nat → List Char → Option Nat
  | _, [] => none
  | i, c :: s => if c = '"' then some i else findQuote (i + c.utf8Size) s

/-- The offset a word ends at. -/
def wordEnd : Bool → Nat → List Char → Nat
  | _, i, [] => i
  | inQuotes, i, c :: s =>
    if c = '"' then wordEnd (!inQuotes) (i + c.utf8Size) s
    else if isWhitespace c && !inQuotes then i
    else wordEnd inQuotes (i + c.utf8Size) s

/-- `next_token`, with its slices. -/
def slicedToken : List Char → Option (Token × List Char)
  | '"' :: inner =>
    match findQuote 0 inner with
    | some i => do
      let (phrase, _) ← splitAtByte i inner
      let (_, rest) ← splitAtByte (i + 1) inner
      some (.phrase phrase, rest)
    | none => some (.phrase inner, [])
  | s => (splitAtByte (wordEnd false 0 s) s).map (fun p => (.word p.1, p.2))

/-- The phrase before the first quote, and what follows it. -/
theorem findQuote_cases (i : Nat) (s : List Char) :
    (findQuote i s = none ∧ s.takeWhile (· ≠ '"') = s ∧ s.dropWhile (· ≠ '"') = []) ∨
      ∃ rest, s.dropWhile (· ≠ '"') = '"' :: rest ∧
        findQuote i s = some (i + byteLength (s.takeWhile (· ≠ '"'))) := by
  induction s generalizing i with
  | nil => exact .inl ⟨rfl, rfl, rfl⟩
  | cons c s ih =>
    rw [findQuote]
    by_cases hc : c = '"'
    · rw [if_pos hc, dropWhile_cons_of_neg (by simpa using hc),
        takeWhile_cons_of_neg (by simpa using hc)]
      exact .inr ⟨s, by rw [hc], rfl⟩
    · rw [if_neg hc, dropWhile_cons_of_pos (by simpa using hc),
        takeWhile_cons_of_pos (by simpa using hc), byteLength_cons, ← Nat.add_assoc]
      exact (ih (i + c.utf8Size)).imp_left fun ⟨hnone, htake, hdrop⟩ =>
        ⟨hnone, congrArg (c :: ·) htake, hdrop⟩

theorem nextToken_word {s : List Char} (h : ∀ inner, s ≠ '"' :: inner) :
    nextToken s = (splitWord false s).map .word id := by
  unfold nextToken
  split
  next inner => exact absurd rfl (h inner)
  next => rfl

/-- A word is cut off where its end was found. -/
theorem wordEnd_eq (inQuotes : Bool) (i : Nat) (s : List Char) :
    wordEnd inQuotes i s = i + byteLength (splitWord inQuotes s).1 ∧
      (splitWord inQuotes s).1 ++ (splitWord inQuotes s).2 = s := by
  induction s generalizing inQuotes i with
  | nil => exact ⟨rfl, rfl⟩
  | cons c s ih =>
    rw [wordEnd, splitWord]
    split
    · obtain ⟨hend, hs⟩ := ih (!inQuotes) (i + c.utf8Size)
      exact ⟨by rw [hend, Nat.add_assoc]; rfl, congrArg (c :: ·) hs⟩
    split
    · exact ⟨rfl, rfl⟩
    · obtain ⟨hend, hs⟩ := ih inQuotes (i + c.utf8Size)
      exact ⟨by rw [hend, Nat.add_assoc]; rfl, congrArg (c :: ·) hs⟩

/-- **Every slice is on a character boundary**, and takes what `nextToken` says. -/
theorem slicedToken_eq (s : List Char) : slicedToken s = some (nextToken s) := by
  unfold slicedToken
  split
  next inner =>
    rw [nextToken]
    rcases findQuote_cases 0 inner with ⟨hnone, htake, hdrop⟩ | ⟨rest, hdrop, hfind⟩
    · rw [hnone, htake, hdrop]
      rfl
    · have hs : inner.takeWhile (· ≠ '"') ++ '"' :: rest = inner := by
        rw [← hdrop, takeWhile_append_dropWhile]
      -- the quote that ends the phrase is one byte
      have hquote : byteLength (inner.takeWhile (· ≠ '"') ++ ['"'])
          = 0 + byteLength (inner.takeWhile (· ≠ '"')) + 1 := by
        rw [byteLength_append, Nat.zero_add]
        rfl
      have hrest := splitAtByte_append (inner.takeWhile (· ≠ '"') ++ ['"']) rest
      rw [hquote, append_assoc, singleton_append, hs] at hrest
      have hphrase := splitAtByte_append (inner.takeWhile (· ≠ '"')) ('"' :: rest)
      rw [← Nat.zero_add (byteLength _), hs] at hphrase
      rw [hfind, hdrop]
      simp only [hphrase, hrest, Option.bind_eq_bind, Option.bind_some, tail_cons]
  next hword =>
    obtain ⟨hend, hs⟩ := wordEnd_eq false 0 s
    have hcut := splitAtByte_append (splitWord false s).1 (splitWord false s).2
    rw [hs, ← Nat.zero_add (byteLength _), ← hend] at hcut
    rw [hcut, nextToken_word hword]
    rfl

/-- A round of the loop leaves less than there was. -/
theorem length_nextToken_lt {c : Char} {s : List Char} (hc : isWhitespace c = false) :
    (nextToken (c :: s)).2.length < (c :: s).length := by
  have hword : ∀ inQuotes, (splitWord inQuotes s).2.length ≤ s.length := by
    intro inQuotes
    have hsplit := congrArg length (wordEnd_eq inQuotes 0 s).2
    rw [length_append] at hsplit
    omega
  by_cases hquote : c = '"'
  · have hdrop := s.length_dropWhile_le (· ≠ '"')
    rw [hquote]
    show (s.dropWhile (· ≠ '"')).tail.length < s.length + 1
    rw [length_tail]
    omega
  · rw [nextToken_word (by simp [hquote]), splitWord, if_neg hquote, hc]
    exact Nat.lt_succ_of_le (hword false)

/-- **The rounds are enough**: more of them read the same. -/
theorem parseRest_eq_of_le {rest : List Char} (hstart : ∀ c ∈ rest.head?, isWhitespace c = false)
    (n m : Nat) (q : ParsedQuery) (hn : rest.length ≤ n) (hm : rest.length ≤ m) :
    parseRest g now n q rest = parseRest g now m q rest := by
  induction n generalizing m q rest with
  | zero =>
    rw [length_eq_zero_iff.mp (Nat.le_zero.mp hn)]
    cases m <;> rfl
  | succ n ih =>
    cases rest with
    | nil => cases m <;> rfl
    | cons c s =>
      obtain ⟨m, rfl⟩ := Nat.exists_eq_add_of_le' (Nat.le_trans (Nat.succ_pos s.length) hm)
      have hless := length_nextToken_lt (s := s) (hstart c rfl)
      have hblank := (nextToken (c :: s)).2.length_dropWhile_le isWhitespace
      rw [parseRest, parseRest]
      split
      · rfl
      split
      · rfl
      · refine ih ?_ m _ (by omega) (by omega)
        intro c' hc'
        have hhead := head?_dropWhile_not isWhitespace (nextToken (c :: s)).2
        rw [hc'] at hhead
        exact hhead

theorem head_trim (input : String) : ∀ c ∈ (trim input).toList.head?, isWhitespace c = false := by
  intro c hc
  unfold trim at hc
  rw [String.toList_ofList] at hc
  obtain ⟨back, hback⟩ :=
    rdropWhile_prefix isWhitespace (input.toList.dropWhile isWhitespace)
  have hhead := head?_dropWhile_not isWhitespace input.toList
  rw [← hback, head?_append, hc] at hhead
  exact hhead

/-- The FTS5 `MATCH` expression for the words and phrases, if any. -/
def ftsExpression (q : ParsedQuery) : Option String :=
  let parts := q.words.map (fun term => "\"" ++ term ++ "\"*")
    ++ q.quoted.map (fun phrase => "\"" ++ phrase ++ "\"")
  if parts = [] then none else some (" ".intercalate parts)

/-- A quoted string, perhaps with a star behind it. -/
def Quoted (item : String) : Prop :=
  ∃ inside : String, '"' ∉ inside.toList ∧ '\x00' ∉ inside.toList ∧
    (item = "\"" ++ inside ++ "\"*" ∨ item = "\"" ++ inside ++ "\"")

theorem not_mem_unquoted (text : String) :
    '"' ∉ (unquoted text).toList ∧ '\x00' ∉ (unquoted text).toList := by
  unfold unquoted
  rw [String.toList_ofList]
  simp

/-- **No search string breaks the query.**  The loop ends: however many rounds it is given, it
    reads the same.  Its slices are on character boundaries.  What it makes of the text for
    FTS5 is a list of quoted strings, so that nothing in it is an operator. -/
theorem search_string_safe (input : String) :
    (∀ n, (trim input).length ≤ n →
      parseRest g now n emptyQuery (trim input).toList = parse g now input) ∧
    (∀ s, slicedToken s = some (nextToken s)) ∧
    ∀ expression, ftsExpression (parse g now input) = some expression →
      ∃ items : List String, items ≠ [] ∧ items.length ≤ 24 ∧ (∀ item ∈ items, Quoted item) ∧
        expression = " ".intercalate items := by
  refine ⟨fun n hn => ?_, slicedToken_eq, fun expression h => ?_⟩
  · have hlength : (trim input).toList.length = (trim input).length := String.length_toList
    exact parseRest_eq_of_le g now (head_trim input) n _ emptyQuery (by omega) (by omega)
  · unfold ftsExpression at h
    dsimp only at h
    split at h
    · cases h
    next hne =>
      refine ⟨_, hne, ?_, ?_, (Option.some.inj h).symm⟩
      · simp only [ParsedQuery.words, ParsedQuery.quoted, length_append, length_map,
          length_take, maxTerms, maxPhrases]
        omega
      · intro item hitem
        simp only [ParsedQuery.words, ParsedQuery.quoted, map_map, mem_append,
          mem_map, Function.comp_apply] at hitem
        rcases hitem with ⟨term, -, rfl⟩ | ⟨phrase, -, rfl⟩
        · exact ⟨_, (not_mem_unquoted term).1, (not_mem_unquoted term).2, .inl rfl⟩
        · exact ⟨_, (not_mem_unquoted phrase).1, (not_mem_unquoted phrase).2, .inr rfl⟩

end Panora.Panod
