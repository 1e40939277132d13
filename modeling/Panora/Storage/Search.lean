/-
  Panora.Storage.Search — which entries a search finds.

  `Database::query` and `ParsedQuery::fts_expression` of `crates/panora-core/src`.  Words and
  phrases are looked up in the index, a regular expression is run over the preview and the
  indexed text, and everything else is a condition on the row.  What SQLite's full-text index
  and the regular expressions match is a parameter (`TextEngine`).  How many entries a page
  shows is left out: a search finds an entry here when it matches it.
-/
import Panora.Storage.Index

namespace Panora.Storage

/-- What SQLite and the regular expressions answer. -/
structure TextEngine where
  /-- Whether a row of the index matches every word, as the start of one, and every phrase. -/
  matchesRow : List String → List String → String → Option String → Bool
  /-- A regular expression, if it compiles. -/
  compile : String → Option (String → Bool)
  /-- Whether an application's name contains this, but for case. -/
  contains : String → String → Bool

/-- What a search string asks for. -/
structure ParsedQuery where
  terms : List String
  phrases : List String
  kind : Option ContentKind
  app : Option String
  pinned : Option Bool
  before : Option Int
  after : Option Int
  regex : Option String

/-- A query, its search string parsed. -/
structure QueryFilter where
  parsed : ParsedQuery
  kind : Option ContentKind
  app : Option String
  before : Option Int
  after : Option Int
  regex : Option String
  pinnedOnly : Bool

/-- How many words and phrases are looked up. -/
def maxTerms : Nat := 16

def maxPhrases : Nat := 8

/-- A word or phrase without what would end its quotes. -/
def unquoted (text : String) : String :=
  String.ofList (text.toList.filter (fun c => c ≠ '"' ∧ c ≠ '\x00'))

/-- The words of the `MATCH` expression. -/
def ParsedQuery.words (q : ParsedQuery) : List String := (q.terms.take maxTerms).map unquoted

/-- The phrases of the `MATCH` expression. -/
def ParsedQuery.quoted (q : ParsedQuery) : List String := (q.phrases.take maxPhrases).map unquoted

namespace QueryFilter

/-- Whether a row of the index matches the words and phrases, where there are any. -/
def matchesText (t : TextEngine) (q : QueryFilter) (fts : List FtsRow) : Bool :=
  if q.parsed.words = [] ∧ q.parsed.quoted = [] then true
  else fts.any (fun f => t.matchesRow q.parsed.words q.parsed.quoted f.preview f.content)

/-- Whether the preview or the indexed text matches the regular expression, where there is one;
    one that does not compile matches nothing. -/
def matchesRegex (t : TextEngine) (q : QueryFilter) (preview : String) (fts : List FtsRow) :
    Bool :=
  match q.regex.or q.parsed.regex with
  | none => true
  | some pattern =>
    match t.compile pattern with
    | none => false
    | some isMatch => isMatch preview || fts.any (fun f => f.content.any isMatch)

/-- Whether the pin flag is the one asked for. -/
def matchesPin (q : QueryFilter) (pinned : Bool) : Bool :=
  if q.pinnedOnly ∨ q.parsed.pinned = some true then pinned
  else if q.parsed.pinned = some false then !pinned
  else true

/-- Whether the query matches an entry with these rows of the index. -/
def matchesEntry (t : TextEngine) (q : QueryFilter) (e : Entry) (fts : List FtsRow) : Bool :=
  !e.deleted && q.matchesText t fts && q.matchesRegex t e.preview fts && q.matchesPin e.pinned &&
    (q.kind.or q.parsed.kind).all (fun kind => e.kind = kind) &&
    (q.app.or q.parsed.app).all (fun app => t.contains (e.sourceApp.getD "") app) &&
    (q.before.or q.parsed.before).all (fun time => e.lastSeenAt < time) &&
    (q.after.or q.parsed.after).all (fun time => time ≤ e.lastSeenAt)

end QueryFilter

namespace Database

/-- Whether a query finds the entry with this id. -/
def finds (db : Database) (cipher : Key) (t : TextEngine) (q : QueryFilter) (id : Nat) : Bool :=
  match db.entries.get id with
  | some r => q.matchesEntry t (rowToEntry cipher r) (db.ftsAt id)
  | none => false

end Database

end Panora.Storage
