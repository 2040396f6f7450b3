import NoteVault.Calendar.DayRange
import NoteVault.Calendar.Format
import NoteVault.FileRecord
import NoteVault.Pattern.Parser
import NoteVault.Query.Term

/-!
Answering queries: each term narrows what the terms before it have left. A term whose pattern
cannot be read is passed over.
-/

namespace NoteVault.Query

open Calendar Pattern

/-- What a query reads besides the files. -/
structure Context where
  today : Day
  dateFormat : DateFormat
  bookmarks : List String

/-- A test of files. -/
inductive Matcher where
  | all
  | pattern (r : Regex)
  | window (w : Window)
  /-- Days in a range; a malformed range holds no day. -/
  | range (days : Option DayRange)
  | type (filter : TypeFilter)
  | nothing
  | not (matcher : Matcher)

/-- What is shown for a range that is malformed. -/
def malformedRangeLabel : String := "invalid date range"

namespace Matcher

/-- The test that a term asks for; `none` where its pattern cannot be read. -/
def ofTerm? (ctx : Context) : Term → Option Matcher
  | .all => some .all
  | .text source => (Regex.parse? source).map .pattern
  | .exclude term => (ofTerm? ctx term).map .not
  | .window w => some (.window w)
  | .range raw => some (.range (DayRange.parse? raw ctx.today))
  | .type filter => some (.type filter)
  | .unknown _ => some .nothing

/-- What is shown of a test: its range of days. -/
def label : Matcher → String
  | .range (some days) => days.label
  | .range none => malformedRangeLabel
  | .not matcher => matcher.label
  | _ => ""

/-- Whether the day on which a file was modified passes a test; a file without such a day does
not. -/
def onDay (file : FileRecord) (p : Day → Bool) : Bool :=
  ((file.modified.map Int64.toInt).bind dayOfMillis?).any p

/-- The texts of a file in which patterns are sought: name, folder, time, tags and properties. -/
def texts (ctx : Context) (file : FileRecord) : List String :=
  [file.name, file.folder] ++
    ((file.modified.map Int64.toInt).bind ctx.dateFormat.write?).toList ++
    [file.tagText, file.propertiesText]

/-- Whether a file passes a test. -/
def accepts (ctx : Context) (file : FileRecord) : Matcher → Bool
  | .all => true
  | .pattern r => (texts ctx file).any fun text => r.isMatch text.toList
  | .window w => onDay file fun day => w.contains day ctx.today
  | .range (some days) => onDay file days.contains
  | .range none => false
  | .type (.category c) => file.category == c
  | .type .bookmarks => ctx.bookmarks.contains file.path
  | .nothing => false
  | .not matcher => !matcher.accepts ctx file

end Matcher

/-- The files that a query has left, and what is shown of its last term. -/
structure Outcome where
  files : List FileRecord
  label : String

/-- Narrows an outcome by a term. -/
def narrow (ctx : Context) (outcome : Outcome) (term : Term) : Outcome :=
  match Matcher.ofTerm? ctx term with
  | some matcher => ⟨outcome.files.filter fun file => matcher.accepts ctx file, matcher.label⟩
  | none => { outcome with label := "" }

/-- Answers a query: the files of a list that its terms leave. -/
def evaluate (ctx : Context) (terms : List Term) (files : List FileRecord) : Outcome :=
  terms.foldl (narrow ctx) ⟨files, ""⟩

end NoteVault.Query
