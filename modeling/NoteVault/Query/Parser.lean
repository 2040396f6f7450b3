import NoteVault.Query.Term
import NoteVault.Query.Token
import NoteVault.Unicode.Lowercase

/-!
Reading queries: each token is a term.
-/

namespace NoteVault.Query

open Text Unicode Calendar

/-- The text between a quote at the beginning and the same quote at the end. -/
def betweenQuotes? (token : List Char) : Option (List Char) :=
  ['\x22', '\x27'].findSome? fun q => (stripPrefix? [q] token).bind (stripSuffix? [q])

/-- The text in the parentheses of a word that asks for a range of days. -/
def rangeText? (word : List Char) : Option (List Char) :=
  ["d(", "date("].findSome? fun opening =>
    (stripPrefix? opening.toList word).bind (stripSuffix? [')'])

/-- The kind of files that a word names. -/
def typeNamed? (word : String) : Option TypeFilter :=
  match word with
  | "n" | "notes" => some (.category .notes)
  | "i" | "images" => some (.category .images)
  | "c" | "canvas" | "canvases" => some (.category .canvas)
  | "a" | "audio" | "audios" => some (.category .audio)
  | "v" | "video" | "videos" => some (.category .video)
  | "p" | "pdf" | "pdfs" => some (.category .pdf)
  | "o" | "other" | "others" => some (.category .other)
  | "bb" | "bases" => some (.category .bases)
  | "bm" | "bookmarks" => some .bookmarks
  | _ => none

/-- The term that a word behind an at sign writes, in lower case. -/
def keywordTerm (word : List Char) : Term :=
  match rangeText? word with
  | some raw => .range (String.ofList raw)
  | none =>
    match Window.named? (String.ofList word) with
    | some w => .window w
    | none =>
      match typeNamed? (String.ofList word) with
      | some filter => .type filter
      | none => .unknown (String.ofList word)

/-- The term of a token without exclamation marks in front. -/
def plainTerm (token : List Char) : Term :=
  match betweenQuotes? token with
  | some phrase => .text (String.ofList phrase)
  | none =>
    match token with
    | '@' :: c :: word => keywordTerm (lowercaseChars (c :: word))
    | '.' :: cs => .text (String.ofList ('\\' :: '.' :: cs ++ ['$']))
    | ['/'] => .text "^/$"
    | cs => .text (String.ofList cs)

/-- The term of a token. An exclamation mark turns the rest of the token around. -/
def termOfToken : List Char → Term
  | '!' :: c :: cs => .exclude (termOfToken (c :: cs))
  | cs => plainTerm cs

/-- The terms of a query; a query without tokens asks for nothing in particular. -/
def parse (raw : String) : List Term :=
  match (tokens (trim raw.toList)).map termOfToken with
  | [] => [.all]
  | terms => terms

end NoteVault.Query
