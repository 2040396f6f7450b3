import NoteVault.Yaml.Token

/-!
Events: what a document says, in the order in which it says it. The reader follows the grammar of
tokens; a node is a scalar, an alias, or a collection between its start and its end.
-/

namespace NoteVault.Yaml

/-- An event of a document. -/
inductive Event where
  /-- A reference to the node with an anchor, given by the anchor's number. -/
  | alias (anchor : Nat)
  | scalar (tag : Option (List Char)) (text : List Char) (plain : Bool)
  | sequenceStart (tag : Option (List Char))
  | sequenceEnd
  | mappingStart (tag : Option (List Char))
  | mappingEnd
  deriving DecidableEq, Repr

/-- The events read, the latest first, with the numbers of the anchors and the places of the
nodes they mark. -/
structure EventLog where
  events : List Event
  count : Nat
  numbers : List (List Char × Nat)
  /-- The places of marked nodes, the latest first. -/
  places : List (Nat × Nat)

namespace EventLog

/-- No events. -/
def empty : EventLog := ⟨[], 0, [], []⟩

/-- Adds an event. -/
def add (log : EventLog) (e : Event) : EventLog :=
  { log with events := e :: log.events, count := log.count + 1 }

/-- Marks the next event with an anchor. The anchor's number is the count of the names in use. -/
def mark (log : EventLog) (name : List Char) : EventLog :=
  let number := log.numbers.length
  { log with
    numbers := (name, number) :: log.numbers.filter (·.1 != name)
    places := (number, log.count) :: log.places }

/-- Adds an event that may have an anchor. -/
def addMarked (log : EventLog) (anchor : Option (List Char)) (e : Event) : EventLog :=
  (match anchor with
    | some name => log.mark name
    | none => log).add e

/-- Adds an alias of an anchor that has been seen. -/
def addAlias? (log : EventLog) (name : List Char) : Option EventLog :=
  (log.numbers.lookup name).map fun number => log.add (.alias number)

end EventLog

/-- The tokens left and the events read. -/
structure Reader where
  tokens : List Token
  log : EventLog

namespace Reader

/-- Adds an event in place of a node that is missing. -/
def addMissing (r : Reader) : Reader := { r with log := r.log.add (.scalar none [] true) }

/-- Adds an event and goes on with the given tokens. -/
def add (r : Reader) (e : Event) (rest : List Token) : Reader := ⟨rest, r.log.add e⟩

/-- Goes on with the given tokens. -/
def withTokens (r : Reader) (rest : List Token) : Reader := { r with tokens := rest }

end Reader

/-- The short forms of tags that a document declares. -/
abbrev TagHandles := List (List Char × List Char)

/-- The tag that a handle and a suffix stand for. -/
def resolveTag? (handles : TagHandles) (handle suffix : List Char) : Option (List Char) :=
  if handle.isEmpty then some suffix else (handles.lookup handle).map (· ++ suffix)

/-- An anchor and a tag in front of a node, in either order. -/
structure Properties where
  anchor : Option (List Char)
  tag : Option (List Char × List Char)

/-- Takes the anchor and the tag in front of a node. -/
def takeProperties : List Token → Properties × List Token
  | .anchor name :: .tag h s :: rest => (⟨some name, some (h, s)⟩, rest)
  | .tag h s :: .anchor name :: rest => (⟨some name, some (h, s)⟩, rest)
  | .anchor name :: rest => (⟨some name, none⟩, rest)
  | .tag h s :: rest => (⟨none, some (h, s)⟩, rest)
  | rest => (⟨none, none⟩, rest)

/-- A tag in use, if there is one; none if its handle is not declared. -/
def Properties.resolve? (handles : TagHandles) (p : Properties) :
    Option (Option (List Char)) :=
  match p.tag with
  | none => some none
  | some (h, s) => (resolveTag? handles h s).map some

/-- Whether no node follows in a block sequence. -/
def endsBlockEntry : List Token → Bool
  | .blockEntry :: _ | .blockEnd :: _ => true
  | _ => false

/-- Whether no node follows in a sequence that is not indented. -/
def endsIndentlessEntry : List Token → Bool
  | .blockEntry :: _ | .key :: _ | .value :: _ | .blockEnd :: _ => true
  | _ => false

/-- Whether no node follows in a block mapping. -/
def endsBlockPart : List Token → Bool
  | .key :: _ | .value :: _ | .blockEnd :: _ => true
  | _ => false

/-- Whether a value is missing in a mapping in braces. -/
def endsFlowValue : List Token → Bool
  | .flowEntry :: _ | .flowMappingEnd :: _ => true
  | _ => false

/-- Whether a value is missing in a pair in brackets. -/
def endsPairValue : List Token → Bool
  | .flowEntry :: _ | .flowSequenceEnd :: _ => true
  | _ => false

mutual

/-- Reads a node. Collections by indentation are allowed where `block` is set, and sequences whose
hyphens stand in the column of the key around them where `indentless` is set. -/
def readNode? (handles : TagHandles) : Nat → Bool → Bool → Reader → Option Reader
  | 0, _, _, _ => none
  | fuel + 1, block, indentless, r =>
    match r.tokens with
    | .alias name :: rest => (r.log.addAlias? name).map (⟨rest, ·⟩)
    | tokens =>
      let (properties, tokens) := takeProperties tokens
      match properties.resolve? handles with
      | none => none
      | some tag =>
        let marked := fun e rest => Reader.mk rest (r.log.addMarked properties.anchor e)
        let bare := if properties.anchor.isSome || tag.isSome then
            some (marked (.scalar tag [] true) tokens)
          else none
        match tokens with
        | .scalar text plain :: rest =>
          some (marked (.scalar tag text plain) rest)
        | .flowSequenceStart :: rest =>
          readFlowSequence? handles fuel true (marked (.sequenceStart tag) rest)
        | .flowMappingStart :: rest =>
          readFlowMapping? handles fuel true (marked (.mappingStart tag) rest)
        | .blockEntry :: rest =>
          if indentless then
            readIndentless? handles fuel (marked (.sequenceStart tag) (.blockEntry :: rest))
          else bare
        | .blockSequenceStart :: rest =>
          if block then readBlockSequence? handles fuel (marked (.sequenceStart tag) rest)
          else bare
        | .blockMappingStart :: rest =>
          if block then readBlockMapping? handles fuel (marked (.mappingStart tag) rest)
          else bare
        | _ => bare

/-- Reads the entries of a block sequence to its end. -/
def readBlockSequence? (handles : TagHandles) : Nat → Reader → Option Reader
  | 0, _ => none
  | fuel + 1, r =>
    match r.tokens with
    | .blockEntry :: rest =>
      if endsBlockEntry rest then readBlockSequence? handles fuel (r.withTokens rest).addMissing
      else
        match readNode? handles fuel true false (r.withTokens rest) with
        | some r => readBlockSequence? handles fuel r
        | none => none
    | .blockEnd :: rest => some (r.add .sequenceEnd rest)
    | _ => none

/-- Reads the entries of a sequence that is not indented; whatever is no entry ends it. -/
def readIndentless? (handles : TagHandles) : Nat → Reader → Option Reader
  | 0, _ => none
  | fuel + 1, r =>
    match r.tokens with
    | .blockEntry :: rest =>
      if endsIndentlessEntry rest then readIndentless? handles fuel (r.withTokens rest).addMissing
      else
        match readNode? handles fuel true false (r.withTokens rest) with
        | some r => readIndentless? handles fuel r
        | none => none
    | rest => some (r.add .sequenceEnd rest)

/-- Reads the keys and values of a block mapping to its end. -/
def readBlockMapping? (handles : TagHandles) : Nat → Reader → Option Reader
  | 0, _ => none
  | fuel + 1, r =>
    match r.tokens with
    | .key :: rest =>
      let key? := if endsBlockPart rest then some (r.withTokens rest).addMissing
        else readNode? handles fuel true true (r.withTokens rest)
      match key? with
      | some r => readBlockValue? handles fuel r
      | none => none
    | .blockEnd :: rest => some (r.add .mappingEnd rest)
    | _ => none

/-- Reads the value behind a key of a block mapping, and the rest of the mapping. -/
def readBlockValue? (handles : TagHandles) : Nat → Reader → Option Reader
  | 0, _ => none
  | fuel + 1, r =>
    match r.tokens with
    | .value :: rest =>
      if endsBlockPart rest then readBlockMapping? handles fuel (r.withTokens rest).addMissing
      else
        match readNode? handles fuel true true (r.withTokens rest) with
        | some r => readBlockMapping? handles fuel r
        | none => none
    | _ => readBlockMapping? handles fuel r.addMissing

/-- Reads the entries of a sequence in brackets to its end. -/
def readFlowSequence? (handles : TagHandles) : Nat → Bool → Reader → Option Reader
  | 0, _, _ => none
  | fuel + 1, first, r =>
    match r.tokens with
    | .flowSequenceEnd :: rest => some (r.add .sequenceEnd rest)
    | tokens =>
      let entry? := if first then some tokens else match tokens with
        | .flowEntry :: rest => some rest
        | _ => none
      match entry? with
      | none => none
      | some (.flowSequenceEnd :: rest) => some (r.add .sequenceEnd rest)
      | some (.key :: rest) =>
        match readFlowPair? handles fuel (r.add (.mappingStart none) rest) with
        | some r => readFlowSequence? handles fuel false r
        | none => none
      | some rest =>
        match readNode? handles fuel false false (r.withTokens rest) with
        | some r => readFlowSequence? handles fuel false r
        | none => none

/-- Reads a key with its value among the entries of a sequence in brackets. Where the key is
missing, the token in its place is passed over. -/
def readFlowPair? (handles : TagHandles) : Nat → Reader → Option Reader
  | 0, _ => none
  | fuel + 1, r =>
    let key? := match r.tokens with
      | .value :: rest | .flowEntry :: rest | .flowSequenceEnd :: rest =>
        some (r.withTokens rest).addMissing
      | _ => readNode? handles fuel false false r
    match key? with
    | none => none
    | some r =>
      match r.tokens with
      | .value :: rest =>
        if endsPairValue rest then some ((r.withTokens rest).addMissing.add .mappingEnd rest)
        else
          match readNode? handles fuel false false (r.withTokens rest) with
          | some r => some (r.add .mappingEnd r.tokens)
          | none => none
      | rest => some (r.addMissing.add .mappingEnd rest)

/-- Reads the keys and values of a mapping in braces to its end. -/
def readFlowMapping? (handles : TagHandles) : Nat → Bool → Reader → Option Reader
  | 0, _, _ => none
  | fuel + 1, first, r =>
    match r.tokens with
    | .flowMappingEnd :: rest => some (r.add .mappingEnd rest)
    | tokens =>
      let entry? := if first then some tokens else match tokens with
        | .flowEntry :: rest => some rest
        | _ => none
      match entry? with
      | none => none
      | some (.flowMappingEnd :: rest) => some (r.add .mappingEnd rest)
      | some (.key :: rest) =>
        let missing := match rest with
          | .value :: _ => true
          | _ => endsFlowValue rest
        let key? := if missing then some (r.withTokens rest).addMissing
          else readNode? handles fuel false false (r.withTokens rest)
        match key? with
        | some r => readFlowValue? handles fuel r
        | none => none
      | some rest =>
        match readNode? handles fuel false false (r.withTokens rest) with
        | some r => readFlowMapping? handles fuel false r.addMissing
        | none => none

/-- Reads the value behind a key of a mapping in braces, and the rest of the mapping. -/
def readFlowValue? (handles : TagHandles) : Nat → Reader → Option Reader
  | 0, _ => none
  | fuel + 1, r =>
    match r.tokens with
    | .value :: rest =>
      if endsFlowValue rest then
        readFlowMapping? handles fuel false (r.withTokens rest).addMissing
      else
        match readNode? handles fuel false false (r.withTokens rest) with
        | some r => readFlowMapping? handles fuel false r
        | none => none
    | _ => readFlowMapping? handles fuel false r.addMissing

end

/-- What the directives in front of a document declare. -/
structure Directives where
  versionSeen : Bool
  handles : TagHandles

/-- The handles of tags that need no declaration. -/
def defaultHandles : TagHandles :=
  [(['!'], ['!']), (['!', '!'], "tag:yaml.org,2002:".toList)]

/-- Reads the directives in front of a document. Nothing may be declared twice, and the version
has to be 1.1 or 1.2. -/
def readDirectives? : Directives → List Token → Option (Directives × List Token)
  | d, .version major minor :: rest =>
    if d.versionSeen || major != 1 || (minor != 1 && minor != 2) then none
    else readDirectives? { d with versionSeen := true } rest
  | d, .tagDirective handle stem :: rest =>
    if (d.handles.lookup handle).isSome then none
    else readDirectives? { d with handles := d.handles ++ [(handle, stem)] } rest
  | d, rest => some (d, rest)

/-- Whether a document begins with directives or with its mark. -/
def beginsExplicitly : List Token → Bool
  | .version _ _ :: _ | .tagDirective _ _ :: _ | .documentStart :: _ => true
  | _ => false

/-- Whether a document whose start is marked has no content. -/
def isEmptyContent : List Token → Bool
  | [] | .documentEnd :: _ => true
  | tokens => beginsExplicitly tokens

/-- Reads the content of a document. -/
def readContent? (handles : TagHandles) (explicit : Bool) (tokens : List Token) :
    Option Reader :=
  let r : Reader := ⟨tokens, .empty⟩
  if explicit && isEmptyContent tokens then some r.addMissing
  else readNode? handles (4 * tokens.length + 4) true false r

/-- The events of the only document of a text; none if it has no document, or several. -/
def readEvents? (tokens : List Token) : Option EventLog := do
  let r ←
    if tokens.isEmpty then none
    else if beginsExplicitly tokens then
      match readDirectives? ⟨false, []⟩ tokens with
      | some (d, .documentStart :: rest) =>
        readContent? (d.handles ++ defaultHandles) true rest
      | _ => none
    else readContent? defaultHandles false tokens
  let isEnd : Token → Bool := fun t => t == .documentEnd
  if (r.tokens.dropWhile isEnd).isEmpty then return r.log else none

end NoteVault.Yaml
