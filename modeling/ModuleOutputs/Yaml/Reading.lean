import ModuleOutputs.Yaml.Node
import ModuleOutputs.Yaml.TokenStream

/-!
Reading a document from tokens. Each reader returns the nodes that it has seen and
the tokens that follow them, or no tokens if the text breaks off.
-/

namespace ModuleOutputs.Yaml

/-- The tokens that follow, with the anchors and the handles of tags seen so far. -/
structure Reading where
  tokens : List Token
  /-- The number of each name of an anchor. -/
  anchors : List (String × Nat) := []
  /-- What each handle of a tag stands for. -/
  handles : List (String × String) := []

namespace Reading

/-- Goes past a token. -/
def skip (r : Reading) : Reading :=
  { r with tokens := r.tokens.drop 1 }

/-- Where the next token begins. -/
def place (r : Reading) : Mark :=
  r.tokens.head?.elim {} (·.start)

def isAt (r : Reading) (p : TokenKind → Bool) : Bool :=
  r.tokens.head?.elim false (p ·.kind)

/-- Goes past the comma that has to stand before every part of a flow collection
but the first, and may stand before its end. -/
def pastComma (close : TokenKind) (first : Bool) (r : Reading) : Option Reading :=
  if first || r.isAt (· == close) then some r
  else if r.isAt (· == .flowEntry) then some r.skip
  else none

/-- The number of an anchor. A name that is used again is numbered anew, by how
many names there are. -/
def addAnchor (r : Reading) : Option String → Option Nat × Reading
  | none => (none, r)
  | some name =>
    let id := r.anchors.length
    (some id, { r with anchors := (name, id) :: r.anchors.filter (·.1 != name) })

/-- What a tag stands for, if its handle is known. -/
def resolveTag (r : Reading) (handle suffix : String) : Option String :=
  if handle.isEmpty then some suffix
  else (r.handles.lookup handle).map (· ++ suffix)

/-- Reads the anchor and the tag of a node, which come in either order. -/
def properties (r : Reading) : Option String × Option (String × String) × Reading :=
  match r.tokens with
  | ⟨.anchor name, _, _⟩ :: ⟨.tag handle suffix, _, _⟩ :: rest =>
    (some name, some (handle, suffix), { r with tokens := rest })
  | ⟨.tag handle suffix, _, _⟩ :: ⟨.anchor name, _, _⟩ :: rest =>
    (some name, some (handle, suffix), { r with tokens := rest })
  | ⟨.anchor name, _, _⟩ :: rest => (some name, none, { r with tokens := rest })
  | ⟨.tag handle suffix, _, _⟩ :: rest => (none, some (handle, suffix), { r with tokens := rest })
  | _ => (none, none, r)

end Reading

/-! ## Where a node is left out -/

/-- Whether a key or a value of a block mapping is left out before a token. -/
def endsBlockNode (k : TokenKind) : Bool :=
  k == .key || k == .value || k == .blockEnd

/-- Whether an item of a block list is left out before a token. -/
def endsBlockItem (k : TokenKind) : Bool :=
  k == .blockEntry || k == .blockEnd

/-- Whether an item of a list that is not indented is left out before a token. -/
def endsInlineItem (k : TokenKind) : Bool :=
  k == .blockEntry || endsBlockNode k

/-- Whether a value of a flow collection is left out before a token. -/
def endsFlowValue (close k : TokenKind) : Bool :=
  k == .flowEntry || k == close

/-- Whether a key of a flow collection is left out before a token. -/
def endsFlowKey (close k : TokenKind) : Bool :=
  k == .value || endsFlowValue close k

/-- A node of which at most the anchor and the tag are written. -/
def unwritten (mark : Mark) (anchor : Option Nat) (tag : Option String) (r : Reading) :
    Node × Option Reading :=
  if anchor.isSome || tag.isSome then (.scalar mark anchor tag .plain "", some r)
  else (.broken, none)

/-! ## Nodes -/

mutual

/-- Reads a node. `block` allows block collections, `inline` a list that is not
indented further than the key before it. -/
def readNode (fuel : Nat) (block inline : Bool) (r : Reading) : Node × Option Reading :=
  match fuel with
  | 0 => (.broken, none)
  | fuel + 1 =>
    match r.tokens with
    | [] => (.broken, none)
    | ⟨.alias name, _, _⟩ :: _ =>
      match r.anchors.lookup name with
      | none => (.broken, none)
      | some id => (.alias id, some r.skip)
    | first :: _ =>
      let (name, written, r) := r.properties
      let tag := written.map fun (handle, suffix) => r.resolveTag handle suffix
      if tag = some none || r.tokens.isEmpty then (.broken, none)
      else
        let tag := tag.join
        let mark := first.start
        let (anchor, r) := r.addAnchor name
        let kind : Option TokenKind := r.tokens.head?.map (·.kind)
        match kind, block, inline with
        | some (.scalar style text), _, _ =>
          (.scalar mark anchor (tag.filter (· != "!")) style text, some r.skip)
        | some .flowSequenceStart, _, _ =>
          let (items, next) := readFlowItems fuel true r.skip
          (.list mark anchor items next.isSome, next)
        | some .flowMappingStart, _, _ =>
          let (entries, next) := readFlowEntries fuel true r.skip
          (.mapping mark anchor entries next.isSome, next)
        | some .blockSequenceStart, true, _ =>
          let (items, next) := readBlockItems fuel r.skip
          (.list mark anchor items next.isSome, next)
        | some .blockMappingStart, true, _ =>
          let (entries, next) := readBlockEntries fuel r.skip
          (.mapping mark anchor entries next.isSome, next)
        | some .blockEntry, _, true =>
          let (items, next) := readInlineItems fuel r
          (.list mark anchor items next.isSome, next)
        | _, _, _ => unwritten mark anchor tag r

/-- Reads a node, unless it is left out before the next token. -/
def readUnless (fuel : Nat) (ends : TokenKind → Bool) (mark : Mark) (block inline : Bool)
    (r : Reading) : Node × Option Reading :=
  match fuel with
  | 0 => (.broken, none)
  | fuel + 1 => if r.isAt ends then (.empty mark, some r) else readNode fuel block inline r

/-- Reads the items of a block list up to its end. -/
def readBlockItems (fuel : Nat) (r : Reading) : List Node × Option Reading :=
  match fuel with
  | 0 => ([], none)
  | fuel + 1 =>
    match r.tokens with
    | ⟨.blockEntry, _, stop⟩ :: _ =>
      match readUnless fuel endsBlockItem stop true false r.skip with
      | (item, none) => ([item], none)
      | (item, some r) =>
        let (items, next) := readBlockItems fuel r
        (item :: items, next)
    | ⟨.blockEnd, _, _⟩ :: _ => ([], some r.skip)
    | _ => ([], none)

/-- Reads the items of a list that is not indented. -/
def readInlineItems (fuel : Nat) (r : Reading) : List Node × Option Reading :=
  match fuel with
  | 0 => ([], none)
  | fuel + 1 =>
    match r.tokens with
    | ⟨.blockEntry, _, stop⟩ :: _ =>
      match readUnless fuel endsInlineItem stop true false r.skip with
      | (item, none) => ([item], none)
      | (item, some r) =>
        let (items, next) := readInlineItems fuel r
        (item :: items, next)
    | [] => ([], none)
    | _ => ([], some r)

/-- Reads the entries of a block mapping up to its end. -/
def readBlockEntries (fuel : Nat) (r : Reading) : List (Node × Node) × Option Reading :=
  match fuel with
  | 0 => ([], none)
  | fuel + 1 =>
    match r.tokens with
    | ⟨.key, _, stop⟩ :: _ =>
      match readUnless fuel endsBlockNode stop true true r.skip with
      | (key, none) => ([(key, .broken)], none)
      | (key, some r) =>
        match readBlockValue fuel r with
        | (value, none) => ([(key, value)], none)
        | (value, some r) =>
          let (entries, next) := readBlockEntries fuel r
          ((key, value) :: entries, next)
    | ⟨.blockEnd, _, _⟩ :: _ => ([], some r.skip)
    | _ => ([], none)

/-- Reads the value of an entry of a block mapping. -/
def readBlockValue (fuel : Nat) (r : Reading) : Node × Option Reading :=
  match fuel with
  | 0 => (.broken, none)
  | fuel + 1 =>
    match r.tokens with
    | ⟨.value, _, stop⟩ :: _ => readUnless fuel endsBlockNode stop true true r.skip
    | [] => (.broken, none)
    | _ => (.empty r.place, some r)

/-- Reads the items of a flow list up to its end. -/
def readFlowItems (fuel : Nat) (first : Bool) (r : Reading) : List Node × Option Reading :=
  match fuel with
  | 0 => ([], none)
  | fuel + 1 =>
    match r.pastComma .flowSequenceEnd first with
    | none => ([], none)
    | some r =>
      if r.isAt (· == .flowSequenceEnd) then ([], some r.skip)
      else
        match if r.isAt (· == .key) then readPair fuel r else readNode fuel false false r with
        | (item, none) => ([item], none)
        | (item, some r) =>
          let (items, next) := readFlowItems fuel false r
          (item :: items, next)

/-- Reads an item of a flow list that is a mapping of one entry without brackets.
Before what cannot be a key, the key is left out, and the next token with it. -/
def readPair (fuel : Nat) (r : Reading) : Node × Option Reading :=
  match fuel with
  | 0 => (.broken, none)
  | fuel + 1 =>
    let mark := r.place
    let r := r.skip
    let read :=
      match r.tokens with
      | ⟨kind, _, stop⟩ :: _ =>
        if endsFlowKey .flowSequenceEnd kind then (Node.empty stop, some r.skip)
        else readNode fuel false false r
      | [] => (Node.broken, none)
    match read with
    | (key, none) => (.mapping mark none [(key, .broken)] false, none)
    | (key, some r) =>
      let (value, next) := readFlowValue fuel .flowSequenceEnd r
      (.mapping mark none [(key, value)] next.isSome, next)

/-- Reads the value of an entry in a flow collection with the given end. -/
def readFlowValue (fuel : Nat) (close : TokenKind) (r : Reading) : Node × Option Reading :=
  match fuel with
  | 0 => (.broken, none)
  | fuel + 1 =>
    match r.tokens with
    | ⟨.value, _, _⟩ :: _ =>
      let r := r.skip
      readUnless fuel (endsFlowValue close) r.place false false r
    | [] => (.broken, none)
    | _ => (.empty r.place, some r)

/-- Reads the entries of a flow mapping up to its end. -/
def readFlowEntries (fuel : Nat) (first : Bool) (r : Reading) :
    List (Node × Node) × Option Reading :=
  match fuel with
  | 0 => ([], none)
  | fuel + 1 =>
    match r.pastComma .flowMappingEnd first with
    | none => ([], none)
    | some r =>
      if r.isAt (· == .flowMappingEnd) then ([], some r.skip)
      else
        let read :=
          if r.isAt (· == .key) then
            let r := r.skip
            readUnless fuel (endsFlowKey .flowMappingEnd) r.place false false r
          else readNode fuel false false r
        match read with
        | (key, none) => ([(key, .broken)], none)
        | (key, some rest) =>
          let found :=
            if r.isAt (· == .key) then readFlowValue fuel .flowMappingEnd rest
            else if rest.tokens.isEmpty then (.broken, none)
            else (.empty rest.place, some rest)
          match found with
          | (value, none) => ([(key, value)], none)
          | (value, some r) =>
            let (entries, next) := readFlowEntries fuel false r
            ((key, value) :: entries, next)

end

/-! ## Documents -/

/-- What the directives before a document say. -/
structure Directives where
  version : Bool := false
  handles : List (String × String) := []

/-- Reads the directives before a document. A version is given once and is 1.1 or
1.2, and a handle is given once. -/
def readDirectives : List Token → Directives → Option (Directives × List Token)
  | ⟨.versionDirective major minor, _, _⟩ :: rest, d =>
    if d.version || major != 1 || !(minor == 1 || minor == 2) then none
    else readDirectives rest { d with version := true }
  | ⟨.tagDirective handle uri, _, _⟩ :: rest, d =>
    if (d.handles.lookup handle).isSome then none
    else readDirectives rest { d with handles := d.handles ++ [(handle, uri)] }
  | ts, d => some (d, ts)

/-- The handles that need no directive. -/
def commonHandles : List (String × String) :=
  [("!", "!"), ("!!", "tag:yaml.org,2002:")]

/-- Whether a document without content ends before a token. -/
def endsDocument : TokenKind → Bool
  | .versionDirective .. => true
  | .tagDirective .. => true
  | .documentStart => true
  | .documentEnd => true
  | .streamEnd => true
  | _ => false

/-- Whether no other document follows. -/
def nothingFollows (ts : List Token) : Bool :=
  (ts.dropWhile (·.kind == .documentEnd)).head?.elim false (·.kind == .streamEnd)

namespace Document

def ofContent (explicit : Bool) (r : Reading) : Document :=
  let read :=
    if explicit && r.isAt endsDocument then (Node.empty r.place, some r)
    else readNode (5 * r.tokens.length + 5) true false r
  match read with
  | (root, none) => ⟨some root, false⟩
  | (root, some r) => ⟨some root, nothingFollows r.tokens⟩

/-- The only document of a text. The first document is not announced unless there
are directives before it. -/
def ofText (text : String) : Document :=
  let stream := TokenStream.ofText text
  match stream.tokens with
  | [] => ⟨some .broken, false⟩
  | ⟨.streamEnd, _, _⟩ :: _ => ⟨none, true⟩
  | ts =>
    match readDirectives ts {} with
    | none => ⟨some .broken, false⟩
    | some (d, rest) =>
      match rest with
      | ⟨.documentStart, _, _⟩ :: rest =>
        ofContent true { tokens := rest, handles := d.handles ++ commonHandles }
      | _ =>
        if rest.length = ts.length then ofContent false { tokens := rest, handles := commonHandles }
        else ⟨some .broken, false⟩

end Document

end ModuleOutputs.Yaml
