import SliceLint.Yaml.Tag
import SliceLint.Yaml.TokenList

/-!
# Nodes of a document

The tokens of a text make one tree of scalars, sequences and mappings. An alias stands for the node
that its anchor marks, which comes before it. A mark without content stands for an empty scalar.
-/

namespace SliceLint.Yaml

/-- A node of a document. -/
inductive Node where
  | scalar (tag : Tag) (text : String)
  | sequence (tag : Tag) (items : List Node)
  | mapping (tag : Tag) (entries : List (Node × Node))
deriving Repr

/-- Anchors with their nodes; an anchor whose node is not complete has none. -/
abbrev Anchors := List (String × Option Node)

/-- What is left to read. -/
structure Pending where
  tokens : List Token
  handles : List (String × String)
  anchors : Anchors

namespace Pending

def head (p : Pending) : Token := p.tokens.headD .streamEnd

def next (p : Pending) : Pending := { p with tokens := p.tokens.drop 1 }

end Pending

namespace Node

/-- A scalar that is not written. -/
def empty : Node := scalar .null ""

/-- What is said before the content of a node. -/
structure Properties where
  anchor? : Option String
  tag? : Option TagText

/-- Read the anchor and the tag of a node, in either order. -/
def properties (p : Pending) : Properties × Pending :=
  match p.tokens with
  | .anchor a :: .tag t :: rest => (⟨some a, some t⟩, { p with tokens := rest })
  | .tag t :: .anchor a :: rest => (⟨some a, some t⟩, { p with tokens := rest })
  | .anchor a :: rest => (⟨some a, none⟩, { p with tokens := rest })
  | .tag t :: rest => (⟨none, some t⟩, { p with tokens := rest })
  | _ => (⟨none, none⟩, p)

/-- The name of a tag, its handle written out. -/
def tagName (handles : List (String × String)) (t : TagText) : Except Malformed String :=
  match t.handle? with
  | none => .ok t.suffix
  | some handle =>
    match handles.lookup handle with
    | some lead => .ok (lead ++ t.suffix)
    | none => .error .form

/-- The tag of a node without or with a name; the name `!` leaves it to the form. -/
def tagOf (standard : Tag) : Option String → Tag
  | none => standard
  | some "!" => standard
  | some name => .ofName name

/-- The tag of a scalar. -/
def scalarTag (plain : Bool) (text : String) : Option String → Tag
  | none => if plain then .ofPlain text else .text
  | some "!" => .ofPlain text
  | some name => .ofName name

/-- The node is complete; an anchor may now stand for it. -/
def finish (anchor? : Option String) (node : Node) (p : Pending) : Node × Pending :=
  match anchor? with
  | none => (node, p)
  | some a => (node, { p with anchors := (a, some node) :: p.anchors })

/-- Read a node without content: an empty scalar, if anything is said of it. -/
def content (props : Properties) (name? : Option String) (p : Pending) :
    Except Malformed (Node × Pending) :=
  if props.anchor?.isNone && name?.isNone then .error .form
  else .ok (scalar (scalarTag true "" name?) "", p)

mutual

/-- Read a node. Blocks are allowed or not; so is a sequence that is not indented. -/
def read (blocks level : Bool) : Nat → Pending → Except Malformed (Node × Pending)
  | 0, _ => .error .form
  | n + 1, p =>
    match p.head with
    | .alias name =>
      match p.anchors.lookup name with
      | some (some node) => .ok (node, p.next)
      | _ => .error .form
    | _ => do
      let (props, p) := properties p
      let name? ← props.tag?.mapM (tagName p.handles)
      let p ← match props.anchor? with
        | none => pure p
        | some a =>
          if (p.anchors.lookup a).isSome then throw .form
          else pure { p with anchors := (a, none) :: p.anchors }
      let (node, p) ←
        match p.head with
        | .blockEntry =>
          if level then do
            let (items, p) ← entries false n p
            pure (sequence (tagOf .sequence name?) items, p)
          else content props name? p
        | .scalar plain text => pure (scalar (scalarTag plain text name?) text, p.next)
        | .sequenceStart => do
          let (items, p) ← flowItems true n p.next
          pure (sequence (tagOf .sequence name?) items, p)
        | .mappingStart => do
          let (es, p) ← flowEntries true n p.next
          pure (mapping (tagOf .mapping name?) es, p)
        | .blockSequence =>
          if blocks then do
            let (items, p) ← entries true n p.next
            pure (sequence (tagOf .sequence name?) items, p)
          else content props name? p
        | .blockMapping =>
          if blocks then do
            let (es, p) ← blockEntries n p.next
            pure (mapping (tagOf .mapping name?) es, p)
          else content props name? p
        | _ => content props name? p
      return finish props.anchor? node p

/-- Read the entries of a block sequence; if it is indented, up to the end of its block. -/
def entries (indented : Bool) : Nat → Pending → Except Malformed (List Node × Pending)
  | 0, _ => .error .form
  | n + 1, p =>
    match p.head with
    | .blockEntry => do
      let q := p.next
      let absent := match q.head with
        | .blockEntry | .blockEnd => true
        | .key | .value => !indented
        | _ => false
      let (item, q) ← if absent then pure (empty, q) else read true false n q
      let (items, q) ← entries indented n q
      return (item :: items, q)
    | .blockEnd => .ok ([], if indented then p.next else p)
    | _ => if indented then .error .form else .ok ([], p)

/-- Read a key or a value of a block mapping, which may be absent. -/
def blockPart : Nat → Pending → Except Malformed (Node × Pending)
  | 0, _ => .error .form
  | n + 1, p =>
    match p.head with
    | .key | .value | .blockEnd => .ok (empty, p)
    | _ => read true true n p

/-- Read the entries of a block mapping, up to the end of its block. -/
def blockEntries : Nat → Pending → Except Malformed (List (Node × Node) × Pending)
  | 0, _ => .error .form
  | n + 1, p =>
    match p.head with
    | .blockEnd => .ok ([], p.next)
    | .key => do
      let (k, q) ← blockPart n p.next
      let (v, q) ← if q.head = .value then blockPart n q.next else pure (empty, q)
      let (rest, q) ← blockEntries n q
      return ((k, v) :: rest, q)
    | _ => .error .form

/-- Read a node between brackets, which may be absent before the given tokens. -/
def flowPart (absent : Token → Bool) : Nat → Pending → Except Malformed (Node × Pending)
  | 0, _ => .error .form
  | n + 1, p => if absent p.head then .ok (empty, p) else read false false n p

/-- Read the items of a flow sequence. -/
def flowItems (first : Bool) : Nat → Pending → Except Malformed (List Node × Pending)
  | 0, _ => .error .form
  | n + 1, p =>
    if p.head = .sequenceEnd then .ok ([], p.next)
    else do
      let p ← if first then pure p else if p.head = .flowEntry then pure p.next else throw .form
      match p.head with
      | .sequenceEnd => return ([], p.next)
      | .key => do
        let (k, q) ← flowPart (fun t => t = .value || t = .flowEntry || t = .sequenceEnd) n p.next
        let (v, q) ←
          if q.head = .value then flowPart (fun t => t = .flowEntry || t = .sequenceEnd) n q.next
          else pure (empty, q)
        let (rest, q) ← flowItems false n q
        return (mapping .mapping [(k, v)] :: rest, q)
      | _ => do
        let (item, q) ← read false false n p
        let (rest, q) ← flowItems false n q
        return (item :: rest, q)

/-- Read the entries of a flow mapping. -/
def flowEntries (first : Bool) :
    Nat → Pending → Except Malformed (List (Node × Node) × Pending)
  | 0, _ => .error .form
  | n + 1, p =>
    if p.head = .mappingEnd then .ok ([], p.next)
    else do
      let p ← if first then pure p else if p.head = .flowEntry then pure p.next else throw .form
      match p.head with
      | .mappingEnd => return ([], p.next)
      | .key => do
        let (k, q) ← flowPart (fun t => t = .value || t = .flowEntry || t = .mappingEnd) n p.next
        let (v, q) ←
          if q.head = .value then flowPart (fun t => t = .flowEntry || t = .mappingEnd) n q.next
          else pure (empty, q)
        let (rest, q) ← flowEntries false n q
        return ((k, v) :: rest, q)
      | _ => do
        let (k, q) ← read false false n p
        let (rest, q) ← flowEntries false n q
        return ((k, empty) :: rest, q)

end

/-! ## Documents -/

/-- The handles of tags that need no directive. -/
def standardHandles : List (String × String) := [("!", "!"), ("!!", "tag:yaml.org,2002:")]

/-- Read the directives of a document. -/
def directives (versioned : Bool) (own : List (String × String)) :
    List Token → Except Malformed (List (String × String) × List Token)
  | .version major :: rest =>
    if versioned || major != 1 then .error .form else directives true own rest
  | .tagHandle handle lead :: rest =>
    if (own.lookup handle).isSome then .error .form
    else directives versioned ((handle, lead) :: own) rest
  | .directive :: rest => directives versioned own rest
  | rest => .ok (own ++ standardHandles, rest)

/-- Read the content of a document and check that nothing follows it. -/
def document (handles : List (String × String)) (tokens : List Token) : Except Malformed Node := do
  let (node, p) ←
    match tokens.headD .streamEnd with
    | .version _ | .tagHandle _ _ | .directive | .documentStart | .documentEnd | .streamEnd =>
      pure (empty, ⟨tokens, handles, []⟩)
    | _ => read true false (4 * tokens.length + 4) ⟨tokens, handles, []⟩
  match p.tokens.dropWhile (· == .documentEnd) with
  | [.streamEnd] => return node
  | _ => throw .form

/-- The node of a text that holds at most one document. -/
def ofTokens? (tokens : List Token) : Except Malformed (Option Node) :=
  match tokens.headD .streamEnd with
  | .version _ | .tagHandle _ _ | .directive | .documentStart | .streamEnd =>
    explicit tokens
  | .documentEnd => .error .form
  | _ => (document standardHandles tokens).map some
where
  /-- Read a document that a mark starts; marks that end one may come before. -/
  explicit (tokens : List Token) : Except Malformed (Option Node) := do
    match tokens with
    | [.streamEnd] => return none
    | _ =>
      let (handles, rest) ← directives false [] tokens
      match rest with
      | .documentStart :: rest => (document handles rest).map some
      | _ => throw .form

/-- The node of a text. -/
def ofText? (text : List Char) : Except Malformed (Option Node) := do
  ofTokens? (← Token.ofText text)

end Node

end SliceLint.Yaml
