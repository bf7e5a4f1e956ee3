import Orchestration.Yaml.Scanner

/-! The tree that the tokens of one document make. Anchors are numbered as they come;
an alias keeps the number that its name had where it stands, so it may point into
the node around it. -/
namespace Orchestration.Yaml

inductive Node where
  | scalar (tag : Option String) (plain : Bool) (text : String)
  | sequence (tag : Option String) (items : List Node)
  | mapping (tag : Option String) (entries : List (Node × Node))
  | alias (number : Nat)
  deriving Repr, Inhabited

def Node.absent : Node := .scalar none true ""

/-- The anchors met so far; of two entries in a list the first counts. -/
structure Anchors where
  names : List (String × Nat)
  known : Nat
  places : List (Nat × Nat)
  marked : Nat
  nodes : List (Nat × Node)
  deriving Repr

namespace Anchors

def empty : Anchors := ⟨[], 0, [], 0, []⟩

def define (a : Anchors) (name : String) : Nat × Anchors :=
  (a.marked,
    { a with
      names := (name, a.known) :: a.names
      known := if (a.names.lookup name).isSome then a.known else a.known + 1
      places := (a.known, a.marked) :: a.places
      marked := a.marked + 1 })

def settle (a : Anchors) (place : Option Nat) (node : Node) : Anchors :=
  match place with
  | some place => { a with nodes := (place, node) :: a.nodes }
  | none => a

def target? (a : Anchors) (number : Nat) : Option Node :=
  (a.places.lookup number).bind fun place => a.nodes.lookup place

end Anchors

structure Document where
  root : Node
  anchors : Anchors
  deriving Repr

structure Progress where
  tokens : List Token
  anchors : Anchors
  handles : List (String × String)

namespace Progress

def past (p : Progress) (tokens : List Token) : Progress := { p with tokens := tokens }

def properties : List Token → Option String × Option (String × String) × List Token
  | .anchor name :: .tag handle suffix :: rest => (some name, some (handle, suffix), rest)
  | .tag handle suffix :: .anchor name :: rest => (some name, some (handle, suffix), rest)
  | .anchor name :: rest => (some name, none, rest)
  | .tag handle suffix :: rest => (none, some (handle, suffix), rest)
  | rest => (none, none, rest)

def fullTag? (p : Progress) : Option (String × String) → Option (Option String)
  | none => some none
  | some (handle, suffix) =>
    if handle.isEmpty then some (some suffix)
    else (p.handles.lookup handle).map fun start => some (start ++ suffix)

def isBlockStop : Option Token → Bool
  | some .key => true
  | some .value => true
  | some .blockEnd => true
  | _ => false

mutual
/-- A node. `block` allows block collections, `indentless` a sequence at the margin of its key. -/
def node? (block indentless : Bool) : Nat → Progress → Option (Node × Progress)
  | 0, _ => none
  | fuel + 1, p =>
    match p.tokens with
    | .alias name :: rest =>
      (p.anchors.names.lookup name).map fun number => (.alias number, p.past rest)
    | tokens =>
      let (anchor, tag, tokens) := properties tokens
      match p.fullTag? tag with
      | none => none
      | some tag =>
        let (place, p) : Option Nat × Progress := match anchor with
          | some name =>
            let (place, anchors) := p.anchors.define name
            (some place, { p with tokens := tokens, anchors := anchors })
          | none => (none, p.past tokens)
        match content? block indentless (anchor.isSome || tag.isSome) tag fuel p with
        | none => none
        | some (node, p) => some (node, { p with anchors := p.anchors.settle place node })
termination_by structural fuel => fuel

def content? (block indentless marked : Bool) (tag : Option String) :
    Nat → Progress → Option (Node × Progress)
  | 0, _ => none
  | fuel + 1, p =>
    let sequence (items : Option (List Node × Progress)) : Option (Node × Progress) :=
      items.map fun (items, p) => (.sequence tag items, p)
    let mapping (entries : Option (List (Node × Node) × Progress)) : Option (Node × Progress) :=
      entries.map fun (entries, p) => (.mapping tag entries, p)
    match p.tokens with
    | .scalar plain text :: rest =>
      some (.scalar (if tag = some "!" then none else tag) plain text, p.past rest)
    | .sequenceStart :: rest => sequence (flowItems? true fuel (p.past rest))
    | .mappingStart :: rest => mapping (flowEntries? true fuel (p.past rest))
    | tokens =>
      match indentless, block, tokens with
      | true, _, .entry :: _ => sequence (indentlessItems? fuel p)
      | _, true, .blockSequenceStart :: rest => sequence (blockItems? fuel (p.past rest))
      | _, true, .blockMappingStart :: rest => mapping (blockEntries? fuel (p.past rest))
      | _, _, _ => if marked then some (.scalar tag true "", p) else none
termination_by structural fuel => fuel

def blockItems? : Nat → Progress → Option (List Node × Progress)
  | 0, _ => none
  | fuel + 1, p =>
    match p.tokens with
    | .entry :: rest =>
      let item := match rest.head? with
        | some .entry => some (.absent, p.past rest)
        | some .blockEnd => some (.absent, p.past rest)
        | _ => node? true false fuel (p.past rest)
      match item with
      | none => none
      | some (item, p) => (blockItems? fuel p).map fun (items, p) => (item :: items, p)
    | .blockEnd :: rest => some ([], p.past rest)
    | _ => none
termination_by structural fuel => fuel

def indentlessItems? : Nat → Progress → Option (List Node × Progress)
  | 0, _ => none
  | fuel + 1, p =>
    match p.tokens with
    | .entry :: rest =>
      let item :=
        if rest.head? = some .entry || isBlockStop rest.head? then some (.absent, p.past rest)
        else node? true false fuel (p.past rest)
      match item with
      | none => none
      | some (item, p) => (indentlessItems? fuel p).map fun (items, p) => (item :: items, p)
    | _ => some ([], p)
termination_by structural fuel => fuel

def blockEntries? : Nat → Progress → Option (List (Node × Node) × Progress)
  | 0, _ => none
  | fuel + 1, p =>
    match p.tokens with
    | .key :: rest =>
      let key :=
        if isBlockStop rest.head? then some (.absent, p.past rest)
        else node? true true fuel (p.past rest)
      match key with
      | none => none
      | some (key, p) =>
        let value := match p.tokens with
          | .value :: rest =>
            if isBlockStop rest.head? then some (.absent, p.past rest)
            else node? true true fuel (p.past rest)
          | _ => some (.absent, p)
        match value with
        | none => none
        | some (value, p) =>
          (blockEntries? fuel p).map fun (entries, p) => ((key, value) :: entries, p)
    | .blockEnd :: rest => some ([], p.past rest)
    | _ => none
termination_by structural fuel => fuel

def flowValue? (closing : Token) : Nat → Progress → Option (Node × Progress)
  | 0, _ => none
  | fuel + 1, p =>
    match p.tokens with
    | .value :: rest =>
      if rest.head? = some .separator || rest.head? = some closing then some (.absent, p.past rest)
      else node? false false fuel (p.past rest)
    | _ => some (.absent, p)
termination_by structural fuel => fuel

/-- Items up to the closing bracket. An item may be a single pair; a pair without a key uses up
the token that shows it. -/
def flowItems? (first : Bool) : Nat → Progress → Option (List Node × Progress)
  | 0, _ => none
  | fuel + 1, p =>
    let items (tokens : List Token) : Option (List Node × Progress) :=
      match tokens with
      | .sequenceEnd :: rest => some ([], p.past rest)
      | .key :: rest =>
        let key := match rest with
          | .value :: rest => some (.absent, p.past rest)
          | .separator :: rest => some (.absent, p.past rest)
          | .sequenceEnd :: rest => some (.absent, p.past rest)
          | rest => node? false false fuel (p.past rest)
        match key with
        | none => none
        | some (key, p) =>
          match flowValue? .sequenceEnd fuel p with
          | none => none
          | some (value, p) =>
            (flowItems? false fuel p).map fun (items, p) =>
              (.mapping none [(key, value)] :: items, p)
      | tokens =>
        match node? false false fuel (p.past tokens) with
        | none => none
        | some (item, p) => (flowItems? false fuel p).map fun (items, p) => (item :: items, p)
    match first, p.tokens with
    | true, tokens => items tokens
    | false, .separator :: rest => items rest
    | false, .sequenceEnd :: rest => some ([], p.past rest)
    | false, _ => none
termination_by structural fuel => fuel

def flowEntries? (first : Bool) : Nat → Progress → Option (List (Node × Node) × Progress)
  | 0, _ => none
  | fuel + 1, p =>
    let entries (tokens : List Token) : Option (List (Node × Node) × Progress) :=
      match tokens with
      | .mappingEnd :: rest => some ([], p.past rest)
      | .key :: rest =>
        let key := match rest.head? with
          | some .value => some (.absent, p.past rest)
          | some .separator => some (.absent, p.past rest)
          | some .mappingEnd => some (.absent, p.past rest)
          | _ => node? false false fuel (p.past rest)
        match key with
        | none => none
        | some (key, p) =>
          match flowValue? .mappingEnd fuel p with
          | none => none
          | some (value, p) =>
            (flowEntries? false fuel p).map fun (entries, p) => ((key, value) :: entries, p)
      | tokens =>
        match node? false false fuel (p.past tokens) with
        | none => none
        | some (key, p) =>
          (flowEntries? false fuel p).map fun (entries, p) => ((key, .absent) :: entries, p)
    match first, p.tokens with
    | true, tokens => entries tokens
    | false, .separator :: rest => entries rest
    | false, .mappingEnd :: rest => some ([], p.past rest)
    | false, _ => none
termination_by structural fuel => fuel
end

/-- Enough steps for any number of tokens: of three nested calls one takes a token. -/
def fuel (tokens : List Token) : Nat := 3 * tokens.length + 3

def standardHandles : List (String × String) := [("!", "!"), ("!!", "tag:yaml.org,2002:")]

def directives? (versioned : Bool) (handles : List (String × String)) :
    List Token → Option (List (String × String) × List Token)
  | .versionDirective major minor :: rest =>
    if versioned || major ≠ 1 || (minor ≠ 1 && minor ≠ 2) then none
    else directives? true handles rest
  | .tagDirective handle start :: rest =>
    if (handles.lookup handle).isSome then none
    else directives? versioned ((handle, start) :: handles) rest
  | rest => some (handles ++ standardHandles, rest)

def isDocumentStop : Option Token → Bool
  | none => true
  | some (.versionDirective ..) => true
  | some (.tagDirective ..) => true
  | some .documentStart => true
  | some .documentEnd => true
  | _ => false

def first? (tokens : List Token) : Option (Node × Progress) :=
  match tokens.head? with
  | none => some (.absent, ⟨[], .empty, []⟩)
  | some .documentEnd => none
  | some head =>
    if isDocumentStop (some head) then
      match directives? false [] tokens with
      | some (handles, .documentStart :: rest) =>
        let p : Progress := ⟨rest, .empty, handles⟩
        if isDocumentStop rest.head? then some (.absent, p) else node? true false (fuel rest) p
      | _ => none
    else node? true false (fuel tokens) ⟨tokens, .empty, standardHandles⟩

end Progress

def Document.ofTokens? (tokens : List Token) : Option Document :=
  match Progress.first? tokens with
  | none => none
  | some (root, p) =>
    if p.tokens.all (· = .documentEnd) then some ⟨root, p.anchors⟩ else none

def Document.ofBytes? (bytes : ByteArray) : Option Document :=
  match String.fromUTF8? bytes with
  | none => none
  | some text =>
    let cs := text.toList
    if cs.all isAllowed then (Token.ofChars? cs).bind Document.ofTokens? else none

end Orchestration.Yaml
