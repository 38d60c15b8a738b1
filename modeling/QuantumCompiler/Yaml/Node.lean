import QuantumCompiler.Yaml.Token

/-!
# YAML documents

A document is a tree of scalars, sequences and mappings. `Node.parse?` reads a
text that holds one document; a text without content holds an empty plain scalar.

Missing keys, values and entries are empty plain scalars too. Mappings keep the
order of their entries, and keys may repeat. Each step of the recursion is paid
for by `fuel`: between two steps that consume a token there is at most one that
does not.
-/

namespace QuantumCompiler.Yaml

/-- A document or a part of one. -/
inductive Node where
  /-- a scalar and whether it was written plain -/
  | scalar (text : List Char) (plain : Bool)
  | sequence (items : List Node)
  | mapping (entries : List (Node × Node))

namespace Node

/-- What stands for a missing node. -/
def missing : Node := .scalar [] true

/-- Tokens that end a key or a value in a block mapping. -/
def endsBlockPart (t : Option Token) : Bool :=
  t == none || t == some .key || t == some .value || t == some .blockEnd

mutual

/-- A node at the head of the tokens. Block collections are allowed if `block` is
set, and a sequence without indentation of its own if `loose` is set. -/
def read (block loose : Bool) : Nat → List Token → Except Fault (Node × List Token)
  | 0, _ => .error .missingNode
  | fuel + 1, tokens =>
    match tokens with
    | .scalar text plain :: rest => .ok (.scalar text plain, rest)
    | .flowSequenceStart :: rest => do
      let (items, rest) ← readFlowItems true fuel rest
      return (.sequence items, rest)
    | .flowMappingStart :: rest => do
      let (entries, rest) ← readFlowEntries true fuel rest
      return (.mapping entries, rest)
    | .blockEntry :: _ =>
      if loose then do
        let (items, rest) ← readLooseItems fuel tokens
        return (.sequence items, rest)
      else .error .missingNode
    | .blockSequenceStart :: rest =>
      if block then do
        let (items, rest) ← readBlockItems fuel rest
        return (.sequence items, rest)
      else .error .missingNode
    | .blockMappingStart :: rest =>
      if block then do
        let (entries, rest) ← readBlockEntries fuel rest
        return (.mapping entries, rest)
      else .error .missingNode
    | _ => .error .missingNode

/-- The entries of a block sequence up to its end. -/
def readBlockItems : Nat → List Token → Except Fault (List Node × List Token)
  | 0, _ => .error .missingNode
  | fuel + 1, tokens =>
    match tokens with
    | .blockEnd :: rest => .ok ([], rest)
    | .blockEntry :: rest => do
      let (item, rest) ←
        if rest.head? == some .blockEntry || rest.head? == some .blockEnd then
          pure (missing, rest)
        else read true false fuel rest
      let (items, rest) ← readBlockItems fuel rest
      return (item :: items, rest)
    | _ => .error .missingSeparator

/-- The entries of a sequence that stands at the indentation of its key. -/
def readLooseItems : Nat → List Token → Except Fault (List Node × List Token)
  | 0, _ => .error .missingNode
  | fuel + 1, tokens =>
    match tokens with
    | .blockEntry :: rest => do
      let (item, rest) ←
        if rest.head? == some .blockEntry || endsBlockPart rest.head? then pure (missing, rest)
        else read true false fuel rest
      let (items, rest) ← readLooseItems fuel rest
      return (item :: items, rest)
    | _ => .ok ([], tokens)

/-- The entries of a block mapping up to its end. -/
def readBlockEntries : Nat → List Token → Except Fault (List (Node × Node) × List Token)
  | 0, _ => .error .missingNode
  | fuel + 1, tokens =>
    match tokens with
    | .blockEnd :: rest => .ok ([], rest)
    | .key :: rest => do
      let (k, rest) ←
        if endsBlockPart rest.head? then pure (missing, rest) else read true true fuel rest
      let (v, rest) ←
        match rest with
        | .value :: rest =>
          if endsBlockPart rest.head? then pure (missing, rest) else read true true fuel rest
        | rest => pure (missing, rest)
      let (entries, rest) ← readBlockEntries fuel rest
      return ((k, v) :: entries, rest)
    | _ => .error .missingKey

/-- The value after a key between brackets, which may be missing. -/
def readFlowValue (closing : Token) : Nat → List Token → Except Fault (Node × List Token)
  | 0, _ => .error .missingNode
  | fuel + 1, tokens =>
    match tokens with
    | .value :: rest =>
      if rest.head? == some .flowEntry || rest.head? == some closing then .ok (missing, rest)
      else read false false fuel rest
    | _ => .ok (missing, tokens)

/-- The items of a bracketed sequence up to its end; an item may be a single pair. -/
def readFlowItems (first : Bool) : Nat → List Token → Except Fault (List Node × List Token)
  | 0, _ => .error .missingNode
  | fuel + 1, tokens =>
    match tokens with
    | .flowSequenceEnd :: rest => .ok ([], rest)
    | _ => do
      let tokens ←
        if first then pure tokens
        else
          match tokens with
          | .flowEntry :: rest => pure rest
          | _ => throw .missingSeparator
      match tokens with
      | .flowSequenceEnd :: rest => return ([], rest)
      | .key :: rest =>
        -- an empty key takes the mark after it along
        let (k, rest) ←
          match rest with
          | .value :: rest | .flowEntry :: rest | .flowSequenceEnd :: rest =>
            pure (missing, rest)
          | rest => read false false fuel rest
        let (v, rest) ← readFlowValue .flowSequenceEnd fuel rest
        let (items, rest) ← readFlowItems false fuel rest
        return (.mapping [(k, v)] :: items, rest)
      | tokens =>
        let (item, rest) ← read false false fuel tokens
        let (items, rest) ← readFlowItems false fuel rest
        return (item :: items, rest)

/-- The entries of a bracketed mapping up to its end; a lone node is a key without a
value. -/
def readFlowEntries (first : Bool) :
    Nat → List Token → Except Fault (List (Node × Node) × List Token)
  | 0, _ => .error .missingNode
  | fuel + 1, tokens =>
    match tokens with
    | .flowMappingEnd :: rest => .ok ([], rest)
    | _ => do
      let tokens ←
        if first then pure tokens
        else
          match tokens with
          | .flowEntry :: rest => pure rest
          | _ => throw .missingSeparator
      match tokens with
      | .flowMappingEnd :: rest => return ([], rest)
      | .key :: rest =>
        let (k, rest) ←
          match rest with
          | .value :: _ | .flowEntry :: _ | .flowMappingEnd :: _ => pure (missing, rest)
          | _ => read false false fuel rest
        let (v, rest) ← readFlowValue .flowMappingEnd fuel rest
        let (entries, rest) ← readFlowEntries false fuel rest
        return ((k, v) :: entries, rest)
      | tokens =>
        let (k, rest) ← read false false fuel tokens
        let (entries, rest) ← readFlowEntries false fuel rest
        return ((k, missing) :: entries, rest)

end

/-- Pass the directives before a document. At most one gives the version, and no two tag
directives have the same handle. -/
def readDirectives (seen : List Directive) : List Token → Except Fault (List Token)
  | .directive d :: rest =>
    if seen.contains d then .error .badDirective else readDirectives (d :: seen) rest
  | tokens => .ok tokens

/-- A document after its start: empty if another mark follows at once. -/
def readContent (tokens : List Token) : Except Fault (Node × List Token) :=
  match tokens with
  | [] | .directive _ :: _ | .documentStart :: _ | .documentEnd :: _ => .ok (missing, tokens)
  | _ => read true false (4 * tokens.length + 4) tokens

/-- The only document of a stream of tokens. -/
def ofTokens (tokens : List Token) : Except Fault Node := do
  let (node, rest) ←
    match tokens with
    | [] => pure (missing, [])
    | .directive _ :: _ =>
      match ← readDirectives [] tokens with
      | .documentStart :: rest => readContent rest
      | _ => throw .badDirective
    | .documentStart :: rest => readContent rest
    | _ => read true false (4 * tokens.length + 4) tokens
  if (rest.dropWhile (· == .documentEnd)).isEmpty then return node else throw .secondDocument

/-- The only document of a text. -/
def parse (text : List Char) : Except Fault Node := do
  ofTokens (← Token.scan text)

end Node

end QuantumCompiler.Yaml
