import StreamWatch.Yaml.Token

/-!
# Documents from tokens

A text is read as a list of documents; `none` stands for text that is malformed or has no tokens
here, as `Yaml.tokens?` says. In front of a list of tokens the functions below read one part of a
document and return the tokens behind it. Their first argument bounds how deeply they call each
other; a few steps for each token are enough.
-/

namespace StreamWatch.Yaml

/-- Adds an entry to a map that must not have its key. -/
def addEntry? (key value : Node) (entries : List (Node × Node)) : Option (List (Node × Node)) :=
  if entries.any fun (k, _) => k.same key then none else some (entries ++ [(key, value)])

namespace Node

/-! ## Flow -/

mutual

/-- A scalar, or a list or map in brackets. -/
def flow? : Nat → List Token → Option (Node × List Token)
  | 0, _ => none
  | fuel + 1, ts =>
    match ts with
    | .scalar value :: rest => some (.scalar value, rest)
    | .openList :: rest => flowList? fuel [] rest
    | .openMap :: rest => flowMap? fuel [] rest
    | _ => none

/-- The rest of a list in brackets, from an element on or from its end. -/
def flowList? : Nat → List Node → List Token → Option (Node × List Token)
  | 0, _, _ => none
  | fuel + 1, elements, ts => do
    let (element?, rest) ←
      match ts with
      | .closeList :: _ => some (none, ts)
      | .key :: rest => do
        let (entry, rest) ← flowEntry? fuel rest
        pure (some entry, rest)
      | _ => do
        let (element, rest) ← flow? fuel ts
        pure (some element, rest)
    let elements := elements ++ element?.toList
    match rest with
    | .closeList :: rest => return (.list elements, rest)
    | .comma :: rest => flowList? fuel elements rest
    | _ => none

/-- An entry without braces, which is an element of a list in brackets. -/
def flowEntry? : Nat → List Token → Option (Node × List Token)
  | 0, _ => none
  | fuel + 1, ts => do
    let (key, rest) ←
      match ts with
      | .value :: rest | .comma :: rest | .closeList :: rest => some (Node.null, rest)
      | _ => flow? fuel ts
    let (value, rest) ← flowValue? fuel rest
    return (.map [(key, value)], rest)

/-- The value of an entry in brackets; it may be missing. -/
def flowValue? : Nat → List Token → Option (Node × List Token)
  | 0, _ => none
  | fuel + 1, ts =>
    match ts with
    | .value :: rest =>
      match rest with
      | .comma :: _ | .closeList :: _ | .closeMap :: _ => some (Node.null, rest)
      | _ => flow? fuel rest
    | _ => some (Node.null, ts)

/-- The rest of a map in braces, from an entry on or from its end. A key without a colon has no
value. -/
def flowMap? : Nat → List (Node × Node) → List Token → Option (Node × List Token)
  | 0, _, _ => none
  | fuel + 1, entries, ts => do
    let (entries, rest) ←
      match ts with
      | .closeMap :: _ => some (entries, ts)
      | .key :: rest => do
        let (key, rest) ←
          match rest with
          | .value :: _ | .comma :: _ | .closeMap :: _ => some (Node.null, rest)
          | _ => flow? fuel rest
        let (value, rest) ← flowValue? fuel rest
        pure (← addEntry? key value entries, rest)
      | .value :: _ => do
        let (value, rest) ← flowValue? fuel ts
        pure (← addEntry? .null value entries, rest)
      | _ => do
        let (key, rest) ← flow? fuel ts
        pure (← addEntry? key .null entries, rest)
    match rest with
    | .closeMap :: rest => return (.map entries, rest)
    | .comma :: rest => flowMap? fuel entries rest
    | _ => none

end

/-! ## Block -/

mutual

/-- A part of a document; `isEntry` tells whether it is a key or a value of a map, where the
elements of a list need no block of their own. -/
def node? : Nat → Bool → List Token → Option (Node × List Token)
  | 0, _, _ => none
  | fuel + 1, isEntry, ts =>
    match ts with
    | .blockList :: rest => blockList? fuel [] rest
    | .blockMap :: rest => blockMap? fuel [] rest
    | .element :: _ => if isEntry then bareList? fuel [] ts else none
    | _ => flow? fuel ts

/-- The rest of a list in a block. -/
def blockList? : Nat → List Node → List Token → Option (Node × List Token)
  | 0, _, _ => none
  | fuel + 1, elements, ts => do
    match ts with
    | .blockEnd :: rest => return (.list elements, rest)
    | .element :: rest =>
      let (element, rest) ←
        match rest with
        | .element :: _ | .blockEnd :: _ => some (Node.null, rest)
        | _ => node? fuel false rest
      blockList? fuel (elements ++ [element]) rest
    | _ => none

/-- The rest of a list without a block of its own. -/
def bareList? : Nat → List Node → List Token → Option (Node × List Token)
  | 0, _, _ => none
  | fuel + 1, elements, ts => do
    match ts with
    | .element :: rest =>
      let (element, rest) ←
        match rest with
        | .element :: _ | .key :: _ | .value :: _ | .blockEnd :: _ => some (Node.null, rest)
        | _ => node? fuel false rest
      bareList? fuel (elements ++ [element]) rest
    | _ => return (.list elements, ts)

/-- A key or a value of a map in a block; it may be missing. -/
def entryPart? : Nat → List Token → Option (Node × List Token)
  | 0, _ => none
  | fuel + 1, ts =>
    match ts with
    | .key :: _ | .value :: _ | .blockEnd :: _ => some (Node.null, ts)
    | _ => node? fuel true ts

/-- The rest of a map in a block. -/
def blockMap? : Nat → List (Node × Node) → List Token → Option (Node × List Token)
  | 0, _, _ => none
  | fuel + 1, entries, ts => do
    match ts with
    | .blockEnd :: rest => return (.map entries, rest)
    | _ =>
      let (key, rest) ←
        match ts with
        | .key :: rest => entryPart? fuel rest
        | .value :: _ => some (Node.null, ts)
        | _ => none
      let (value, rest) ←
        match rest with
        | .value :: rest => entryPart? fuel rest
        | _ => some (Node.null, rest)
      blockMap? fuel (← addEntry? key value entries) rest

end

/-! ## Documents -/

/-- The document behind a line of dashes; it may be missing. -/
def marked? (fuel : Nat) (ts : List Token) : Option (Node × List Token) :=
  match ts with
  | [] | .dashes :: _ | .points :: _ => some (Node.null, ts)
  | _ => node? fuel false ts

/-- The documents that tokens stand for. One that no line of dashes begins may only come first, or
behind a line of points. -/
def documents? : Nat → Bool → List Token → Option (List Node)
  | 0, _, _ => none
  | fuel + 1, mayBegin, ts => do
    match ts with
    | [] => return []
    | .points :: rest => documents? fuel mayBegin rest
    | _ =>
      let (document, rest) ←
        match ts with
        | .dashes :: rest => marked? fuel rest
        | _ => if mayBegin then node? fuel false ts else none
      match rest with
      | .points :: rest => return document :: (← documents? fuel true rest)
      | _ => return document :: (← documents? fuel false rest)

end Node

/-! ## Texts -/

/-- A text whose lines all end in the same way. -/
def unifyLines : List Char → List Char
  | '\r' :: '\n' :: rest => '\n' :: unifyLines rest
  | c :: rest => (if c = '\r' then '\n' else c) :: unifyLines rest
  | [] => []

/-- The mark that some editors put before a text. -/
def byteOrderMark : Char := '\ufeff'

/-- Reads the documents of a text, which a zero character ends. Of all texts that are YAML it reads
those without anchors, aliases, tags, directives and blocks of lines. -/
def documents? (text : List Char) : Option (List Node) := do
  let text := if text.head? = some byteOrderMark then text.drop 1 else text
  let tokens ← tokens? (unifyLines (text.takeWhile (· ≠ '\x00')))
  Node.documents? (4 * tokens.length + 4) true tokens

end StreamWatch.Yaml
