/-
YAML text as a tree of nodes.

A node is a scalar, a sequence, a mapping, or an alias of a node that carries an anchor.  Anchors
are known by number: a new one gets the number of names that were used before it, so that a name
used twice shares its second number with the next name, and the alias of a number stands for the
last node that carries it.

* `Document.ofTokens?` -- the only document of some tokens;
* `Document.ofText?` -- the only document of a text;
* `Document.followed` -- a node, or what it is an alias of.
-/
import Lightshow.Yaml.Token

namespace Lightshow.Yaml

/-- A part of a document. -/
inductive Node where
  | scalar (anchor : Option Nat) (tag : Option String) (style : Style) (text : String)
  | sequence (anchor : Option Nat) (tag : Option String) (items : List Node)
  | mapping (anchor : Option Nat) (tag : Option String) (pairs : List (Node × Node))
  | alias (number : Nat)

/-- What stands where nothing is written. -/
def Node.absent : Node := .scalar none none .plain ""

/-- Number of the anchor of a node. -/
def Node.anchor? : Node → Option Nat
  | .scalar anchor .. => anchor
  | .sequence anchor .. => anchor
  | .mapping anchor .. => anchor
  | .alias _ => none

mutual

/-- A node and all nodes below it, in the order of the text. -/
def Node.all : Node → List Node
  | .scalar a t s x => [.scalar a t s x]
  | .sequence a t items => .sequence a t items :: Node.allOfItems items
  | .mapping a t pairs => .mapping a t pairs :: Node.allOfPairs pairs
  | .alias n => [.alias n]

/-- The nodes of some items. -/
def Node.allOfItems : List Node → List Node
  | [] => []
  | n :: rest => n.all ++ Node.allOfItems rest

/-- The nodes of some pairs. -/
def Node.allOfPairs : List (Node × Node) → List Node
  | [] => []
  | (k, v) :: rest => k.all ++ v.all ++ Node.allOfPairs rest

end

/-- What is known while a tree is built. -/
structure Building where
  /-- Tokens that are left. -/
  tokens : List Token
  /-- What the handles of tags stand for. -/
  handles : List (List Char × List Char)
  /-- Names of anchors with their numbers. -/
  anchors : List (List Char × Nat)

/-- A step of building a tree; the tokens may not be those of one. -/
abbrev Builder := StateT Building Option

namespace Builder

/-- The next token. -/
def next? : Builder (Option Token) := do return (← get).tokens.head?

/-- Past the next token. -/
def skip : Builder Unit := modify fun b => { b with tokens := b.tokens.drop 1 }

/-- Past the next token, if it is that one. -/
def skipIf (t : Token) : Builder Bool := do
  if (← next?) = some t then
    skip
    return true
  return false

/-- Past the next token, which has to be that one. -/
def expect (t : Token) : Builder Unit := do
  if !(← skipIf t) then failure

/-- A fresh anchor: the number of names so far, under which the name is found from now on. -/
def newAnchor (name : List Char) : Builder Nat := do
  let b ← get
  let number := b.anchors.length
  set { b with anchors := (name, number) :: b.anchors.filter (·.1 ≠ name) }
  return number

/-- The number under which an anchor is found. -/
def anchorNumber (name : List Char) : Builder Nat := do
  match (← get).anchors.find? (·.1 = name) with
  | some (_, number) => return number
  | none => failure

/-- A tag in full. -/
def fullTag (handle suffix : List Char) : Builder String := do
  if handle.isEmpty then return String.ofList suffix
  match (← get).handles.find? (·.1 = handle) with
  | some (_, start) => return String.ofList (start ++ suffix)
  | none => failure

/-- An anchor and a tag in front of a node, in either order. -/
def properties : Builder (Option Nat × Option String) := do
  match ← next? with
  | some (.anchor name) =>
    skip
    let number ← newAnchor name
    match ← next? with
    | some (.tag handle suffix) =>
      skip
      return (some number, some (← fullTag handle suffix))
    | _ => return (some number, none)
  | some (.tag handle suffix) =>
    skip
    let tag ← fullTag handle suffix
    match ← next? with
    | some (.anchor name) =>
      skip
      return (some (← newAnchor name), some tag)
    | _ => return (none, some tag)
  | _ => return (none, none)

/-- Whether the next token is one of those. -/
def sees (ends : List Token) : Builder Bool := do
  match ← next? with
  | some t => return ends.contains t
  | none => return false

/-- What ends an entry of a block mapping. -/
def mappingEnds : List Token := [.key, .value, .blockEnd]

mutual

/-- A node.  Block collections start only where `block` says so, and items of a sequence without a
column of its own only where `loose` does. -/
def node (block loose : Bool) : (fuel : Nat) → Builder Node
  | 0 => failure
  | fuel + 1 => do
    if let some (.alias name) := ← next? then
      skip
      return .alias (← anchorNumber name)
    let (anchor, tag) ← properties
    match ← next? with
    | some (.scalar style text) =>
      skip
      return .scalar anchor tag style (String.ofList text)
    | some .openSequence =>
      skip
      return .sequence anchor tag (← flowItems true fuel)
    | some .openMapping =>
      skip
      return .mapping anchor tag (← flowPairs true fuel)
    | some .blockSequence =>
      if !block then failure
      skip
      return .sequence anchor tag (← blockItems fuel)
    | some .blockMapping =>
      if !block then failure
      skip
      return .mapping anchor tag (← blockPairs fuel)
    | t =>
      if loose && t = some .item then return .sequence anchor tag (← looseItems fuel)
      if anchor.isNone && tag.isNone then failure
      return .scalar anchor tag .plain ""

/-- A node, or an absent one if one of those tokens comes next. -/
def nodeUnless (ends : List Token) (block : Bool) : (fuel : Nat) → Builder Node
  | 0 => failure
  | fuel + 1 => do
    if ← sees ends then return .absent
    node block (block && ends = mappingEnds) fuel

/-- Items of a block sequence, up to its end. -/
def blockItems : (fuel : Nat) → Builder (List Node)
  | 0 => failure
  | fuel + 1 => do
    if ← skipIf .blockEnd then return []
    expect .item
    let item ← nodeUnless [.item, .blockEnd] true fuel
    return item :: (← blockItems fuel)

/-- Items at the column of the mapping around them. -/
def looseItems : (fuel : Nat) → Builder (List Node)
  | 0 => failure
  | fuel + 1 => do
    if !(← skipIf .item) then return []
    let item ← nodeUnless (.item :: mappingEnds) true fuel
    return item :: (← looseItems fuel)

/-- Pairs of a block mapping, up to its end. -/
def blockPairs : (fuel : Nat) → Builder (List (Node × Node))
  | 0 => failure
  | fuel + 1 => do
    if ← skipIf .blockEnd then return []
    expect .key
    let key ← nodeUnless mappingEnds true fuel
    let value ← if ← skipIf .value then nodeUnless mappingEnds true fuel else pure .absent
    return (key, value) :: (← blockPairs fuel)

/-- Items between brackets, up to the closing one; a key there is a mapping of one pair. -/
def flowItems (first : Bool) : (fuel : Nat) → Builder (List Node)
  | 0 => failure
  | fuel + 1 => do
    if ← skipIf .closeSequence then return []
    if !first then expect .comma
    if ← skipIf .closeSequence then return []
    let ends := [.comma, .closeSequence]
    let item ← if ← skipIf .key then
        let key ← if ← sees (.value :: ends) then
            skip
            pure .absent
          else node false false fuel
        let value ← if ← skipIf .value then nodeUnless ends false fuel else pure .absent
        pure (.mapping none none [(key, value)])
      else node false false fuel
    return item :: (← flowItems false fuel)

/-- Pairs between braces, up to the closing one. -/
def flowPairs (first : Bool) : (fuel : Nat) → Builder (List (Node × Node))
  | 0 => failure
  | fuel + 1 => do
    if ← skipIf .closeMapping then return []
    if !first then expect .comma
    if ← skipIf .closeMapping then return []
    let ends := [.comma, .closeMapping]
    let pair ← if ← skipIf .key then
        let key ← nodeUnless (.value :: ends) false fuel
        let value ← if ← skipIf .value then nodeUnless ends false fuel else pure .absent
        pure (key, value)
      else pure (← node false false fuel, .absent)
    return pair :: (← flowPairs false fuel)

end

/-- What handles stand for without a directive. -/
def usualHandles : List (List Char × List Char) :=
  [(['!'], ['!']), (['!', '!'], "tag:yaml.org,2002:".toList)]

/-- Reads directives: at most one version, which has to be a known one, and each handle once. -/
def directives (versioned : Bool) : (fuel : Nat) → Builder Unit
  | 0 => failure
  | fuel + 1 => do
    match ← next? with
    | some (.version major minor) =>
      if versioned || major ≠ 1 || (minor ≠ 1 && minor ≠ 2) then failure
      skip
      directives true fuel
    | some (.tagAlias handle start) =>
      let b ← get
      if b.handles.any (·.1 = handle) then failure
      set { b with handles := (handle, start) :: b.handles }
      skip
      directives versioned fuel
    | _ => modify fun b => { b with handles := b.handles ++ usualHandles }

/-- Whether a token belongs in front of a document or behind it. -/
def isOutside : Option Token → Bool
  | none | some .documentStart | some .documentEnd | some (.version ..) | some (.tagAlias ..) =>
    true
  | some _ => false

/-- Past the marks at the end of a document. -/
def skipEnds : Builder Unit :=
  modify fun b => { b with tokens := b.tokens.dropWhile (· = .documentEnd) }

/-- The root of the only document, if there is one. -/
def document (fuel : Nat) : Builder (Option Node) := do
  let first ← next?
  if first.isNone then return none
  directives false fuel
  let root ←
    if isOutside first && first ≠ some .documentEnd then do
      expect .documentStart
      if isOutside (← next?) then pure .absent else node true false fuel
    else node true false fuel
  skipEnds
  if (← next?).isSome then failure
  return some root

end Builder

/-- The nodes of a text; a text without any document has no root. -/
structure Document where
  root : Option Node

namespace Document

/-- The document of some tokens, if they are those of at most one. -/
def ofTokens? (tokens : List Token) : Option Document := do
  let (root, _) ← (Builder.document (2 * tokens.length + 4)).run ⟨tokens, [], []⟩
  return ⟨root⟩

/-- The document of a text. -/
def ofText? (text : String) : Option Document := do ofTokens? (← Token.ofText? text)

/-- A node, or what it is an alias of. -/
def followed (d : Document) : Node → Node
  | .alias number =>
    match d.root with
    | none => .alias number
    | some root => ((root.all.filter (·.anchor? = some number)).getLast?).getD (.alias number)
  | n => n

end Document

end Lightshow.Yaml
