import StackAudit.Yaml.Tag

/-!
# Nodes of a YAML document

Nodes are read from tokens. Every anchor has a number: how many names were in use before it, so an
anchor that takes over a name may share its number with the next new one. An alias keeps the number
that its name has where it stands.
-/
namespace StackAudit.Yaml

/-- A node of a document. -/
inductive Node where
  | alias (anchor : Nat)
  | scalar (anchor : Option Nat) (tag : Tag) (text : String) (plain : Bool)
  | seq (anchor : Option Nat) (tag : Tag) (items : List Node)
  | map (anchor : Option Nat) (tag : Tag) (entries : List (Node × Node))

namespace Node

/-- The node where a value is missing. -/
def empty : Node := .scalar none .absent "" true

end Node

/-- Where a reader of nodes stands. -/
structure Reading where
  tokens : List Token
  handles : Handles := Handles.complete ∅
  /-- The numbers of the names of anchors. -/
  anchors : KeyMap Nat := ∅

/-- An action that reads tokens. -/
abbrev Reader := StateT Reading Option

namespace Reader

/-- The next token, if there is one. -/
def peek : Reader (Option Token) := do return (← get).tokens.head?

def skip : Reader Unit := modify fun s => { s with tokens := s.tokens.tail }

/-- Whether the next token is one of those given. -/
def isNext (ts : List Token) : Reader Bool := do return (← peek).any ts.contains

/-- Skips the token if it is next, and tells whether it was. -/
def accept (t : Token) : Reader Bool := do
  let found ← isNext [t]
  if found then skip
  return found

/-- Gives the name of an anchor its number. -/
def declareAnchor (name : String) : Reader Nat := do
  let n := (← get).anchors.size
  modify fun s => { s with anchors := s.anchors.insert name n }
  return n

/-- The anchor before a node. -/
def anchor : Reader (Option Nat) := do
  match ← peek with
  | some (.anchor name) =>
    skip
    return some (← declareAnchor name)
  | _ => return none

/-- The tag before a node, in full. -/
def tag : Reader (Option (List UInt8)) := do
  match ← peek with
  | some (.tag handle suffix) =>
    skip
    return some (← (← get).handles.resolve? handle suffix)
  | _ => return none

/-- What may stand before the content of a node. -/
structure Properties where
  anchor : Option Nat
  tag : Option (List UInt8)

/-- Reads an anchor and a tag, in either order. -/
def properties : Reader Properties := do
  let early ← anchor
  let t ← tag
  let late ← if early.isNone && t.isSome then anchor else pure none
  return ⟨early.or late, t⟩

namespace Properties

/-- What the tag means for a node that is no scalar in full. -/
def meaning (p : Properties) : Tag := (p.tag.map Tag.ofOctets).getD .absent

/-- A scalar; the tag of a single mark says nothing about it. -/
def scalar (p : Properties) (text : String) (plain : Bool) : Node :=
  let tag := if p.tag = some (octets "!") then .absent else p.meaning
  .scalar p.anchor tag text plain

/-- A node without content, which must have an anchor or a tag. -/
def contentless (p : Properties) : Reader Node :=
  if p.anchor.isNone && p.tag.isNone then failure
  else return .scalar p.anchor p.meaning "" true

end Properties

mutual

/-- Reads a node. In block context it may be a block collection; as the key or value of a block
mapping also a sequence whose entries have no indentation of their own. Every step goes one level
down or one token on, so a multiple of the number of tokens is fuel enough. -/
def node (block bare : Bool) : Nat → Reader Node
  | 0 => failure
  | fuel + 1 => do
    match ← peek with
    | some (.alias name) =>
      skip
      return .alias (← (← get).anchors.get? name)
    | _ =>
      let p ← properties
      match ← peek with
      | some (.scalar text plain) =>
        skip
        return p.scalar text plain
      | some .flowSequence =>
        skip
        return .seq p.anchor p.meaning (← flowItems true fuel)
      | some .flowMapping =>
        skip
        return .map p.anchor p.meaning (← flowEntries true fuel)
      | some .entry =>
        if bare then return .seq p.anchor p.meaning (← bareItems fuel) else p.contentless
      | some .blockSequence =>
        if block then
          skip
          return .seq p.anchor p.meaning (← blockItems fuel)
        else p.contentless
      | some .blockMapping =>
        if block then
          skip
          return .map p.anchor p.meaning (← blockEntries fuel)
        else p.contentless
      | _ => p.contentless

/-- Reads a node, or nothing if one of the tokens is next. -/
def nodeUnless (ts : List Token) (block bare : Bool) : Nat → Reader Node
  | 0 => failure
  | fuel + 1 => do if ← isNext ts then return .empty else node block bare fuel

/-- The items of a block sequence. -/
def blockItems : Nat → Reader (List Node)
  | 0 => failure
  | fuel + 1 => do
    if ← accept .entry then
      let item ← nodeUnless [.entry, .blockEnd] true false fuel
      return item :: (← blockItems fuel)
    else if ← accept .blockEnd then return []
    else failure

/-- The items of a block sequence without indentation of its own. -/
def bareItems : Nat → Reader (List Node)
  | 0 => failure
  | fuel + 1 => do
    if ← accept .entry then
      let item ← nodeUnless [.entry, .key, .value, .blockEnd] true false fuel
      return item :: (← bareItems fuel)
    else return []

/-- The entries of a block mapping. -/
def blockEntries : Nat → Reader (List (Node × Node))
  | 0 => failure
  | fuel + 1 => do
    if ← accept .key then
      let k ← nodeUnless [.key, .value, .blockEnd] true true fuel
      let v ← valueUnless [.key, .value, .blockEnd] true fuel
      return (k, v) :: (← blockEntries fuel)
    else if ← accept .blockEnd then return []
    else failure

/-- The value of an entry, if there is one. -/
def valueUnless (ts : List Token) (block : Bool) : Nat → Reader Node
  | 0 => failure
  | fuel + 1 => do
    if ← accept .value then nodeUnless ts block block fuel else return .empty

/-- The items of a flow sequence. An item with a key is a mapping of one entry. -/
def flowItems (first : Bool) : Nat → Reader (List Node)
  | 0 => failure
  | fuel + 1 => do
    if ← accept .flowSequenceEnd then return []
    else
      unless first do guard (← accept .comma)
      if ← accept .key then
        let entry ← flowPair fuel
        return .map none .absent [entry] :: (← flowItems false fuel)
      else if ← accept .flowSequenceEnd then return []
      else
        let item ← node false false fuel
        return item :: (← flowItems false fuel)

/-- An entry inside of a flow sequence. Where its key is missing, the next token is passed over. -/
def flowPair : Nat → Reader (Node × Node)
  | 0 => failure
  | fuel + 1 => do
    let keyless ← isNext [.value, .comma, .flowSequenceEnd]
    if keyless then skip
    let k ← if keyless then pure .empty else node false false fuel
    return (k, ← valueUnless [.comma, .flowSequenceEnd] false fuel)

/-- The entries of a flow mapping. -/
def flowEntries (first : Bool) : Nat → Reader (List (Node × Node))
  | 0 => failure
  | fuel + 1 => do
    if ← accept .flowMappingEnd then return []
    else
      unless first do guard (← accept .comma)
      if ← accept .key then
        let k ← nodeUnless [.value, .comma, .flowMappingEnd] false false fuel
        let v ← valueUnless [.comma, .flowMappingEnd] false fuel
        return (k, v) :: (← flowEntries false fuel)
      else if ← accept .flowMappingEnd then return []
      else
        let k ← node false false fuel
        return (k, .empty) :: (← flowEntries false fuel)

end

end Reader

end StackAudit.Yaml
