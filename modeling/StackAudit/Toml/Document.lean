import StackAudit.Toml.Table
import StackAudit.Toml.Token

/-!
# Reading TOML text

A document is a list of sections, each with a header, and each with lines of keys and values. Texts,
integers, truth values, sequences and inline tables are read; other values have no use here and are
refused, as are sequences of tables.
-/
namespace StackAudit.Toml

/-- Digits that may be grouped by single underscores. -/
def ungroup? (isDigit : Char → Bool) : List Char → Option (List Char)
  | [] => none
  | [c] => if isDigit c then some [c] else none
  | c :: '_' :: r => if isDigit c then (ungroup? isDigit r).map (c :: ·) else none
  | c :: d :: r => if isDigit c then (ungroup? isDigit (d :: r)).map (c :: ·) else none

/-- The number of digits of the base. -/
def digits? (base : Nat) (cs : List Char) : Option Int := do
  let isDigit (c : Char) : Bool := (Text.hexValue? c).any (· < base)
  let ds ← ungroup? isDigit cs
  let n ← ds.foldlM (fun n c => (Text.hexValue? c).map (base * n + ·)) 0
  return (n : Int)

/-- The decimal number of digits without a needless zero in front. -/
def decimal? : List Char → Option Int
  | '0' :: _ :: _ => none
  | cs => digits? 10 cs

/-- The integer that is written. -/
def integer? : List Char → Option Int
  | '0' :: 'x' :: r => digits? 16 r
  | '0' :: 'o' :: r => digits? 8 r
  | '0' :: 'b' :: r => digits? 2 r
  | '-' :: r => (decimal? r).map (- ·)
  | '+' :: r => decimal? r
  | cs => decimal? cs

/-- The value of a word. -/
def ofWord? (cs : List Char) : Option Json :=
  if cs = "true".toList then some (.bool true)
  else if cs = "false".toList then some (.bool false)
  else do
    let n ← integer? cs
    if h : FitsWord n then some (.num (.int n h)) else none

/-- A part of a key. -/
def Token.key? : Token → Option String
  | .word cs => if cs.contains '+' then none else some (String.ofList cs)
  | .text s many => if many then none else some s
  | _ => none

/-- Reads a key, with its dots. -/
def readKey? : List Token → Option (List String × List Token)
  | t :: .dot :: r => do
    let (k, rest) ← readKey? r
    return ((← t.key?) :: k, rest)
  | t :: r => do return ([← t.key?], r)
  | [] => none

/-- Drops line breaks. -/
def skipLines (ts : List Token) : List Token := ts.dropWhile (· = .newline)

mutual

/-- Reads a value. Every step goes one token on, so the number of tokens is fuel enough. -/
def readValue? : Nat → List Token → Option (Json × List Token)
  | fuel + 1, .openArr :: r => (readItems? fuel r).map fun (l, rest) => (.arr l, rest)
  | fuel + 1, .openObj :: r =>
    (readFields? fuel [] r).map fun (t, rest) => (.obj (fieldsOf t), rest)
  | _ + 1, .text s _ :: r => some (.str s, r)
  | _ + 1, .word cs :: r => (ofWord? cs).map (·, r)
  | _, _ => none

/-- Reads the items of a sequence, up to its end. -/
def readItems? : Nat → List Token → Option (List Json × List Token)
  | 0, _ => none
  | fuel + 1, ts =>
    match skipLines ts with
    | .closeArr :: r => some ([], r)
    | rest => do
      let (v, rest) ← readValue? fuel rest
      match skipLines rest with
      | .closeArr :: r => return ([v], r)
      | .comma :: r =>
        let (l, rest) ← readItems? fuel r
        return (v :: l, rest)
      | _ => none

/-- Reads the fields of an inline table, up to its end. -/
def readFields? : Nat → Table → List Token → Option (Table × List Token)
  | 0, _, _ => none
  | fuel + 1, t, ts =>
    match skipLines ts with
    | .closeObj :: r => some (t, r)
    | rest => do
      let (k, v, rest) ← readPair? fuel rest
      let t ← t.put (.value v) k
      match skipLines rest with
      | .closeObj :: r => return (t, r)
      | .comma :: r => readFields? fuel t r
      | _ => none

/-- Reads a key and its value. -/
def readPair? : Nat → List Token → Option (List String × Json × List Token)
  | 0, _ => none
  | fuel + 1, ts => do
    let (k, rest) ← readKey? ts
    match rest with
    | .equals :: r =>
      let (v, rest) ← readValue? fuel r
      return (k, v, rest)
    | _ => none

end

/-- A section: the key of its header, and its pairs. -/
structure Section where
  header : List String
  pairs : List (List String × Entry) := []

/-- Reads a header, behind its first bracket. -/
def readHeader? (ts : List Token) : Option (List String × List Token) := do
  let (k, rest) ← readKey? ts
  match rest with
  | .closeArr :: r => return (k, r)
  | _ => none

/-- Whether a line may end here. -/
def endsLine : List Token → Bool
  | [] => true
  | t :: _ => t = .newline

/-- Reads the lines that are left. The sections so far are kept in reverse. -/
def readLines? : Nat → List Section → List Token → Option (List Section)
  | 0, _, _ => none
  | fuel + 1, done, ts =>
    match skipLines ts with
    | [] => some done.reverse
    | .openArr :: r => do
      let (k, rest) ← readHeader? r
      if endsLine rest then readLines? fuel (⟨k, []⟩ :: done) rest else none
    | rest => do
      let (k, v, rest) ← readPair? (rest.length + 1) rest
      match done with
      | [] => none
      | s :: r =>
        let s := { s with pairs := s.pairs ++ [(k, .value v)] }
        if endsLine rest then readLines? fuel (s :: r) rest else none

/-- Reads a document. What stands before the first header belongs to the whole. -/
def read? (s : String) : Option Json := do
  let ts ← Token.ofText? s
  let sections ← readLines? (ts.length + 1) [⟨[], []⟩] ts
  let t ← sections.foldlM (fun (t : Table) (s : Section) => t.define s.pairs s.header) []
  return .obj (fieldsOf t)

end StackAudit.Toml
