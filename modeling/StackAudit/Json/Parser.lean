import StackAudit.Json.Token

/-!
# Reading JSON text

The tokens of a text are read by a machine with a stack of the sequences and mappings that are still
open. A key that is written twice keeps its first place and its last value. Nesting beyond a given
depth is refused.
-/
namespace StackAudit.Json

/-- A sequence or mapping that is still open. -/
inductive Frame where
  /-- A sequence, with the items so far in reverse. -/
  | items (rev : List Json)
  /-- A mapping, with the fields so far and the key whose value is being read. -/
  | field (done : List (String × Json)) (key : String)

/-- What the reader waits for. -/
inductive Reader where
  /-- A value. -/
  | value (stack : List Frame)
  /-- The first item of a sequence, or its end. -/
  | firstItem (stack : List Frame)
  /-- The first key of a mapping, or its end. -/
  | firstKey (stack : List Frame)
  /-- A further key. -/
  | key (done : List (String × Json)) (stack : List Frame)
  /-- The colon behind a key. -/
  | colon (done : List (String × Json)) (key : String) (stack : List Frame)
  /-- A value is complete, and what is around it goes on. -/
  | after (v : Json) (stack : List Frame)

namespace Reader

/-- Reads a token where a value may start. -/
def startValue (limit : Nat) (stack : List Frame) : Token → Option Reader
  | .text s => some (.after (.str s) stack)
  | .number n => some (.after (.num n) stack)
  | .bool b => some (.after (.bool b) stack)
  | .null => some (.after .null stack)
  | .openArr => if stack.length < limit then some (.firstItem stack) else none
  | .openObj => if stack.length < limit then some (.firstKey stack) else none
  | _ => none

/-- Reads the token behind a complete value. -/
def afterValue (v : Json) : List Frame → Token → Option Reader
  | .items rev :: stack, .comma => some (.value (.items (v :: rev) :: stack))
  | .items rev :: stack, .closeArr => some (.after (.arr (v :: rev).reverse) stack)
  | .field done k :: stack, .comma => some (.key (setField k v done) stack)
  | .field done k :: stack, .closeObj => some (.after (.obj (setField k v done)) stack)
  | _, _ => none

/-- Reads one token. -/
def feed (limit : Nat) : Reader → Token → Option Reader
  | .value stack, t => startValue limit stack t
  | .firstItem stack, .closeArr => some (.after (.arr []) stack)
  | .firstItem stack, t => startValue limit (.items [] :: stack) t
  | .firstKey stack, .closeObj => some (.after (.obj []) stack)
  | .firstKey stack, .text k => some (.colon [] k stack)
  | .key done stack, .text k => some (.colon done k stack)
  | .colon done k stack, .colon => some (.value (.field done k :: stack))
  | .after v stack, t => afterValue v stack t
  | _, _ => none

/-- The value, if it is complete and nothing is left open. -/
def result? : Reader → Option Json
  | .after v [] => some v
  | _ => none

end Reader

/-- The value of a list of tokens. -/
def ofTokens? (limit : Nat) (ts : List Token) : Option Json :=
  (ts.foldlM (Reader.feed limit) (.value [])).bind Reader.result?

/-- Reads a text that holds one value, nested at most `limit` deep. -/
def readNested? (limit : Nat) (s : String) : Option Json :=
  (Token.ofText? s.toList).bind (ofTokens? limit)

/-- The deepest nesting that is read. -/
def maxDepth : Nat := 127

/-- Reads a text that holds one value. -/
def read? (s : String) : Option Json := readNested? maxDepth s

end StackAudit.Json
