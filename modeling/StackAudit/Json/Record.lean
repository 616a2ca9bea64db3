import StackAudit.Json.Basic

/-!
# Reading records

A record is read from a mapping by the names of its fields, or from a sequence by their places. In a
mapping an optional field may be left out; in a sequence only a field with a default may, at the
end. A `null` stands for an optional field that is absent.
-/
namespace StackAudit.Json

/-- The fields of a record that is being read. -/
structure Record where
  /-- Whether the fields were given by their places. -/
  positional : Bool
  cells : List (String × Json)

namespace Record

/-- Takes a value apart into the named fields. A sequence may not be longer than the names; a closed
record has no other names. -/
def ofJson? (names : List String) (closed : Bool) : Json → Option Record
  | .obj fields =>
    if closed && fields.any (fun e => !names.contains e.1) then none else some ⟨false, fields⟩
  | .arr items => if names.length < items.length then none else some ⟨true, names.zip items⟩
  | _ => none

/-- A field that must be there. -/
def required {α : Type} (r : Record) (name : String) (read : Json → Option α) : Option α :=
  (r.cells.lookup name).bind read

/-- A value that may be `null`. -/
def orNull {α : Type} (read : Json → Option α) : Json → Option (Option α)
  | .null => some none
  | v => (read v).map some

/-- A field that may be absent or `null`. -/
def optional {α : Type} (r : Record) (name : String) (read : Json → Option α) :
    Option (Option α) :=
  match r.cells.lookup name with
  | none => if r.positional then none else some none
  | some v => orNull read v

/-- A field that has a default when it is left out. -/
def defaulted {α : Type} (r : Record) (name : String) (default : α) (read : Json → Option α) :
    Option α :=
  match r.cells.lookup name with
  | none => some default
  | some v => read v

end Record

/-- A text. -/
def readText? : Json → Option String := asStr?

/-- A sequence of values that are all read. -/
def readItems? {α : Type} (read : Json → Option α) (v : Json) : Option (List α) :=
  v.asArr?.bind (·.mapM read)

/-- An integer below `2 ^ 32`. -/
def readUInt32? : Json → Option UInt32
  | .num n => n.toNat?.bind fun k => if k < UInt32.size then some (UInt32.ofNat k) else none
  | _ => none

/-- One of a list of named values, given by its name or as the one key of a mapping to `null`. -/
def readName? {α : Type} (ofName : String → Option α) : Json → Option α
  | .str s => ofName s
  | .obj [(s, .null)] => ofName s
  | _ => none

end StackAudit.Json
