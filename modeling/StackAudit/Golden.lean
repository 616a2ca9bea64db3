import StackAudit.Json.Basic

/-!
# Golden comparison

Reports of two runs differ in their times and, from release to release, in the version of the tool.
Normalized values hide exactly these: times wherever they occur, the version only at the root of a
value that has the outline of a report.
-/
namespace StackAudit.Golden

def timePlaceholder : Json := .str "__TIMESTAMP__"

def versionPlaceholder : Json := .str "__VERSION__"

/-- Whether a field holds a time. -/
def isTimeField (name : String) : Bool := name == "started_at" || name == "finished_at"

mutual

/-- Hides the times in a value. -/
def hideTimes : Json → Json
  | .arr items => .arr (hideTimesItems items)
  | .obj fields => .obj (hideTimesFields fields)
  | v => v

/-- Hides the times in a sequence. -/
def hideTimesItems : List Json → List Json
  | [] => []
  | v :: r => hideTimes v :: hideTimesItems r

/-- Hides the times in the fields of a mapping. -/
def hideTimesFields : List (String × Json) → List (String × Json)
  | [] => []
  | (k, v) :: r =>
    (k, if isTimeField k then timePlaceholder else hideTimes v) :: hideTimesFields r

end

/-- Changes the values of the fields with one name. -/
def mapField (name : String) (f : Json → Json) (fields : List (String × Json)) :
    List (String × Json) :=
  fields.map fun e => if e.1 = name then (e.1, f e.2) else e

/-- Hides the version of a tool. -/
def hideToolVersion : Json → Json
  | .obj fields => .obj (mapField "version" (fun _ => versionPlaceholder) fields)
  | v => v

/-- Whether a value has the outline of a report. -/
def isReport (v : Json) : Bool :=
  ["schema", "tool", "gate", "stacks"].all fun k => (v.get? k).isSome

/-- Hides the version at the root of a report. -/
def hideVersion (v : Json) : Json :=
  match v with
  | .obj fields => if isReport v then .obj (mapField "tool" hideToolVersion fields) else v
  | _ => v

/-- Hides all that differs from run to run. -/
def normalize (v : Json) : Json := hideTimes (hideVersion v)

end StackAudit.Golden
