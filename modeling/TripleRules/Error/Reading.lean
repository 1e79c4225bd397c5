import TripleRules.Error.Report

/-!
# Reading error reports

The documents that error reports are written as, read back.  Keys that mean nothing are passed over,
and a record may also be an array of its fields in their order.
-/

namespace TripleRules

open Text (Json)

/-- The fields of a document that stands for a record with the given field names. -/
def Text.Json.fields? (names : List String) : Json → Option (List (String × Json))
  | .object fields => some fields
  | .array items => if items.length ≤ names.length then some (names.zip items) else none
  | _ => none

def Text.Json.string? : Json → Option String
  | .string s => some s
  | _ => none

def Text.Json.nullable {α : Type} (read : Json → Option α) : Json → Option (Option α)
  | .word "null" => some none
  | j => (read j).map some

/-- A kind of error: its name, alone or as the only key of an object. -/
def ErrorCode.ofJson? : Json → Option ErrorCode
  | .string s => ofName? s
  | .object [(s, .word "null")] => ofName? s
  | _ => none

namespace ErrorContext

def readFields : Json → Option (List (String × String))
  | .object fields => fields.mapM fun (k, v) => v.string?.map (k, ·)
  | _ => none

def readCauses : Json → Option (List String)
  | .array items => items.mapM Json.string?
  | _ => none

def ofJson? (j : Json) : Option ErrorContext := do
  let t ← j.fields? ["fields", "location", "causes"]
  let fields ← (t.lookup "fields").mapM readFields
  let location ← (t.lookup "location").mapM (Json.nullable Json.string?)
  let causes ← (t.lookup "causes").mapM readCauses
  return { fields := fields.getD [], location := location.join, causes := causes.getD [] }

end ErrorContext

namespace ErrorReport

def ofJson? (j : Json) : Option ErrorReport := do
  let t ← j.fields? ["code", "message", "context", "hint"]
  let code ← (t.lookup "code").bind ErrorCode.ofJson?
  let message ← (t.lookup "message").bind Json.string?
  let context ← (t.lookup "context").mapM (Json.nullable ErrorContext.ofJson?)
  let hint ← (t.lookup "hint").mapM (Json.nullable Json.string?)
  return { code := code, message := message, context := context.join, hint := hint.join }

end ErrorReport

end TripleRules
