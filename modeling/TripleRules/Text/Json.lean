/-!
# JSON documents

Documents of strings, arrays and objects, with a compact and an indented layout.  Reports and errors
are written through this module.  Nothing is computed from numbers in documents, so a number is kept
as it is spelled.
-/

namespace TripleRules.Text

inductive Json where
  | string (value : String)
  /-- Null, a boolean or a number, as it is spelled. -/
  | word (spelling : String)
  | array (items : List Json)
  | object (fields : List (String × Json))
  deriving Inhabited

namespace Json

def natural (n : Nat) : Json := .word n.repr

def boolean (b : Bool) : Json := .word (if b then "true" else "false")

def shortEscapes : List (Char × Char) :=
  [('\x08', 'b'), ('\x09', 't'), ('\x0a', 'n'), ('\x0c', 'f'), ('\x0d', 'r')]

def hexDigit (n : Nat) : Char := Nat.digitChar n

def escape (c : Char) : List Char :=
  if c = '\x22' ∨ c = '\\' then ['\\', c]
  else
    match shortEscapes.lookup c with
    | some letter => ['\\', letter]
    | none =>
      if c.toNat < 0x20 then ['\\', 'u', '0', '0', hexDigit (c.toNat / 16), hexDigit (c.toNat % 16)]
      else [c]

def quote (s : String) : String := "\"" ++ String.ofList (s.toList.flatMap escape) ++ "\""

/-- How a document is laid out: what separates a key from its value, and what goes before an item
and before a closing bracket at a given depth. -/
structure Layout where
  afterKey : String
  newline : Nat → String

def compact : Layout := ⟨":", fun _ => ""⟩

def indented : Layout := ⟨": ", fun depth => "\n" ++ String.ofList (List.replicate (2 * depth) ' ')⟩

def enclose (l : Layout) (depth : Nat) (left right : String) : List String → String
  | [] => left ++ right
  | items =>
    left ++ ",".intercalate (items.map (l.newline (depth + 1) ++ ·)) ++ l.newline depth ++ right

mutual

def render (l : Layout) (depth : Nat) : Json → String
  | string s => quote s
  | word spelling => spelling
  | array items => enclose l depth "[" "]" (renderItems l (depth + 1) items)
  | object fields => enclose l depth "\x7b" "\x7d" (renderFields l (depth + 1) fields)

def renderItems (l : Layout) (depth : Nat) : List Json → List String
  | [] => []
  | item :: rest => render l depth item :: renderItems l depth rest

def renderFields (l : Layout) (depth : Nat) : List (String × Json) → List String
  | [] => []
  | (key, value) :: rest =>
    (quote key ++ l.afterKey ++ render l depth value) :: renderFields l depth rest

end

end Json

end TripleRules.Text
