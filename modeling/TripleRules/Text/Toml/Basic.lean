/-!
# TOML documents

A document is a table of values by key.  Tables come about in several ways, and which ways may be
mixed is decided here: a key is given a value once, a table has one header, and a table made by
dotted keys has none.
-/

namespace TripleRules.Text.Toml

inductive Value where
  | string (s : String)
  | integer (n : Int)
  | float (x : Float)
  | boolean (b : Bool)
  | array (items : List Value)
  | table (entries : List (String × Value))
  deriving Inhabited

abbrev Table := List (String × Value)

/-- How a table came about. -/
inductive Origin where
  /-- It has a header of its own. -/
  | header
  /-- It is named on the way to another table. -/
  | implied
  /-- It was made by dotted keys. -/
  | dotted
  deriving DecidableEq, Inhabited

inductive Node where
  | leaf (v : Value)
  | table (origin : Origin) (entries : List (String × Node))
  deriving Inhabited

abbrev Nodes := List (String × Node)

namespace Node

mutual

def value : Node → Value
  | leaf v => v
  | table _ entries => .table (values entries)

def values : List (String × Node) → Table
  | [] => []
  | (k, n) :: rest => (k, n.value) :: values rest

end

end Node

namespace Nodes

def replace (key : String) (n : Node) (es : Nodes) : Nodes :=
  es.map fun (k, old) => (k, if k = key then n else old)

/-- Adds a value under a key that is dotted if the path is not empty.  Dotted keys reach into tables
that dotted keys made, and past tables without a header. -/
def put (value : Value) (last : String) : (path : List String) → Nodes → Option Nodes
  | [], es => if (es.lookup last).isSome then none else some (es ++ [(last, .leaf value)])
  | key :: path, es =>
    match es.lookup key with
    | none => (put value last path []).map fun sub => es ++ [(key, .table .dotted sub)]
    | some (.table origin sub) =>
      if origin = .header ∨ (path = [] ∧ origin = .implied) then none
      else (put value last path sub).map fun sub => es.replace key (.table origin sub)
    | some (.leaf _) => none

/-- Opens the table of a header.  A table that was only implied so far gets its header now, and goes
behind the others. -/
def openTable (last : String) : (path : List String) → Nodes → Option Nodes
  | [], es =>
    match es.lookup last with
    | none => some (es ++ [(last, .table .header [])])
    | some (.table .implied sub) =>
      some (es.filter (·.1 ≠ last) ++ [(last, .table .header sub)])
    | some _ => none
  | key :: path, es =>
    match es.lookup key with
    | none => (openTable last path []).map fun sub => es ++ [(key, .table .implied sub)]
    | some (.table origin sub) =>
      (openTable last path sub).map fun sub => es.replace key (.table origin sub)
    | some (.leaf _) => none

def within (f : Nodes → Option Nodes) : (path : List String) → Nodes → Option Nodes
  | [], es => f es
  | key :: path, es =>
    match es.lookup key with
    | some (.table origin sub) =>
      (within f path sub).map fun sub => es.replace key (.table origin sub)
    | _ => none

end Nodes

end TripleRules.Text.Toml
