import TripleRules.Text.Toml.Reading

/-!
# Writing TOML

A document is written as sections, each a header and a line for each key.  Strings take double
quotes, unless single ones save escapes.
-/

namespace TripleRules.Text.Toml

def hexDigit (n : Nat) : Char := (Nat.digitChar n).toUpper

def escape (block : Bool) (c : Char) : List Char :=
  if c = '\n' ∧ block then [c]
  else
    match escapes.find? (·.2 = c) with
    | some (letter, _) => ['\\', letter]
    | none =>
      if isShown c then [c]
      else ['\\', 'u', '0', '0', hexDigit (c.toNat / 16), hexDigit (c.toNat % 16)]

def longestRun (c : Char) (cs : List Char) : Nat :=
  (cs.foldl (fun (best, run) d =>
    let run := if d = c then run + 1 else 0
    (max best run, run)) (0, 0)).1

def wantsLiteral (cs : List Char) : Bool := cs.any fun c => c = '\x22' || c = '\\'

/-- Whether single quotes can hold a text: it has no other control than tabs and line breaks, and
its own single quotes cannot be taken for the end. -/
def fitsLiteral (cs : List Char) : Bool :=
  cs.all (fun c => isShown c || c = '\n') && longestRun '\'' cs < 3 && cs.getLast? ≠ some '\''

/-- Writes a string: on one line, or as a block if it has line breaks or, between single quotes,
single quotes of its own. -/
def quote (s : String) : String :=
  let cs := s.toList
  let lines := cs.contains '\n'
  if wantsLiteral cs && fitsLiteral cs then
    if lines then "'''\n" ++ s ++ "'''"
    else if cs.contains '\'' then "'''" ++ s ++ "'''"
    else "'" ++ s ++ "'"
  else
    let body := String.ofList (cs.flatMap (escape lines))
    if lines then "\"\"\"\n" ++ body ++ "\"\"\"" else "\"" ++ body ++ "\""

def key (s : String) : String :=
  let cs := s.toList
  if cs ≠ [] ∧ cs.all isKeyChar then s
  else if wantsLiteral cs && cs.all (fun c => isShown c && c ≠ '\'') then "'" ++ s ++ "'"
  else "\"" ++ String.ofList (cs.flatMap (escape false)) ++ "\""

def tableSection (path : List String) (fields : List (String × String)) : String :=
  "[" ++ ".".intercalate (path.map key) ++ "]\n"
    ++ String.join (fields.map fun (k, v) => key k ++ " = " ++ v ++ "\n")

def document (sections : List String) : String := "\n".intercalate sections

end TripleRules.Text.Toml
