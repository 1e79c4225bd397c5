import TripleRules.Derivation.Log
import TripleRules.Text.Json

/-!
# Derivation trees

The tree of a triple follows the first derivation of each triple down to triples that have none.  A
triple that lies on the way to itself is not expanded again, and neither is one at the greatest
depth.
-/

namespace TripleRules

/-- A triple, and the rule and premises it was derived by if they are shown. -/
inductive DerivationTree where
  | leaf (conclusion : Triple)
  | step (conclusion : Triple) (label : String) (premises : List DerivationTree)
  deriving Inhabited

namespace DerivationTree

/-- The tree of a triple.  `depth` is how many more levels may be expanded, and `path` holds the
triples expanded above this one. -/
def grow (derivations : Triple → List Derivation) :
    (depth : Nat) → (path : List Triple) → Triple → DerivationTree
  | 0, _, t => leaf t
  | depth + 1, path, t =>
    match derivations t with
    | [] => leaf t
    | d :: _ =>
      if t ∈ path then leaf t
      else step t d.rule.label (d.premises.map (grow derivations depth (path ++ [t])))

def defaultDepth : Nat := 32

def build (derivations : Triple → List Derivation) (maxDepth : Nat) (t : Triple) :
    DerivationTree :=
  grow derivations maxDepth [] t

mutual

def lines (level : Nat) : DerivationTree → List String
  | leaf t => [String.ofList (List.replicate (2 * level) ' ') ++ t.text]
  | step t label premises =>
    (String.ofList (List.replicate (2 * level) ' ') ++ t.text ++ "  <= " ++ label)
      :: linesAll (level + 1) premises

def linesAll (level : Nat) : List DerivationTree → List String
  | [] => []
  | t :: ts => t.lines level ++ linesAll level ts

end

def text (t : DerivationTree) : String := String.join ((t.lines 0).map (· ++ "\n"))

mutual

/-- The tree as a document.  A triple without premises shows none. -/
def json : DerivationTree → Text.Json
  | leaf t => .object [("conclusion", .string t.text)]
  | step t label [] => .object [("conclusion", .string t.text), ("rule", .string label)]
  | step t label (p :: ps) =>
    .object [("conclusion", .string t.text), ("rule", .string label),
      ("premises", .array (p.json :: jsonAll ps))]

def jsonAll : List DerivationTree → List Text.Json
  | [] => []
  | t :: ts => t.json :: jsonAll ts

end

end DerivationTree

end TripleRules
