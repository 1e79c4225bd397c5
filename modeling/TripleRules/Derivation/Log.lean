import TripleRules.Rule.Text

/-!
# Derivations

Which rule led to a triple, and from which premises.  A log keeps the derivations of each triple in
the order in which they were found, and no derivation twice.
-/

namespace TripleRules

structure Derivation where
  rule : Rule
  conclusion : Triple
  premises : List Triple
  deriving DecidableEq, Inhabited

/-- Derivations by conclusion, in order of the first derivation of each. -/
structure DerivationLog where
  entries : List (Triple × List Derivation)
  deriving Inhabited

namespace DerivationLog

def empty : DerivationLog := ⟨[]⟩

def recordIn (d : Derivation) : List (Triple × List Derivation) → List (Triple × List Derivation)
  | [] => [(d.conclusion, [d])]
  | (t, ds) :: rest =>
    if t = d.conclusion then (t, if d ∈ ds then ds else ds ++ [d]) :: rest
    else (t, ds) :: recordIn d rest

def record (log : DerivationLog) (d : Derivation) : DerivationLog := ⟨recordIn d log.entries⟩

def get (log : DerivationLog) (t : Triple) : List Derivation := (log.entries.lookup t).getD []

def size (log : DerivationLog) : Nat := log.entries.length

def toList (log : DerivationLog) : List Derivation := log.entries.flatMap (·.2)

end DerivationLog

end TripleRules
