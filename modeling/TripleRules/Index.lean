import TripleRules.Term.Basic

/-!
# Indexes by term

Entries filed under terms.  The entries under one term keep the order in which they came, and a term
without entries is not kept.
-/

namespace TripleRules

/-- Lists of entries by term, in order of the first entry of each. -/
structure Index (α : Type) where
  buckets : List (Term × List α)

namespace Index

variable {α : Type}

def empty : Index α := ⟨[]⟩

instance : Inhabited (Index α) := ⟨empty⟩

def find? (i : Index α) (key : Term) : Option (List α) := i.buckets.lookup key

def get (i : Index α) (key : Term) : List α := (i.find? key).getD []

def contains (i : Index α) (key : Term) : Bool := (i.find? key).isSome

def addTo (key : Term) (a : α) : List (Term × List α) → List (Term × List α)
  | [] => [(key, [a])]
  | (k, as) :: rest => if k = key then (k, as ++ [a]) :: rest else (k, as) :: addTo key a rest

def add (i : Index α) (key : Term) (a : α) : Index α := ⟨addTo key a i.buckets⟩

/-- Takes an entry out, and its term too if that was the last one. -/
def removeFrom [DecidableEq α] (key : Term) (a : α) :
    List (Term × List α) → List (Term × List α)
  | [] => []
  | (k, as) :: rest =>
    if k = key then
      match as.erase a with
      | [] => rest
      | left => (k, left) :: rest
    else (k, as) :: removeFrom key a rest

def remove [DecidableEq α] (i : Index α) (key : Term) (a : α) : Index α :=
  ⟨removeFrom key a i.buckets⟩

end Index

end TripleRules
