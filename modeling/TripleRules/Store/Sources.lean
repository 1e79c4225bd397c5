import TripleRules.Store.Basic

/-!
# Sources

The three stores that reasoning reads as one: what was asserted, the schema, and what has been
deduced.  A triple that lies in several of them is found once, in the first.
-/

namespace TripleRules

structure Sources where
  raw : Store
  schema : Store
  deductions : Store
  deriving Inhabited

namespace Sources

def contains (s : Sources) (t : Triple) : Bool :=
  s.raw.contains t || s.schema.contains t || s.deductions.contains t

/-- The instances of a pattern, asserted ones first and deduced ones last. -/
def find (s : Sources) (p : Triple) : List Triple :=
  s.raw.find p
    ++ (s.schema.find p).filter (fun t => !s.raw.contains t)
    ++ (s.deductions.find p).filter (fun t => !(s.raw.contains t || s.schema.contains t))

def size (s : Sources) : Nat := s.raw.size + s.schema.size + s.deductions.size

end Sources

end TripleRules
