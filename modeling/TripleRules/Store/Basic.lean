import TripleRules.Index
import TripleRules.Term.Pattern
import TripleRules.Term.Text

/-!
# Stores

A set of ground triples in the order in which they came, with an index for each of the three
positions.  A look-up goes through the shortest list of triples that the pattern allows; the indexes
change how fast it is and nothing else.
-/

namespace TripleRules

structure Store where
  triples : List Triple
  bySubject : Index Triple
  byPredicate : Index Triple
  byObject : Index Triple
  deriving Inhabited

namespace Store

def empty : Store := ⟨[], .empty, .empty, .empty⟩

def contains (s : Store) (t : Triple) : Bool := s.triples.contains t

def size (s : Store) : Nat := s.triples.length

/-- Puts a triple at the end, unless it is in the store already. -/
def insert (s : Store) (t : Triple) : Store :=
  if s.contains t then s
  else
    { triples := s.triples ++ [t]
      bySubject := s.bySubject.add t.subject t
      byPredicate := s.byPredicate.add t.predicate t
      byObject := s.byObject.add t.object t }

def erase (s : Store) (t : Triple) : Store :=
  if s.contains t then
    { triples := s.triples.erase t
      bySubject := s.bySubject.remove t.subject t
      byPredicate := s.byPredicate.remove t.predicate t
      byObject := s.byObject.remove t.object t }
  else s

def insertAll (s : Store) (ts : List Triple) : Store := ts.foldl insert s

def ofList (ts : List Triple) : Store := empty.insertAll ts

def add (s : Store) (t : Triple) : Bool × Store := (!s.contains t, s.insert t)

def delete (s : Store) (t : Triple) : Bool × Store := (s.contains t, s.erase t)

/-- Narrows a list of candidates to those filed under one term of the pattern, if that term is
ground and they are fewer.  No candidates at all are left if nothing is filed under it. -/
def narrow (i : Index Triple) (key : Term) (best : Option (List Triple)) :
    Option (List Triple) :=
  if !key.isGround then best
  else
    let bucket := i.get key
    match best with
    | none => some bucket
    | some b => if bucket.length < b.length then some bucket else best

def candidates (s : Store) (p : Triple) : List Triple :=
  let best := narrow s.bySubject p.subject none
  let best := narrow s.byPredicate p.predicate best
  let best := narrow s.byObject p.object best
  best.getD s.triples

/-- The instances of a pattern, in the order in which they came. -/
def find (s : Store) (p : Triple) : List Triple :=
  if p.isGround then if s.contains p then [p] else []
  else (s.candidates p).filter p.matches?

def text (s : Store) : String :=
  "Store \x7b\n" ++ String.join (s.triples.map fun t => "  " ++ t.inspect ++ "\n") ++ "\x7d"

end Store

end TripleRules
