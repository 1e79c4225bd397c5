/-!
# Vocabularies

The namespaces that rules use, and how a resource name divides into a namespace and a local name.
-/

namespace TripleRules

namespace Vocabulary

def rdf : String := "http://www.w3.org/1999/02/22-rdf-syntax-ns#"
def rdfs : String := "http://www.w3.org/2000/01/rdf-schema#"
def xsd : String := "http://www.w3.org/2001/XMLSchema#"
def owl : String := "http://www.w3.org/2002/07/owl#"

def rb : String := "http://jena.hpl.hp.com/2003/RuleReasoner#"

def violation : String := rb ++ "violation"

def validation : String := rb ++ "validation"

def localName? (space name : String) : Option String :=
  (space.toList.isPrefixOf? name.toList).map String.ofList

end Vocabulary

namespace Iri

def cutAfterLast (c : Char) : List Char → Option (List Char × List Char)
  | [] => none
  | x :: xs =>
    match cutAfterLast c xs with
    | some (front, back) => some (x :: front, back)
    | none => if x = c then some ([x], xs) else none

/-- The two parts of a name: it is cut after the last `#`, without one after the last `/`.  A name
with neither is both parts. -/
def split (name : String) : String × String :=
  let cs := name.toList
  match (cutAfterLast '#' cs).or (cutAfterLast '/' cs) with
  | some (front, back) => (String.ofList front, String.ofList back)
  | none => (name, name)

end Iri

end TripleRules
