import TripleRules.Regex.Class

/-!
# Expressions

What a pattern says, after it has been read: characters, positions, sequences, alternatives,
repetitions and numbered groups.  Flags have been worked into the classes and positions.
-/

namespace TripleRules.Regex

/-- A condition on the place between two characters. -/
inductive Position where
  | textStart
  | textEnd
  | lineStart
  | lineEnd
  /-- Line ends where a carriage return and a line feed together are one break. -/
  | lineStartCRLF
  | lineEndCRLF
  | wordBoundary (word : Class)
  | notWordBoundary (word : Class)
  | wordStart (word : Class)
  | wordEnd (word : Class)
  | wordStartHalf (word : Class)
  | wordEndHalf (word : Class)
  deriving Inhabited

def Position.holds (p : Position) (before after : Option Char) : Bool :=
  let isWord (w : Class) (c : Option Char) := c.any w.contains
  match p with
  | textStart => before.isNone
  | textEnd => after.isNone
  | lineStart => before.isNone || before == some '\n'
  | lineEnd => after.isNone || after == some '\n'
  | lineStartCRLF =>
    before.isNone || before == some '\n' || (before == some '\x0d' && after != some '\n')
  | lineEndCRLF =>
    after.isNone || after == some '\x0d' || (after == some '\n' && before != some '\x0d')
  | wordBoundary w => isWord w before != isWord w after
  | notWordBoundary w => isWord w before == isWord w after
  | wordStart w => !isWord w before && isWord w after
  | wordEnd w => isWord w before && !isWord w after
  | wordStartHalf w => !isWord w before
  | wordEndHalf w => !isWord w after

inductive Expr where
  | empty
  | char (c : Class)
  | position (p : Position)
  | seq (a b : Expr)
  | alt (a b : Expr)
  /-- From `min` to `max` times, without an upper bound if there is no `max`; as often as possible
  if `greedy`, else as rarely as possible. -/
  | rep (e : Expr) (min : Nat) (max : Option Nat) (greedy : Bool)
  /-- A group whose text is kept under a number. -/
  | group (index : Nat) (e : Expr)
  deriving Inhabited

namespace Expr

def consumes : Expr → Bool
  | empty => false
  | char _ => true
  | position _ => false
  | seq a b => a.consumes || b.consumes
  | alt a b => a.consumes && b.consumes
  | rep e min _ _ => min != 0 && e.consumes
  | group _ e => e.consumes

end Expr

end TripleRules.Regex
