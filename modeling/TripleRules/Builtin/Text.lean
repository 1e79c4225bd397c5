import TripleRules.Builtin.Argument

/-!
# Text

Search for a pattern, and concatenation.  How patterns are read and searched for is left open.
-/

namespace TripleRules

/-- How patterns are searched for.  A pattern is refused with a message, or it is looked for in
texts; where it occurs, each group that took part has its text. -/
abbrev PatternSearch := String → Except String (String → Option (Nat → Option String))

namespace Builtin

/-- Gives the text of each group to the argument at its place.  The positions are bound in order,
and one that has another value makes the whole call fail. -/
def bindGroups (args : List Term) (groups : Nat → Option String) : List Nat → Answer
  | [] => .holds []
  | i :: rest =>
    match bindOrCheck args i (.plain ((groups (i - 1)).getD "")) with
    | .fails => .fails
    | .holds bs =>
      match bindGroups args groups rest with
      | .fails => .fails
      | .holds more => .holds (bs ++ more)

/-- The call `regex(text, pattern, g1, …)` says that the pattern occurs in the text, with the given
groups.  A group that took no part is the empty text. -/
def regexWith (search : PatternSearch) (args : List Term) : Except BuiltinError Answer := do
  let text ← lexicalArg args 0
  let pattern ← lexicalArg args 1
  match search pattern with
  | .error message =>
    let kind := (args[1]?.map Term.kind).getD ""
    .error (.type 1 "regular expression" (kind ++ " (" ++ message ++ ")"))
  | .ok find =>
    match find text with
    | none => .ok .fails
    | some groups => .ok (bindGroups args groups ((List.range args.length).drop 2))

def strConcat (args : List Term) : Except BuiltinError Answer := do
  let last := args.length - 1
  let parts ← (List.range last).mapM (lexicalArg args)
  return bindOrCheck args last (.plain (String.join parts))

def onText (search : PatternSearch) : List Builtin :=
  [ofFun "regex" (.atLeast 2) (regexWith search), ofFun "strConcat" (.atLeast 1) strConcat]

end Builtin

end TripleRules
