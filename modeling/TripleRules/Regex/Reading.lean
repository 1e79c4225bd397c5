import TripleRules.Decimal.Reading
import TripleRules.Regex.Expr
import TripleRules.Regex.Property

/-!
# Reading patterns

The notation of patterns: literals and escapes, classes in brackets with nested classes and set
operations, groups, alternatives, repetitions and inline flags.  Look-around and back references are
not part of it.  A reader takes the characters still to be read and gives what it read with the
characters that remain, or nothing if the notation is broken.
-/

namespace TripleRules.Regex

inductive PatternError where
  | malformed
  | tooLarge
  deriving DecidableEq, Inhabited

structure Flags where
  caseless : Bool := false
  multiline : Bool := false
  dotAll : Bool := false
  crlf : Bool := false
  lazyFirst : Bool := false
  unicode : Bool := true
  spaced : Bool := false
  deriving Inhabited

def Flags.set? (f : Flags) (letter : Char) (on : Bool) : Option Flags :=
  match letter with
  | 'i' => some { f with caseless := on }
  | 'm' => some { f with multiline := on }
  | 's' => some { f with dotAll := on }
  | 'R' => some { f with crlf := on }
  | 'U' => some { f with lazyFirst := on }
  | 'u' => some { f with unicode := on }
  | 'x' => some { f with spaced := on }
  | _ => none

/-- Passes over white space and comments if the flags say that they have no meaning. -/
def Flags.skip (f : Flags) (cs : List Char) : List Char :=
  if f.spaced then outside cs else cs
where
  outside : List Char → List Char
    | [] => []
    | c :: cs => if Text.isBlank c then outside cs else if c = '#' then comment cs else c :: cs
  comment : List Char → List Char
    | [] => []
    | c :: cs => if c = '\n' then outside cs else comment cs

def Flags.word (f : Flags) : Class := if f.unicode then .word else .asciiWord

/-- A class as the flags have it: closed under change of case, or as it stands. -/
def Flags.fold (f : Flags) (k : Class) : Class := if f.caseless then .folded k else k

inductive Atom where
  | char (c : Char)
  | cls (k : Class)
  | position (p : Position)

def isMeta (c : Char) : Bool := c ∈ "\\.+*?()|[]\x7b\x7d^$#&-~".toList

/-- Whether a character may be escaped although it has no special meaning. -/
def isEscapable (c : Char) : Bool :=
  isMeta c || (c.toNat < 0x80 && !c.isAlphanum && c != '<' && c != '>')

def hexValue? (c : Char) : Option Nat :=
  if '0' ≤ c ∧ c ≤ '9' then some (c.toNat - 48)
  else if 'a' ≤ c ∧ c ≤ 'f' then some (c.toNat - 87)
  else if 'A' ≤ c ∧ c ≤ 'F' then some (c.toNat - 55)
  else none

def ofHex? (digits : List Char) : Option Char := do
  let values ← digits.mapM hexValue?
  let n := values.foldl (fun n d => 16 * n + d) 0
  if digits ≠ [] ∧ n.isValidChar then some (Char.ofNat n) else none

def readHex (count : Nat) : List Char → Option (Char × List Char)
  | '\x7b' :: cs =>
    match cs.dropWhile (· != '\x7d') with
    | [] => none
    | _ :: rest => (ofHex? (cs.takeWhile (· != '\x7d'))).map (·, rest)
  | cs =>
    let digits := cs.take count
    if digits.length = count then (ofHex? digits).map (·, cs.drop count) else none

def readBoundary (f : Flags) (cs : List Char) : Option (Position × List Char) :=
  let named (c : Char) := c.isAlpha || c == '-'
  match cs with
  | '\x7b' :: r =>
    match f.skip r with
    | [] => none
    | c :: r' =>
      if named c then
        let name := (c :: r').takeWhile named
        match (c :: r').dropWhile named with
        | '\x7d' :: rest =>
          match String.ofList name with
          | "start" => some (.wordStart f.word, rest)
          | "end" => some (.wordEnd f.word, rest)
          | "start-half" => some (.wordStartHalf f.word, rest)
          | "end-half" => some (.wordEndHalf f.word, rest)
          | _ => none
        | _ => none
      else some (.wordBoundary f.word, cs)
  | _ => some (.wordBoundary f.word, cs)

/-- A class and its complement by letter.  Complements need the whole range of characters. -/
def readShorthand (f : Flags) (c : Char) : Option Class :=
  let pick (wide narrow : Class) := if f.unicode then wide else narrow
  let digit := pick .digit (.ranges [(0x30, 0x39)])
  let spaces := pick .blank .asciiBlank
  let complement (k : Class) := if f.unicode then some (Class.compl k) else none
  match c with
  | 'd' => some digit
  | 's' => some spaces
  | 'w' => some f.word
  | 'D' => complement digit
  | 'S' => complement spaces
  | 'W' => complement f.word
  | _ => none

/-- The class that stands in braces after `\p`: a property, or a property and its value with a sign
between them.  The sign `!=` is read like the others. -/
def classNamed? (name : List Char) : Option Class :=
  let divided (sign : List Char) (r : List Char) :=
    Class.ofPropertyValue? (looseName (name.take (name.length - r.length)))
      (looseName (r.drop sign.length))
  match startOf "!=".toList name, startOf [':'] name, startOf ['='] name with
  | some r, _, _ => divided ['!', '='] r
  | none, some r, _ => divided [':'] r
  | none, none, some r => divided ['='] r
  | none, none, none => Class.ofProperty? (looseName name)
where
  /-- The rest of a text from the first occurrence of a sign on. -/
  startOf (sign : List Char) : List Char → Option (List Char)
    | [] => none
    | c :: r => if sign.isPrefixOf (c :: r) then some (c :: r) else startOf sign r

def readProperty (f : Flags) (cs : List Char) : Option (Class × List Char) :=
  if !f.unicode then none
  else
    match f.skip cs with
    | '\x7b' :: r =>
      match r.dropWhile (· != '\x7d') with
      | [] => none
      | _ :: rest =>
        let name := r.takeWhile (· != '\x7d')
        let name := if f.spaced then name.filter (!Text.isBlank ·) else name
        (classNamed? name).map fun k => (f.fold k, rest)
    | '\\' :: _ => none
    | c :: r => (Class.ofProperty? (looseName [c])).map fun k => (f.fold k, r)
    | [] => none

def readEscape (f : Flags) : List Char → Option (Atom × List Char)
  | [] => none
  | c :: r =>
    match c with
    | 'x' => (readHex 2 r).map fun (d, r) => (.char d, r)
    | 'u' => (readHex 4 r).map fun (d, r) => (.char d, r)
    | 'U' => (readHex 8 r).map fun (d, r) => (.char d, r)
    | 'p' => (readProperty f r).map fun (k, r) => (.cls k, r)
    | 'P' => (readProperty f r).map fun (k, r) => (.cls (.compl k), r)
    | 'a' => some (.char '\x07', r)
    | 'f' => some (.char '\x0c', r)
    | 't' => some (.char '\x09', r)
    | 'n' => some (.char '\x0a', r)
    | 'r' => some (.char '\x0d', r)
    | 'v' => some (.char '\x0b', r)
    | 'A' => some (.position .textStart, r)
    | 'z' => some (.position .textEnd, r)
    | 'b' => (readBoundary f r).map fun (p, r) => (.position p, r)
    | 'B' => some (.position (.notWordBoundary f.word), r)
    | '<' => some (.position (.wordStart f.word), r)
    | '>' => some (.position (.wordEnd f.word), r)
    | _ =>
      if isEscapable c then some (.char c, r)
      else (readShorthand f c).map fun k => (.cls k, r)

inductive SetOp where
  | inter
  | diff
  | symmDiff

def SetOp.apply : SetOp → Class → Class → Class
  | inter => .inter
  | diff => .diff
  | symmDiff => .symmDiff

def joinPart (f : Flags) (left : Option (SetOp × Class)) (part : Class) : Class :=
  match left with
  | none => part
  | some (op, lhs) => op.apply (f.fold lhs) (f.fold part)

def readNamedClass (cs : List Char) : Option (Class × List Char) :=
  match cs with
  | ':' :: r =>
    let (negated, r) := match r with
      | '^' :: r => (true, r)
      | r => (false, r)
    match r.dropWhile (· != ':') with
    | ':' :: ']' :: rest =>
      (Class.byName? (String.ofList (r.takeWhile (· != ':')))).map fun k =>
        (if negated then .compl k else k, rest)
    | _ => none
  | _ => none

def readSetAtom (f : Flags) : List Char → Option (Atom × List Char)
  | [] => none
  | '\\' :: r => readEscape f r
  | c :: r => some (.char c, r)

def Atom.asClass? : Atom → Option Class
  | char c => some (.single c)
  | cls k => some k
  | position _ => none

def readSetItem (f : Flags) (cs : List Char) : Option (Class × List Char) := do
  let (first, r) ← readSetAtom f cs
  let r := f.skip r
  match r with
  | [] => none
  | '-' :: r' =>
    match f.skip r' with
    | ']' :: _ | '-' :: _ => return (← first.asClass?, r)
    | r' =>
      let (last, r) ← readSetAtom f r'
      match first, last with
      | .char a, .char b => if a ≤ b then some (.range a b, r) else none
      | _, _ => none
  | _ => return (← first.asClass?, r)

/-- Hyphens at the start of a class, and a bracket that closes nothing yet, stand for themselves. -/
def readSetStart (f : Flags) : List Char → Class → Bool → Class × List Char
  | '-' :: r, k, _ => readSetStart f r (k.union (.single '-')) false
  | ']' :: r, k, true => (k.union (.single ']'), f.skip r)
  | cs, k, _ => (k, cs)

mutual

def readSet (f : Flags) : (fuel : Nat) → List Char → Option (Class × List Char)
  | 0, _ => none
  | fuel + 1, cs =>
    let (negated, cs) := match f.skip cs with
      | '^' :: r => (true, f.skip r)
      | r => (false, r)
    let (start, cs) := readSetStart f cs .empty true
    (readSetParts f fuel none start cs).map fun (k, r) =>
      (if negated then .compl (f.fold k) else f.fold k, r)

def readSetParts (f : Flags) :
    (fuel : Nat) → Option (SetOp × Class) → Class → List Char → Option (Class × List Char)
  | 0, _, _, _ => none
  | fuel + 1, left, part, cs =>
    match f.skip cs with
    | [] => none
    | ']' :: r => some (joinPart f left part, r)
    | '&' :: '&' :: r => readSetParts f fuel (some (.inter, joinPart f left part)) .empty r
    | '-' :: '-' :: r => readSetParts f fuel (some (.diff, joinPart f left part)) .empty r
    | '~' :: '~' :: r => readSetParts f fuel (some (.symmDiff, joinPart f left part)) .empty r
    | '[' :: r =>
      match readNamedClass r with
      | some (k, r) => readSetParts f fuel left (part.union k) r
      | none =>
        match readSet f fuel r with
        | some (k, r) => readSetParts f fuel left (part.union k) r
        | none => none
    | cs =>
      match readSetItem f cs with
      | some (k, r) => readSetParts f fuel left (part.union k) r
      | none => none

end

def maxCount : Nat := 4294967295

def readCount (f : Flags) (cs : List Char) : Option (Nat × List Char) :=
  let cs := cs.dropWhile Text.isBlank
  match Decimal.natural? (cs.takeWhile Decimal.isDigit) with
  | none => none
  | some n =>
    if n ≤ maxCount then
      some (n, f.skip ((cs.dropWhile Decimal.isDigit).dropWhile Text.isBlank))
    else none

def readBounds (f : Flags) (cs : List Char) : Option (Nat × Option Nat × List Char) := do
  let (min, r) ← readCount f (f.skip cs)
  match r with
  | '\x7d' :: r => some (min, some min, r)
  | ',' :: r =>
    match f.skip r with
    | '\x7d' :: r => some (min, none, r)
    | r =>
      let (max, r) ← readCount f r
      match r with
      | '\x7d' :: r => if min ≤ max then some (min, some max, r) else none
      | _ => none
  | _ => none

/-- The flags of a group up to the character that ends them, which is given too.  `seen` holds the
letters read so far, and `pending` says that a minus sign still waits for its first letter. -/
def readFlags (negated pending : Bool) (seen : List Char) (f : Flags) :
    List Char → Option (Flags × List Char × Char × List Char)
  | [] => none
  | c :: r =>
    if c = ':' ∨ c = ')' then if pending then none else some (f, seen, c, r)
    else if c = '-' then if negated then none else readFlags true true seen f r
    else if c ∈ seen then none
    else (f.set? c !negated).bind fun f => readFlags negated false (c :: seen) f r

def isNameStart (c : Char) : Bool :=
  c == '_' || (Class.word.contains c && !Class.digit.contains c)

def readName (cs : List Char) : Option (String × List Char) :=
  let inName (c : Char) := c ∈ ['_', '.', '[', ']'] || Class.word.contains c
  match cs with
  | c :: _ =>
    match cs.dropWhile inName with
    | '>' :: r => if isNameStart c then some (String.ofList (cs.takeWhile inName), r) else none
    | _ => none
  | [] => none

structure ReadState where
  flags : Flags
  groups : Nat
  names : List String

inductive GroupHead where
  /-- Flags for the rest of the enclosing group. -/
  | flagsOnly (f : Flags)
  /-- A group that is not numbered, with its own flags. -/
  | plain (f : Flags)
  | numbered (name : Option String)

def readGroupHead (f : Flags) (cs : List Char) : Option (GroupHead × List Char) :=
  match f.skip cs with
  | '?' :: '=' :: _ | '?' :: '!' :: _ | '?' :: '<' :: '=' :: _ | '?' :: '<' :: '!' :: _ => none
  | '?' :: 'P' :: '<' :: r | '?' :: '<' :: r =>
    (readName r).map fun (name, r) => (.numbered (some name), r)
  | '?' :: r =>
    match readFlags false false [] f r with
    | some (g, seen, ')', r) => if seen = [] then none else some (.flagsOnly g, r)
    | some (g, _, _, r) => some (.plain g, r)
    | none => none
  | r => some (.numbered none, r)

/-- The sequence of the items read so far, newest first.  A missing item stands for flags. -/
def sequence (items : List (Option Expr)) : Expr :=
  items.foldl (fun e item => match item with
    | none => e
    | some a => match e with
      | .empty => a
      | _ => .seq a e) .empty

def choice (last : Expr) (others : List Expr) : Expr := others.foldl (fun e a => .alt a e) last

def Atom.expr (f : Flags) : Atom → Expr
  | char c =>
    if f.caseless && !f.unicode then .char (.ofChars [c.toLower, c.toUpper])
    else .char (f.fold (.single c))
  | cls k => .char k
  | position p => .position p

def Flags.dot (f : Flags) : Option Class :=
  if !f.unicode then none
  else if f.dotAll then some (.compl .empty)
  else if f.crlf then some (.compl (.ofChars ['\x0d', '\n']))
  else some (.compl (.single '\n'))

def Flags.lineStart (f : Flags) : Position :=
  if !f.multiline then .textStart else if f.crlf then .lineStartCRLF else .lineStart

def Flags.lineEnd (f : Flags) : Position :=
  if !f.multiline then .textEnd else if f.crlf then .lineEndCRLF else .lineEnd

/-- Greed and what follows it: a question mark turns the greed around. -/
def Flags.readGreed (f : Flags) : List Char → Bool × List Char
  | '?' :: r => (f.lazyFirst, r)
  | r => (!f.lazyFirst, r)

def readAlternatives : (fuel : Nat) → ReadState → List (Option Expr) → List Expr → List Char →
    Option (Expr × ReadState × List Char)
  | 0, _, _, _, _ => none
  | fuel + 1, s, items, others, cs =>
    let f := s.flags
    let repeated (min : Nat) (max : Option Nat) (r : List Char) :=
      match items with
      | some e :: items =>
        let (greedy, r) := f.readGreed r
        readAlternatives fuel s (some (.rep e min max greedy) :: items) others r
      | _ => none
    match f.skip cs with
    | [] => some (choice (sequence items) others, s, [])
    | c :: r =>
      match c with
      | ')' => some (choice (sequence items) others, s, c :: r)
      | '|' => readAlternatives fuel s [] (sequence items :: others) r
      | '(' =>
        match readGroupHead f r with
        | none => none
        | some (.flagsOnly g, r) =>
          readAlternatives fuel { s with flags := g } (none :: items) others r
        | some (.plain g, r) =>
          match readAlternatives fuel { s with flags := g } [] [] r with
          | some (e, s', ')' :: r) =>
            readAlternatives fuel { s' with flags := f } (some e :: items) others r
          | _ => none
        | some (.numbered name, r) =>
          let index := s.groups + 1
          if name.any (· ∈ s.names) then none
          else
            match readAlternatives fuel ⟨f, index, name.toList ++ s.names⟩ [] [] r with
            | some (e, s', ')' :: r) =>
              let e := Expr.group index e
              readAlternatives fuel { s' with flags := f } (some e :: items) others r
            | _ => none
      | '[' =>
        match readSet f (r.length + 1) r with
        | some (k, r) => readAlternatives fuel s (some (.char k) :: items) others r
        | none => none
      | '?' => repeated 0 (some 1) r
      | '*' => repeated 0 none r
      | '+' => repeated 1 none r
      | '\x7b' =>
        match items, readBounds f r with
        | some _ :: _, some (min, max, r) => repeated min max (f.skip r)
        | _, _ => none
      | '.' =>
        match f.dot with
        | some k => readAlternatives fuel s (some (.char k) :: items) others r
        | none => none
      | '^' => readAlternatives fuel s (some (.position f.lineStart) :: items) others r
      | '$' => readAlternatives fuel s (some (.position f.lineEnd) :: items) others r
      | '\\' =>
        match readEscape f r with
        | some (a, r) => readAlternatives fuel s (some (a.expr f) :: items) others r
        | none => none
      | _ => readAlternatives fuel s (some ((Atom.char c).expr f) :: items) others r

/-- How many instructions over bytes a class comes to: a few for each range outside ASCII. -/
def Class.weight : Class → Nat
  | .empty => 1
  | .range _ last => if last.toNat < 0x80 then 1 else 2
  | .ranges rs => if rs.all (·.2 < 0x80) then 1 else 2 * rs.length
  | .blank => 12
  | .union a b | .inter a b | .diff a b | .symmDiff a b => a.weight + b.weight
  | .compl a => a.weight + 8
  | .folded a => a.weight

def Expr.weight : Expr → Nat
  | .empty => 0
  | .char k => k.weight
  | .position _ => 1
  | .seq a b => a.weight + b.weight
  | .alt a b => a.weight + b.weight + 1
  | .rep e min none _ => Nat.max 1 min * (e.weight + 1)
  | .rep e _ (some max) _ => max * (e.weight + 1)
  | .group _ e => e.weight + 2

/-- Patterns of more instructions than this are refused. -/
def maxWeight : Nat := 327680

def Expr.read (pattern : String) : Except PatternError Expr :=
  let cs := pattern.toList
  match readAlternatives (2 * cs.length + 1) ⟨{}, 0, []⟩ [] [] cs with
  | some (e, _, []) => if maxWeight < e.weight then .error .tooLarge else .ok e
  | _ => .error .malformed

end TripleRules.Regex
