import TripleRules.Decimal.Reading
import TripleRules.Text.Toml.Basic

/-!
# Reading TOML

A reader takes the characters still to be read and gives what it read with the characters that
remain, or nothing if the text is broken.  Dates and arrays of tables are not read: no setting is
one.
-/

namespace TripleRules.Text.Toml

/-! ### White space and comments -/

def isSpace (c : Char) : Bool := c = ' ' || c = '\t'

def skipSpaces (cs : List Char) : List Char := cs.dropWhile isSpace

def isShown (c : Char) : Bool := c = '\t' || (0x20 ≤ c.toNat && c.toNat ≠ 0x7f)

def newline? : List Char → Option (List Char)
  | '\n' :: rest => some rest
  | '\r' :: '\n' :: rest => some rest
  | _ => none

def skipComment : List Char → List Char
  | '#' :: rest => rest.dropWhile isShown
  | cs => cs

def endOfLine? (cs : List Char) : Option (List Char) :=
  match skipComment (skipSpaces cs) with
  | [] => some []
  | rest => newline? rest

def skipLines : (fuel : Nat) → List Char → List Char
  | 0, cs => cs
  | fuel + 1, cs =>
    let rest := skipComment (skipSpaces cs)
    match newline? rest with
    | some rest => skipLines fuel rest
    | none => rest

/-! ### Strings -/

def hexValue? (cs : List Char) : Option Nat :=
  cs.foldlM (fun n c =>
    if Decimal.isDigit c then some (16 * n + (c.toNat - 48))
    else if 'a' ≤ c ∧ c ≤ 'f' then some (16 * n + (c.toNat - 87))
    else if 'A' ≤ c ∧ c ≤ 'F' then some (16 * n + (c.toNat - 55))
    else none) 0

def coded? (digits : Nat) (cs : List Char) : Option (Char × List Char) :=
  if cs.length < digits then none
  else
    (hexValue? (cs.take digits)).bind fun n =>
      if n.isValidChar then some (Char.ofNat n, cs.drop digits) else none

def escapes : List (Char × Char) :=
  [('b', '\x08'), ('t', '\t'), ('n', '\n'), ('f', '\x0c'), ('r', '\r'), ('\x22', '\x22'),
    ('\\', '\\')]

def escape? : List Char → Option (Char × List Char)
  | 'u' :: rest => coded? 4 rest
  | 'U' :: rest => coded? 8 rest
  | c :: rest => (escapes.lookup c).map (·, rest)
  | [] => none

/-- A line break that a backslash hides, with the white space behind it. -/
def hiddenBreak? (cs : List Char) : Option (List Char) :=
  (newline? (skipSpaces cs)).map fun rest => rest.dropWhile fun c =>
    isSpace c || c = '\n' || c = '\r'

def before (c : Char) : List Char × List Char → List Char × List Char
  | (cs, rest) => (c :: cs, rest)

/-- The rest of a string on one line.  Backslashes are escapes if the quotes are double. -/
def readLineString (quote : Char) : (fuel : Nat) → List Char → Option (List Char × List Char)
  | 0, _ | _, [] => none
  | fuel + 1, c :: cs =>
    if c = quote then some ([], cs)
    else if c = '\\' ∧ quote = '\x22' then
      (escape? cs).bind fun (d, rest) => (readLineString quote fuel rest).map (before d)
    else if isShown c then (readLineString quote fuel cs).map (before c)
    else none

/-- The rest of a string over several lines: three quotes end it, and up to two more before them
belong to it. -/
def readBlockString (quote : Char) : (fuel : Nat) → List Char → Option (List Char × List Char)
  | 0, _ | _, [] => none
  | fuel + 1, c :: cs =>
    if c = quote then
      let more := (cs.takeWhile (· = quote)).length
      if more < 2 then (readBlockString quote fuel cs).map (before c)
      else if more ≤ 4 then some (List.replicate (more - 2) quote, cs.drop more)
      else none
    else if c = '\\' ∧ quote = '\x22' then
      match hiddenBreak? cs with
      | some rest => readBlockString quote fuel rest
      | none => (escape? cs).bind fun (d, rest) => (readBlockString quote fuel rest).map (before d)
    else
      match newline? (c :: cs) with
      | some rest => (readBlockString quote fuel rest).map (before '\n')
      | none => if isShown c then (readBlockString quote fuel cs).map (before c) else none

/-- A string behind its first quote.  A line break right behind three quotes does not count. -/
def readString (quote : Char) (cs : List Char) : Option (String × List Char) :=
  let body :=
    if [quote, quote].isPrefixOf cs then
      let rest := cs.drop 2
      readBlockString quote (rest.length + 1) ((newline? rest).getD rest)
    else readLineString quote (cs.length + 1) cs
  body.map fun (s, rest) => (String.ofList s, rest)

/-! ### Keys -/

def isKeyChar (c : Char) : Bool :=
  ('a' ≤ c && c ≤ 'z') || ('A' ≤ c && c ≤ 'Z') || Decimal.isDigit c || c = '_' || c = '-'

def readKeyPart (cs : List Char) : Option (String × List Char) :=
  match cs with
  | '\x22' :: rest => quoted '\x22' rest
  | '\'' :: rest => quoted '\'' rest
  | _ =>
    let word := cs.takeWhile isKeyChar
    if word = [] then none else some (String.ofList word, cs.dropWhile isKeyChar)
where
  quoted (quote : Char) (rest : List Char) : Option (String × List Char) :=
    (readLineString quote (rest.length + 1) rest).map fun (s, rest) => (String.ofList s, rest)

def readKey : (fuel : Nat) → List Char → Option ((List String × String) × List Char)
  | 0, _ => none
  | fuel + 1, cs =>
    (readKeyPart (skipSpaces cs)).bind fun (part, rest) =>
      match skipSpaces rest with
      | '.' :: rest =>
        (readKey fuel rest).map fun ((path, last), rest) => ((part :: path, last), rest)
      | rest => some (([], part), rest)

/-! ### Numbers and words -/

def grouped? (isDigit : Char → Bool) : List Char → Option (List Char)
  | [] => none
  | [c] => if isDigit c then some [c] else none
  | c :: '_' :: cs => if isDigit c then (grouped? isDigit cs).map (c :: ·) else none
  | c :: cs => if isDigit c then (grouped? isDigit cs).map (c :: ·) else none

def wholeDigits? (cs : List Char) : Option (List Char) :=
  (grouped? Decimal.isDigit cs).filter fun ds => ds.length = 1 ∨ ds.head? ≠ some '0'

def isHexDigit (c : Char) : Bool := (hexValue? [c]).isSome

def integer? : List Char → Option Int
  | '0' :: 'x' :: cs => based 16 isHexDigit cs
  | '0' :: 'o' :: cs => based 8 (fun c => '0' ≤ c && c ≤ '7') cs
  | '0' :: 'b' :: cs => based 2 (fun c => c = '0' || c = '1') cs
  | cs =>
    let (negative, digits) := Decimal.splitSign cs
    ((wholeDigits? digits).map fun ds =>
      let n : Int := Decimal.ofDigits ds
      if negative then -n else n).filter Decimal.fitsInt64
where
  based (base : Nat) (isDigit : Char → Bool) (cs : List Char) : Option Int :=
    (((grouped? isDigit cs).bind fun ds => ds.foldlM (fun n d => (hexValue? [d]).map (base * n + ·))
      0).map Int.ofNat).filter Decimal.fitsInt64

/-- The part of a number behind its whole digits: digits after a point, an exponent, or both. -/
def fraction? (cs : List Char) : Option (List Char) :=
  match cs with
  | '.' :: rest =>
    let digits := rest.takeWhile fun c => Decimal.isDigit c || c = '_'
    let rest := rest.drop digits.length
    (grouped? Decimal.isDigit digits).bind fun ds =>
      if rest = [] then some ('.' :: ds) else (exponent? rest).map (('.' :: ds) ++ ·)
  | _ => exponent? cs
where
  exponent? : List Char → Option (List Char)
    | 'e' :: cs | 'E' :: cs =>
      let (negative, digits) := Decimal.splitSign cs
      (grouped? Decimal.isDigit digits).map fun ds => 'e' :: (if negative then ['-'] else []) ++ ds
    | _ => none

def float? (cs : List Char) : Option Float :=
  let (negative, body) := Decimal.splitSign cs
  let magnitude :=
    if body = "inf".toList ∨ body = "nan".toList then Decimal.float? body
    else
      let digits := body.takeWhile fun c => Decimal.isDigit c || c = '_'
      ((wholeDigits? digits).bind fun ds =>
        (fraction? (body.drop digits.length)).bind fun f => Decimal.float? (ds ++ f)).filter
          fun x => negative || x.isFinite
  magnitude.map fun x => if negative then -x else x

def word? (cs : List Char) : Option Value :=
  if cs = "true".toList then some (.boolean true)
  else if cs = "false".toList then some (.boolean false)
  else ((integer? cs).map .integer).or ((float? cs).map .float)

/-! ### Values -/

mutual

def readValue : (fuel : Nat) → List Char → Option (Value × List Char)
  | 0, _ => none
  | fuel + 1, cs =>
    match cs with
    | '\x22' :: rest => (readString '\x22' rest).map fun (s, rest) => (.string s, rest)
    | '\'' :: rest => (readString '\'' rest).map fun (s, rest) => (.string s, rest)
    | '[' :: rest => (readItems fuel rest).map fun (items, rest) => (.array items, rest)
    | '\x7b' :: rest =>
      match skipSpaces rest with
      | '\x7d' :: rest => some (.table [], rest)
      | rest => (readEntries fuel [] rest).map fun (es, rest) => (.table (Node.values es), rest)
    | _ =>
      let isWordChar (c : Char) := isKeyChar c || c = '+' || c = '.'
      (word? (cs.takeWhile isWordChar)).map (·, cs.dropWhile isWordChar)

def readItems : (fuel : Nat) → List Char → Option (List Value × List Char)
  | 0, _ => none
  | fuel + 1, cs =>
    match skipLines cs.length cs with
    | ']' :: rest => some ([], rest)
    | cs =>
      (readValue fuel cs).bind fun (v, rest) =>
        match skipLines rest.length rest with
        | ',' :: rest => (readItems fuel rest).map fun (vs, rest) => (v :: vs, rest)
        | ']' :: rest => some ([v], rest)
        | _ => none

def readEntries : (fuel : Nat) → Nodes → List Char → Option (Nodes × List Char)
  | 0, _, _ => none
  | fuel + 1, es, cs =>
    (readKey cs.length cs).bind fun
      | ((path, last), '=' :: rest) =>
        (readValue fuel (skipSpaces rest)).bind fun (v, rest) =>
          (es.put v last path).bind fun es =>
            match skipSpaces rest with
            | ',' :: rest => readEntries fuel es rest
            | '\x7d' :: rest => some (es, rest)
            | _ => none
      | _ => none

end

/-! ### Documents -/

def readHeader (cs : List Char) : Option ((List String × String) × List Char) :=
  (readKey cs.length cs).bind fun
    | (key, ']' :: rest) => (endOfLine? rest).map (key, ·)
    | _ => none

def readAssignment (cs : List Char) : Option ((List String × String) × Value × List Char) :=
  (readKey cs.length cs).bind fun
    | (key, '=' :: rest) =>
      (readValue rest.length (skipSpaces rest)).bind fun (v, rest) =>
        (endOfLine? rest).map fun rest => (key, v, rest)
    | _ => none

/-- Reads a document line by line.  `current` is the path of the table that keys go to. -/
def readLines : (fuel : Nat) → (current : List String) → Nodes → List Char → Option Nodes
  | 0, _, es, cs => if cs = [] then some es else none
  | fuel + 1, current, es, cs =>
    match skipLines cs.length cs with
    | [] => some es
    | '[' :: rest =>
      (readHeader rest).bind fun ((path, last), rest) =>
        (es.openTable last path).bind fun es => readLines fuel (path ++ [last]) es rest
    | cs =>
      (readAssignment cs).bind fun ((path, last), v, rest) =>
        (es.within (Nodes.put v last path) current).bind fun es => readLines fuel current es rest

/-- The table of a document.  A byte order mark before it does not count. -/
def read? (s : String) : Option Table :=
  let cs := match s.toList with
    | '\ufeff' :: cs => cs
    | cs => cs
  (readLines cs.length [] [] cs).map Node.values

end TripleRules.Text.Toml
