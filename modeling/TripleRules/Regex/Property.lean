import TripleRules.Text.Runs
import TripleRules.Regex.Class

/-!
# Properties by name

The classes that patterns ask for by the name of a property: general categories, scripts and a few
properties that a character has or has not.  Names are compared without regard to case, blanks,
hyphens and underscores, and with or without `is` in front.
-/

namespace TripleRules.Regex

/-- The form in which names of properties are compared. -/
def looseName (name : List Char) : String :=
  let plain (cs : List Char) :=
    (cs.filter fun c => c != ' ' && c != '_' && c != '-' && c.toNat < 0x80).map (·.toLower)
  match name with
  | a :: b :: rest =>
    if a.toLower = 'i' ∧ b.toLower = 's' then
      if plain rest = ['c'] then "isc" else String.ofList (plain rest)
    else String.ofList (plain name)
  | _ => String.ofList (plain name)

def categoriesNamed? (name : String) : Option (List String) :=
  match name with
  | "l" | "letter" => some ["Lu", "Ll", "Lt", "Lm", "Lo"]
  | "lc" | "casedletter" => some ["Lu", "Ll", "Lt"]
  | "lu" | "uppercaseletter" => some ["Lu"]
  | "ll" | "lowercaseletter" => some ["Ll"]
  | "lt" | "titlecaseletter" => some ["Lt"]
  | "lm" | "modifierletter" => some ["Lm"]
  | "lo" | "otherletter" => some ["Lo"]
  | "m" | "mark" | "combiningmark" => some ["Mn", "Mc", "Me"]
  | "mn" | "nonspacingmark" => some ["Mn"]
  | "mc" | "spacingmark" => some ["Mc"]
  | "me" | "enclosingmark" => some ["Me"]
  | "n" | "number" => some ["Nd", "Nl", "No"]
  | "nd" | "decimalnumber" | "digit" => some ["Nd"]
  | "nl" | "letternumber" => some ["Nl"]
  | "no" | "othernumber" => some ["No"]
  | "p" | "punctuation" | "punct" => some ["Pc", "Pd", "Ps", "Pe", "Pi", "Pf", "Po"]
  | "pc" | "connectorpunctuation" => some ["Pc"]
  | "pd" | "dashpunctuation" => some ["Pd"]
  | "ps" | "openpunctuation" => some ["Ps"]
  | "pe" | "closepunctuation" => some ["Pe"]
  | "pi" | "initialpunctuation" => some ["Pi"]
  | "pf" | "finalpunctuation" => some ["Pf"]
  | "po" | "otherpunctuation" => some ["Po"]
  | "s" | "symbol" => some ["Sm", "Sc", "Sk", "So"]
  | "sm" | "mathsymbol" => some ["Sm"]
  | "sc" | "currencysymbol" => some ["Sc"]
  | "sk" | "modifiersymbol" => some ["Sk"]
  | "so" | "othersymbol" => some ["So"]
  | "z" | "separator" => some ["Zs", "Zl", "Zp"]
  | "zs" | "spaceseparator" => some ["Zs"]
  | "zl" | "lineseparator" => some ["Zl"]
  | "zp" | "paragraphseparator" => some ["Zp"]
  | "c" | "other" => some ["Cc", "Cf", "Cn", "Co"]
  | "cc" | "control" | "cntrl" => some ["Cc"]
  | "cf" | "format" => some ["Cf"]
  | "cn" | "unassigned" => some ["Cn"]
  | "co" | "privateuse" => some ["Co"]
  | _ => none

namespace Class

def ofCategories (categories : List String) : Class :=
  if categories = ["Nd"] then digit else ranges (Text.rangesOfCategories categories)

/-- The general category of a name, or one of the three names that are used like one. -/
def ofCategoryName? (name : String) : Option Class :=
  match name with
  | "any" => some (compl empty)
  | "ascii" => some (ranges [(0, 0x7F)])
  | "assigned" => some (compl (ofCategories ["Cn"]))
  | _ => (categoriesNamed? name).map ofCategories

def ofScriptName? (name : String) : Option Class :=
  let scripts := (Text.words Text.scriptNames).map (·.splitOn "=")
  (scripts.find? (·.any fun n => looseName n.toList == name)).bind fun names =>
    names.head?.map fun script => ranges (Text.rangesOfScript script)

def ofProperty? (name : String) : Option Class :=
  match name with
  | "alphabetic" | "alpha" =>
    some (union (ofCategories ["Lu", "Ll", "Lt", "Lm", "Lo", "Nl"]) (ranges Text.otherAlphabetic))
  | "lowercase" | "lower" => some (union (ofCategories ["Ll"]) (ranges Text.otherLowercase))
  | "uppercase" | "upper" => some (union (ofCategories ["Lu"]) (ranges Text.otherUppercase))
  | "whitespace" | "wspace" | "space" => some blank
  | "asciihexdigit" | "ahex" => some (ranges [(0x30, 0x39), (0x41, 0x46), (0x61, 0x66)])
  | "hexdigit" | "hex" =>
    some (ranges [(0x30, 0x39), (0x41, 0x46), (0x61, 0x66), (0xFF10, 0xFF19), (0xFF21, 0xFF26),
      (0xFF41, 0xFF46)])
  | _ => (ofCategoryName? name).or (ofScriptName? name)

def ofPropertyValue? (name value : String) : Option Class :=
  match name with
  | "gc" | "generalcategory" => ofCategoryName? value
  | "sc" | "script" => ofScriptName? value
  | _ => none

end Class

end TripleRules.Regex
