import Scaffold.Naming.Case
import Scaffold.Text.Blank

/-! English plurals. Only the last word of an identifier changes. -/

namespace Scaffold.Naming

open Text

/-- Words that are their own plural. -/
def uncountable : List String :=
  ["equipment", "deer", "fish", "information", "metadata", "news", "series", "sheep", "species"]

/-- Words whose plural follows no rule. -/
def irregular : List (String × String) :=
  [("analysis", "analyses"), ("child", "children"), ("criterion", "criteria"), ("foot", "feet"),
   ("goose", "geese"), ("index", "indices"), ("man", "men"), ("matrix", "matrices"),
   ("mouse", "mice"), ("ox", "oxen"), ("person", "people"), ("tooth", "teeth"),
   ("vertex", "vertices"), ("woman", "women")]

/-- Words in `-fe` whose plural is in `-ves`. -/
def feToVes : List String := ["knife", "life", "wife"]

/-- Words in `-f` whose plural is in `-ves`. -/
def fToVes : List String := ["calf", "elf", "half", "leaf", "loaf", "shelf", "thief", "wolf"]

/-- Words in `-o` whose plural is in `-oes`. -/
def oToOes : List String := ["echo", "hero", "potato", "tomato", "veto"]

/-- Endings after which the plural takes `-es`. -/
def sibilants : List (List Char) := [['s'], ['x'], ['z'], ['c', 'h'], ['s', 'h']]

/-- Whether a text ends in a consonant and `y`. -/
def endsInConsonantY (s : List Char) : Bool :=
  match s.reverse with
  | 'y' :: c :: _ => !(['a', 'e', 'i', 'o', 'u'].contains c)
  | _ => false

/-- Gives `plural` the case of `word`: all capitals, a first capital, or as it stands. -/
def matchCase (word plural : List Char) : List Char :=
  if 1 < word.length && word.all (!isLower ·) then uppercase plural
  else if word.head?.any isUpper then capitalize plural
  else plural

/-- The plural of one word. -/
def pluralWord (word : List Char) : List Char :=
  let singular := String.ofList (lowercase word)
  if uncountable.contains singular then word
  else match irregular.lookup singular with
    | some plural => matchCase word plural.toList
    | none =>
      if feToVes.contains singular then word.take (word.length - 2) ++ ['v', 'e', 's']
      else if fToVes.contains singular then word.take (word.length - 1) ++ ['v', 'e', 's']
      else if oToOes.contains singular then word ++ ['e', 's']
      else if sibilants.any (·.isSuffixOf singular.toList) then word ++ ['e', 's']
      else if endsInConsonantY singular.toList then word.take (word.length - 1) ++ ['i', 'e', 's']
      else word ++ ['s']

/-- The plural of the last word; what follows that word is dropped, and a text without words stays
    as it is. -/
def pluralChars (s : List Char) : List Char :=
  let stem := dropEndWhile (!isAlphanumeric ·) s
  match (wordsOf stem).getLast? with
  | none => s
  | some last => stem.take (stem.length - last.length) ++ pluralWord last

/-- The plural of a name: `Widget` becomes `Widgets`, `ClusterPolicy` becomes `ClusterPolicies`. -/
def pluralize (s : String) : String := String.ofList (pluralChars s.toList)

end Scaffold.Naming
