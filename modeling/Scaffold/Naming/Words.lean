import Scaffold.Text.Letters

/-! The words of an identifier: it is cut at every character that is neither letter nor digit and at
    changes of case (`fooBar`, `HTTPServer`, `v1Beta`). -/

namespace Scaffold.Naming

open Text

/-- Whether a new word begins with `c` after `prev`, where `next` follows `c`: a capital after a
    lower case letter or a digit, or the last capital of several before a lower case letter. -/
def isBoundary (prev c : Char) (next : Option Char) : Bool :=
  ((isLower prev || prev.isDigit) && isUpper c) || (isUpper prev && isUpper c && next.any isLower)

/-- Whether `c` belongs to the word that the text after it begins with. -/
def joinsNext (c : Char) : List Char → Bool
  | [] => false
  | d :: rest => isAlphanumeric d && !isBoundary c d rest.head?

/-- The words of a text, from its end on: a character joins the first word after it or is a new
    one. -/
def wordsOf : List Char → List (List Char)
  | [] => []
  | c :: rest =>
    if isAlphanumeric c then
      if joinsNext c rest then
        match wordsOf rest with
        | word :: words => (c :: word) :: words
        | [] => [[c]]
      else [c] :: wordsOf rest
    else wordsOf rest

/-- The words of an identifier. -/
def words (s : String) : List String := (wordsOf s.toList).map String.ofList

end Scaffold.Naming
