import Scaffold.Naming.Words
import Scaffold.Text.Casing
import Scaffold.Text.Split

/-! Identifiers in the usual letter cases, joined again from their words. -/

namespace Scaffold.Naming

open Text

/-- The first character in upper case and the others in lower case. -/
def capitalize : List Char → List Char
  | [] => []
  | c :: rest => upper c ++ rest.flatMap lower

/-- Every word capitalized, without separators. -/
def upperCamelChars (s : List Char) : List Char := (wordsOf s).flatMap capitalize

/-- The first word in lower case and the others capitalized. -/
def lowerCamelChars (s : List Char) : List Char :=
  match wordsOf s with
  | [] => []
  | word :: words => lowercase word ++ words.flatMap capitalize

/-- The words in lower case with `sep` between them. -/
def lowerJoined (sep : Char) (s : List Char) : List Char :=
  joinWith [sep] ((wordsOf s).map lowercase)

/-- The form of type names: `widget_set` becomes `WidgetSet`. -/
def upperCamel (s : String) : String := String.ofList (upperCamelChars s.toList)

/-- The form of field names: `WidgetSet` becomes `widgetSet`, `HTTPServer` becomes `httpServer`. -/
def lowerCamel (s : String) : String := String.ofList (lowerCamelChars s.toList)

/-- The form of file names: `WidgetSet` becomes `widget_set`. -/
def snakeCase (s : String) : String := String.ofList (lowerJoined '_' s.toList)

/-- The form of web and label names: `WidgetSet` becomes `widget-set`. -/
def kebabCase (s : String) : String := String.ofList (lowerJoined '-' s.toList)

/-- The form for package names, lower case and without separators: `build-image` becomes
    `buildimage`. -/
def packageName (s : String) : String := String.ofList (lowercase (upperCamelChars s.toList))

end Scaffold.Naming
