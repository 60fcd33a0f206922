import SorobanDevkit.Library.Strings

/-!
# Tokens of a text

Functions that take a text apart into words and look at the shape of a word.
-/

namespace Strings

/-- The string with its ASCII letters in lower case. -/
def asciiLower (s : String) : String := String.ofList (s.toList.map Char.toLower)

/-- The words between white space. -/
def splitWhitespace (s : String) : List String := (splitAt isWhitespace s).filter (· ≠ "")

/-- The string without the characters in front at which `p` holds. -/
def trimStartWhile (p : Char → Bool) (s : String) : String := String.ofList (s.toList.dropWhile p)

/-- The string without the characters at the end at which `p` holds. -/
def trimEndWhile (p : Char → Bool) (s : String) : String :=
  String.ofList (s.toList.reverse.dropWhile p).reverse

/-- The string without the characters at both ends at which `p` holds. -/
def trimWhile (p : Char → Bool) (s : String) : String := trimEndWhile p (trimStartWhile p s)

/-- The string has the suffix `p`. -/
def endsWith (p s : String) : Bool := decide (p.toList <:+ s.toList)

/-- The string before the suffix `p`, if it has that suffix. -/
def stripSuffix (p s : String) : Option String :=
  if p.toList <:+ s.toList then
    some (String.ofList (s.toList.take (s.toList.length - p.toList.length)))
  else none

/-- The number of bytes of the string in UTF-8. -/
def byteLength (s : String) : ℕ := s.toList.foldl (fun n c => n + c.utf8Size) 0

end Strings
