import JarCensus.FileSystem.Glob.Basic
import JarCensus.Hex

/-!
# Globs as regular expressions

A glob that is more than characters is matched as a regular expression over bytes. This
file gives the text of the expression, which complaints name.
-/

namespace JarCensus.Glob

/-- The characters that mean something in expressions. -/
def specialChars : List Char := "\\.+*?()|[]\x7b\x7d^$#&-~".toList

/-- The text of a byte by its number. -/
def byteText (byte : UInt8) : String :=
  "\\x" ++ String.ofList ((Hex.encode [byte]).map fun digit => Char.ofNat digit.toNat)

/-- The text of a character in an expression over bytes. -/
def charText (c : Char) : String :=
  if c.toNat < 128 then
    (if specialChars.contains c then "\\" else "") ++ c.toString
  else
    String.join ((String.utf8EncodeChar c).map byteText)

/-- The text of a range of characters in a set. -/
def rangeText (low high : Char) : String :=
  if low = high then charText low else charText low ++ "-" ++ charText high

mutual

/-- The text of the expression of a token. -/
def Token.text : Token → String
  | .char c => charText c
  | .anyByte => "[^/]"
  | .anyBytes => "[^/]*"
  | .set negated ranges =>
    "[" ++ (if negated then "^" else "") ++
      String.join (ranges.map fun (low, high) => rangeText low high) ++ "]"
  | .anyFoldersBefore => "(?:/?|.*/)"
  | .anyFoldersBetween => "(?:/|/.*/)"
  | .anythingInside => "/.*"
  | .choice [] => ""
  | .choice alternatives => "(?:" ++ "|".intercalate (textsOfAny alternatives) ++ ")"

/-- The text of the expression of tokens. -/
def text : List Token → String
  | [] => ""
  | token :: rest => token.text ++ text rest

/-- The texts of the expressions of alternatives. -/
def textsOfAny : List (List Token) → List String
  | [] => []
  | tokens :: rest => text tokens :: textsOfAny rest

end

/-- The text of the expression of a glob. -/
def expressionText (glob : Glob) : String := "(?-u)^" ++ text glob.tokens ++ "$"

/-- How a glob is matched. -/
inductive Strategy where
  /-- By comparing texts. -/
  | comparison
  /-- By its expression, for paths of the extension that it ends in. -/
  | extension
  /-- By its expression. -/
  | expression
  deriving DecidableEq, Repr

/-- The character of a token that is one. -/
def Token.char? : Token → Option Char
  | .char c => some c
  | _ => none

/-- Whether the tokens end in a dot and further characters that are no slashes. -/
def endInExtension (tokens : List Token) : Bool :=
  let ending := (tokens.reverse.map Token.char?).takeWhile fun c? =>
    c?.any fun c => c != '/' && c != '.'
  (tokens.reverse.drop ending.length).head?.any fun token => token.char? == some '.'

/-- Whether the tokens are a dot and further characters that are no slashes. -/
def areExtension : List Token → Bool
  | .char '.' :: rest => rest.all fun token => token.char?.any fun c => c != '/' && c != '.'
  | _ => false

/-- How a glob is matched. Characters alone are compared, also behind any folders, and so
is an extension behind any folders and any name. -/
def strategy (glob : Glob) : Strategy :=
  let afterFolders :=
    match glob.tokens with
    | .anyFoldersBefore :: .anyBytes :: rest => if areExtension rest then rest else glob.tokens
    | .anyFoldersBefore :: rest => rest
    | tokens => tokens
  if !afterFolders.isEmpty && afterFolders.all (·.char?.isSome) then .comparison
  else if endInExtension glob.tokens then .extension
  else .expression

end JarCensus.Glob
