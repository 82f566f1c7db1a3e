import JarCensus.Bytes

/-!
# Glob patterns

A glob pattern describes whole paths byte by byte. A path is matched token by token: a
token leads from the places of the path that were reached to the places behind what it
describes, and a path is described when its end is reached at last.
-/

namespace JarCensus

namespace Glob

/-- One element of a pattern. -/
inductive Token where
  /-- The bytes of the character itself. -/
  | char (c : Char)
  /-- Any byte but a slash. -/
  | anyByte
  /-- Any bytes but slashes. -/
  | anyBytes
  /-- One byte of the ranges, or, when negated, one byte outside of them. -/
  | set (negated : Bool) (ranges : List (Char × Char))
  /-- Any folders in front of the rest. -/
  | anyFoldersBefore
  /-- Any folders, or none, between two slashes. -/
  | anyFoldersBetween
  /-- Anything inside of the folder before. -/
  | anythingInside
  /-- One of the alternatives, or nothing if there are none. -/
  | choice (alternatives : List (List Token))

/-- Whether tokens stand for nothing at all. -/
def isBlank (tokens : List Token) : Bool :=
  tokens.all fun
    | .choice [] => true
    | _ => false

/-- The slash that separates names. -/
def slash : UInt8 := 0x2F

/-- Whether a byte can be part of a name. -/
def isNameByte (byte : UInt8) : Bool := byte != slash

/-- The byte ranges between two characters: the bytes of both, where the last byte of
the first and the first byte of the second bound a range. -/
def byteRanges (low high : Char) : List (UInt8 × UInt8) :=
  let lows := String.utf8EncodeChar low
  let highs := String.utf8EncodeChar high
  if low == high then lows.map fun byte => (byte, byte)
  else
    lows.dropLast.map (fun byte => (byte, byte)) ++
      [(lows.getLastD 0, highs.headD 0)] ++ highs.tail.map fun byte => (byte, byte)

/-- Whether a byte is in the ranges between characters. -/
def inRanges (ranges : List (Char × Char)) (byte : UInt8) : Bool :=
  ranges.any fun (low, high) =>
    (byteRanges low high).any fun (first, last) => first ≤ byte && byte ≤ last

/-- Marks on the places of a path: before its first byte, and behind each byte. -/
abbrev Marks := List Bool

namespace Marks

/-- The mark in front of a path. -/
def atStart (path : Bytes) : Marks := true :: path.map fun _ => false

/-- The places of either marks. -/
def either (marks others : Marks) : Marks := marks.zipWith (· || ·) others

/-- The places behind one more byte, if that byte passes. -/
def advance (passes : UInt8 → Bool) (path : Bytes) (marks : Marks) : Marks :=
  false :: path.zipWith (fun byte mark => mark && passes byte) marks

/-- The places behind any number of bytes that all pass. -/
def spread (passes : UInt8 → Bool) : Bytes → Marks → Marks
  | byte :: rest, mark :: next :: marks =>
    mark :: spread passes rest ((next || mark && passes byte) :: marks)
  | _, marks => marks

/-- The places behind any bytes up to and with a slash. -/
def throughSlash (path : Bytes) (marks : Marks) : Marks :=
  advance (· == slash) path (spread (fun _ => true) path marks)

end Marks

open Marks in
mutual

/-- The places behind a token that starts at a marked place. -/
def Token.reach (path : Bytes) (marks : Marks) : Token → Marks
  | .char c =>
    (String.utf8EncodeChar c).foldl (fun marks byte => advance (· == byte) path marks) marks
  | .anyByte => advance isNameByte path marks
  | .anyBytes => spread isNameByte path marks
  | .set negated ranges => advance (fun byte => inRanges ranges byte != negated) path marks
  | .anyFoldersBefore => either marks (throughSlash path marks)
  | .anyFoldersBetween =>
    let marks := advance (· == slash) path marks
    either marks (throughSlash path marks)
  | .anythingInside => spread (fun _ => true) path (advance (· == slash) path marks)
  | .choice [] => marks
  | .choice (tokens :: rest) => either (reach path marks tokens) (reachAny path marks rest)

/-- The places behind tokens, one after the other. From no place none is reached. -/
def reach (path : Bytes) (marks : Marks) : List Token → Marks
  | [] => marks
  | token :: rest =>
    if marks.contains true then reach path (token.reach path marks) rest else marks

/-- The places behind one of the alternatives. -/
def reachAny (path : Bytes) (marks : Marks) : List (List Token) → Marks
  | [] => marks.map fun _ => false
  | tokens :: rest => either (reach path marks tokens) (reachAny path marks rest)

end

end Glob

/-- A glob pattern. -/
structure Glob where
  /-- The tokens of the pattern. -/
  tokens : List Glob.Token

/-- Whether the glob describes a path. Two stars alone describe every path. -/
def Glob.describes (glob : Glob) (path : Bytes) : Bool :=
  match glob.tokens with
  | [.anyFoldersBefore] => true
  | tokens => (Glob.reach path (.atStart path) tokens).getLastD false

end JarCensus
