import JarCensus.FileSystem.Glob.Expression

/-!
# Limits of globs

The expression of a glob may nest 250 levels deep. Characters, flags and anchors are no
level of their own; a set, a set of several ranges, a repetition, a group, a list of
alternatives and a row of several items are one level each. The automaton that matches
expressions may take ten mebibytes. Globs that end in an extension have an automaton
each, and the other expressions share one.
-/

namespace JarCensus.Glob

/-- The number of levels that an expression may have. -/
def maxDepth : Nat := 250

/-- The number of bytes that an automaton may take. -/
def maxMemory : Nat := 10485760

/-- The number of items that a token adds to a row. -/
def Token.itemCount : Token → Nat
  | .char c => (String.utf8EncodeChar c).length
  | .anythingInside => 2
  | .choice [] => 0
  | _ => 1

/-- One more level if there are several. -/
def levelIfSeveral (count : Nat) : Nat := if 1 < count then 1 else 0

mutual

/-- The number of levels of a token. -/
def Token.depth : Token → Nat
  | .char _ => 0
  | .anyByte => 1
  | .anyBytes => 2
  | .set _ ranges =>
    1 + levelIfSeveral (ranges.flatMap fun (low, high) => byteRanges low high).length
  | .anyFoldersBefore | .anyFoldersBetween => 4
  | .anythingInside => 1
  | .choice [] => 0
  | .choice alternatives => 1 + levelIfSeveral alternatives.length + depthOfAny alternatives

/-- The number of levels of the deepest of some tokens. -/
def depth : List Token → Nat
  | [] => 0
  | token :: rest => max token.depth (depth rest)

/-- The number of levels of the deepest of some rows. -/
def depthOfAny : List (List Token) → Nat
  | [] => 0
  | tokens :: rest =>
    max (depth tokens + levelIfSeveral (tokens.map Token.itemCount).sum) (depthOfAny rest)

end

/-- Whether the expression of a glob, which is a row between anchors, has too many
levels. -/
def isTooDeep (glob : Glob) : Bool := maxDepth < 1 + depth glob.tokens

/-- The number of bytes that a state of an automaton takes. -/
def stateSize : Nat := 32

/-- The number of bytes of a state that leads on by some ranges, with its end. There are
at most 128 ranges with gaps between them. -/
def rangesSize (count : Nat) : Nat :=
  2 * stateSize + if 1 < count then 8 * min count 128 else 0

/-- The number of bytes of a state that leads to some states, without these. -/
def forkSize (count : Nat) : Nat := stateSize + 4 * count

/-- The number of bytes of a repetition of something of the given size. -/
def repeatSize (size : Nat) : Nat := forkSize 2 + size

/-- Whether tokens are one that stands for one byte. -/
def isOneByte : List Token → Bool
  | [.char c] => c.toNat < 128
  | [.anyByte] | [.set ..] => true
  | _ => false

mutual

/-- The number of bytes of the automaton of a token. Alternatives of one byte each are no
more than a set. -/
def Token.memory : Token → Nat
  | .char c => stateSize * (String.utf8EncodeChar c).length
  | .anyByte => rangesSize 2
  | .anyBytes => repeatSize (rangesSize 2)
  | .set false [(low, high)] => if low = high then stateSize else rangesSize 1
  | .set negated ranges => rangesSize (ranges.length + if negated then 1 else 0)
  | .anyFoldersBefore =>
    forkSize 2 + stateSize + (forkSize 2 + 2 * stateSize) +
      (repeatSize (rangesSize 1) + stateSize)
  | .anyFoldersBetween =>
    forkSize 2 + stateSize + stateSize + (2 * stateSize + repeatSize (rangesSize 1))
  | .anythingInside => stateSize + repeatSize (rangesSize 1)
  | .choice [] => 0
  | .choice [tokens] => memory tokens
  | .choice alternatives =>
    if alternatives.all isOneByte then rangesSize alternatives.length
    else forkSize alternatives.length + stateSize + memoryOfAll alternatives

/-- The number of bytes of the automata of tokens. -/
def memory : List Token → Nat
  | [] => 0
  | token :: rest => token.memory + memory rest

/-- The number of bytes of the automata of alternatives. -/
def memoryOfAll : List (List Token) → Nat
  | [] => 0
  | tokens :: rest => memory tokens + memoryOfAll rest

end

/-- Whether the automaton of globs takes too much memory. It has a state of its own, and
for each glob two for the path, two anchors and one for the end. -/
def areTooLarge (globs : List Glob) : Bool :=
  let count := globs.length
  let fork := if 1 < count then forkSize count + stateSize else 0
  maxMemory < stateSize + fork + 5 * stateSize * count + memoryOfAll (globs.map (·.tokens))

/-- What keeps globs from being matched. -/
inductive LimitFault where
  /-- The expression of this number nests too deep. -/
  | tooDeep (number : Nat)
  /-- The automaton is too large. -/
  | tooLarge
  /-- There is such a fault with the expression of this text, which ends in an
  extension. -/
  | ofExtension (expression : String) (fault : LimitFault)
  deriving DecidableEq, Repr

namespace LimitFault

/-- The message of a limit fault. -/
def message : LimitFault → String
  | .tooDeep number => s!"error parsing pattern {number}"
  | .tooLarge => "error building NFA"
  | .ofExtension expression fault =>
    "error parsing glob '" ++ expression ++ "': " ++ fault.message

/-- What keeps expressions from being matched by one automaton. -/
def ofExpressions? (globs : List Glob) : Option LimitFault :=
  match globs.findIdx? Glob.isTooDeep with
  | some number => some (.tooDeep number)
  | none => if areTooLarge globs then some .tooLarge else none

/-- What keeps globs from being matched. Those that end in an extension come first. -/
def ofGlobs? (globs : List Glob) : Option LimitFault :=
  let ofExtensions? := (globs.filter (·.strategy = .extension)).findSome? fun glob =>
    (ofExpressions? [glob]).map (.ofExtension glob.expressionText)
  ofExtensions? <|> ofExpressions? (globs.filter (·.strategy = .expression))

end LimitFault

end JarCensus.Glob
