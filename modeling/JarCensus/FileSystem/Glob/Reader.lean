import JarCensus.FileSystem.Glob.Basic

/-!
# Reading glob patterns

`?` stands for one byte and `*` for any number of bytes, neither of them a slash; `[…]`
stands for one byte of a set, `**` for any number of folders, and `{…,…}` for one of its
alternatives. A backslash takes the character after it as it is. A bracket that nothing
closes stands for itself, and so do all brackets after it.
-/

namespace JarCensus.Glob

/-- Why a text is no pattern. -/
inductive PatternError where
  /-- A range of a set ends before its start. -/
  | invalidRange (low high : Char)
  /-- A brace closes nothing. -/
  | unopenedBrace
  /-- A brace is not closed. -/
  | unclosedBrace
  /-- A backslash is the last character. -/
  | lastBackslash
  deriving DecidableEq, Repr

/-- The message of a pattern error. -/
def PatternError.message : PatternError → String
  | .invalidRange low high => "invalid range; '" ++ low.toString ++ "' > '" ++ high.toString ++ "'"
  | .unopenedBrace =>
    "unopened alternate group; missing '\x7b' (maybe escape '\x7d' with '[\x7d]'?)"
  | .unclosedBrace =>
    "unclosed alternate group; missing '\x7d' (maybe escape '\x7b' with '[\x7b]'?)"
  | .lastBackslash => "dangling '\\'"

/-- A pattern as far as it was read. Tokens and alternatives stand in reverse. -/
structure Draft where
  /-- The tokens of the branch that is being read. -/
  tokens : List Token
  /-- For each open brace, innermost first, the tokens before it and the alternatives
  that were finished. -/
  enclosing : List (List Token × List (List Token))
  /-- Whether a bracket was found that nothing closes. -/
  hasLoneBracket : Bool

namespace Draft

/-- The draft of a pattern that was not begun. -/
def empty : Draft := ⟨[], [], false⟩

/-- Whether some brace is open. -/
def isInBraces (draft : Draft) : Bool := !draft.enclosing.isEmpty

/-- The draft with a token added. -/
def add (draft : Draft) (token : Token) : Draft :=
  { draft with tokens := token :: draft.tokens }

/-- The draft after a brace is opened. -/
def openBrace (draft : Draft) : Draft :=
  { draft with tokens := [], enclosing := (draft.tokens, []) :: draft.enclosing }

/-- The draft after a comma, which separates alternatives only between braces. -/
def comma (draft : Draft) : Draft :=
  match draft.enclosing with
  | [] => draft.add (.char ',')
  | (before, finished) :: outer =>
    { draft with
      tokens := []
      enclosing := (before, draft.tokens.reverse :: finished) :: outer }

/-- The draft after a brace is closed, if one was open. Blank alternatives do not count. -/
def closeBrace (draft : Draft) : Except PatternError Draft :=
  match draft.enclosing with
  | [] => .error .unopenedBrace
  | (before, finished) :: outer =>
    let alternatives := (draft.tokens.reverse :: finished).reverse
    .ok
      { draft with
        tokens := .choice (alternatives.filter (!isBlank ·)) :: before
        enclosing := outer }

/-- The draft after two stars that stand between slashes, or between a slash and the end
of their branch. The token takes the place of the slash before them, unless there are
stars before that slash which say as much. -/
def replaceSlash (draft : Draft) (token : Token) : Draft :=
  match draft.tokens with
  | .anyFoldersBefore :: _ | .anythingInside :: _ => draft
  | tokens => { draft with tokens := token :: tokens.tail }

/-- Whether two stars after the character `before` may stand for folders: after a slash,
or, between braces, after what begins an alternative. -/
def permitsFolders (draft : Draft) (before : Option Char) : Bool :=
  before == some '/' || draft.isInBraces && (before == some ',' || before == some '\x7b')

/-- The draft after two stars that follow the character `before`. Gives the draft, the
character before what is left, and what is left, from which a slash is taken along. -/
def doubleStar (draft : Draft) (before : Option Char) (rest : List Char) :
    Draft × Char × List Char :=
  let plain := ((draft.add .anyBytes).add .anyBytes, '*', rest)
  if draft.tokens.isEmpty then
    match rest with
    | [] => (draft.add .anyFoldersBefore, '*', [])
    | '/' :: after => (draft.add .anyFoldersBefore, '/', after)
    | _ => plain
  else if draft.permitsFolders before then
    match rest with
    | [] => (draft.replaceSlash .anythingInside, '*', [])
    | '/' :: after => (draft.replaceSlash .anyFoldersBetween, '/', after)
    | c :: _ =>
      if draft.isInBraces && (c == ',' || c == '\x7d') then
        (draft.replaceSlash .anythingInside, '*', rest)
      else plain
  else plain

end Draft

/-- Reads the rest of a set up to its closing bracket, if there is one. `isFirst` says
that nothing of the set was read, `isRange` that a dash asks for the end of a range; the
ranges are in reverse. -/
def readSet (isFirst isRange : Bool) (ranges : List (Char × Char)) :
    List Char → Except PatternError (Option (List (Char × Char) × List Char))
  | [] => .ok none
  | c :: rest =>
    if c == ']' && !isFirst then
      .ok (some ((if isRange then ('-', '-') :: ranges else ranges).reverse, rest))
    else if c == '-' && !isFirst && !isRange then readSet false true ranges rest
    else
      match isRange, ranges with
      | true, (low, _) :: others =>
        if c < low then .error (.invalidRange low c)
        else readSet false false ((low, c) :: others) rest
      | _, _ => readSet false false ((c, c) :: ranges) rest

/-- Whether a set is negated, and what follows the mark of that. -/
def readNegation : List Char → Bool × List Char
  | '!' :: rest | '^' :: rest => (true, rest)
  | rest => (false, rest)

/-- Reads what follows the bracket of a set. Gives the draft, the character before what is
left, and what is left. -/
def readBracket (draft : Draft) (rest : List Char) :
    Except PatternError (Draft × Char × List Char) := do
  let lone := ({ draft with hasLoneBracket := true }.add (.char '['), '[', rest)
  if draft.hasLoneBracket then return lone
  let (negated, inside) := readNegation rest
  match ← readSet true false [] inside with
  | some (ranges, after) => return (draft.add (.set negated ranges), ']', after)
  | none => return lone

/-- Reads a pattern. The fuel is the number of its characters, each of which is read
once; `before` is the character in front of them. -/
def readPattern : Nat → Option Char → List Char → Draft → Except PatternError Draft
  | _, _, [], draft => if draft.isInBraces then .error .unclosedBrace else .ok draft
  | 0, _, _ :: _, draft => .ok draft
  | fuel + 1, before, c :: rest, draft => do
    match c, rest with
    | '?', _ => readPattern fuel (some c) rest (draft.add .anyByte)
    | '*', '*' :: after =>
      let (draft, before, left) := draft.doubleStar before after
      readPattern fuel (some before) left draft
    | '*', _ => readPattern fuel (some c) rest (draft.add .anyBytes)
    | '[', _ =>
      let (draft, before, left) ← readBracket draft rest
      readPattern fuel (some before) left draft
    | '\x7b', _ => readPattern fuel (some c) rest draft.openBrace
    | '\x7d', _ => readPattern fuel (some c) rest (← draft.closeBrace)
    | ',', _ => readPattern fuel (some c) rest draft.comma
    | '\\', [] => throw .lastBackslash
    | '\\', d :: after => readPattern fuel (some d) after (draft.add (.char d))
    | _, _ => readPattern fuel (some c) rest (draft.add (.char c))

/-- The glob that a pattern spells. -/
def ofPattern (pattern : List Char) : Except PatternError Glob := do
  let draft ← readPattern pattern.length none pattern .empty
  return ⟨draft.tokens.reverse⟩

end JarCensus.Glob
