import JarCensus.FileSystem.Basic
import JarCensus.FileSystem.Glob.Limit
import JarCensus.FileSystem.Glob.Reader
import JarCensus.Text.Blank
import JarCensus.Text.Utf8

/-!
# Ignore files

A file `.ignore` hides files and folders below its own folder. Each line is a pattern;
the last pattern that describes a path decides, and one that starts with an
exclamation mark shows it again. A pattern with a slash at its start or within it is
matched from the folder of the file, any other at every depth; one that ends in a
slash describes folders only. A line that is no pattern is a fault and rules nothing;
patterns beyond the limits of globs leave the whole file without rules.
-/

namespace JarCensus.Ignore

/-- The path of the ignore file in a folder. -/
def fileIn (folder : String) : String := Path.join folder ".ignore"

/-- What an ignore file says of a path. -/
inductive Verdict where
  /-- The path is hidden. -/
  | hide
  /-- The path is shown. -/
  | reveal
  deriving DecidableEq, Repr

/-- A line of an ignore file. -/
structure Rule where
  /-- What the line says of the paths that it describes. -/
  verdict : Verdict
  /-- Whether the line describes folders only. -/
  foldersOnly : Bool
  /-- The paths that the line describes, from the folder of the file. -/
  glob : Glob

/-- What is wrong with a line of an ignore file. -/
inductive LineFault where
  /-- The line is no pattern. -/
  | badPattern (line : String) (error : Glob.PatternError)
  /-- The line is not UTF-8. -/
  | notUtf8
  deriving DecidableEq, Repr

/-- The message of a line fault. -/
def LineFault.message : LineFault → String
  | .badPattern line error => "error parsing glob '" ++ line ++ "': " ++ error.message
  | .notUtf8 => "stream did not contain valid UTF-8"

namespace Rule

/-- The pattern of a whole path: one without a place in the tree is looked for at every
depth, and one that ends in `/**` describes what is inside only. -/
def wholePattern (isAnchored : Bool) (pattern : List Char) : List Char :=
  let doubleStarFirst := "**/".toList.isPrefixOf pattern || pattern == "**".toList
  let placed :=
    if !isAnchored && !pattern.contains '/' && !doubleStarFirst then "**/".toList ++ pattern
    else pattern
  if "/**".toList.isSuffixOf placed then placed ++ "/*".toList else placed

/-- The line without the blanks at its end, unless a backslash keeps the last one. -/
def withoutTrail (line : List Char) : List Char :=
  if "\\ ".toList.isSuffixOf line then line else Text.trimEnd line

/-- The rule of a line, unless it is empty or a comment. -/
def ofLine (line : List Char) : Except LineFault (Option Rule) :=
  let line := withoutTrail line
  if line.isEmpty || line.head? == some '#' then .ok none
  else
    let (verdict, isAnchored, pattern) : Verdict × Bool × List Char :=
      match line with
      | '\\' :: '!' :: rest => (.hide, false, '!' :: rest)
      | '\\' :: '#' :: rest => (.hide, false, '#' :: rest)
      | '!' :: '/' :: rest => (.reveal, true, rest)
      | '!' :: rest => (.reveal, false, rest)
      | '/' :: rest => (.hide, true, rest)
      | _ => (.hide, false, line)
    let foldersOnly := pattern.getLast? = some '/'
    let pattern :=
      if foldersOnly then
        let shorter := pattern.dropLast
        if shorter.getLast? = some '\\' then shorter.dropLast else shorter
      else pattern
    match Glob.ofPattern (wholePattern isAnchored pattern) with
    | .ok glob => .ok (some ⟨verdict, foldersOnly, glob⟩)
    | .error error => .error (.badPattern (String.ofList line) error)

end Rule

/-- The character that some editors put in front of a text. -/
def byteOrderMark : Char := '\uFEFF'

/-- The bytes of a line without a carriage return at its end. -/
def withoutReturn (line : Bytes) : Bytes :=
  if line.getLast? = some 0x0D then line.dropLast else line

/-- The lines of the bytes. A line that a line feed ends loses a carriage return in front
of it too. -/
def byteLines (bytes : Bytes) : List Bytes :=
  let lines := Text.splitAt 0x0A bytes
  lines.dropLast.map withoutReturn ++ lines.getLast?.toList

/-- An ignore file that was read. -/
structure RuleFile where
  /-- The rules of the lines. -/
  rules : List Rule
  /-- What is wrong with lines, each with its number. -/
  lineFaults : List (Nat × LineFault)

namespace RuleFile

/-- Reads lines from the given number on, up to the first that is not UTF-8. -/
def readLines : Nat → List Bytes → RuleFile
  | _, [] => ⟨[], []⟩
  | number, line :: rest =>
    match Text.Utf8.decode? line with
    | none => ⟨[], [(number, .notUtf8)]⟩
    | some text =>
      let others := readLines (number + 1) rest
      match Rule.ofLine (if number = 1 then text.dropWhile (· == byteOrderMark) else text) with
      | .ok rule? => { others with rules := rule?.toList ++ others.rules }
      | .error fault => { others with lineFaults := (number, fault) :: others.lineFaults }

/-- Reads the bytes of an ignore file. -/
def ofBytes (bytes : Bytes) : RuleFile := readLines 1 (byteLines bytes)

/-- What keeps the rules of the file from holding. -/
def limitFault? (file : RuleFile) : Option Glob.LimitFault :=
  Glob.LimitFault.ofGlobs? (file.rules.map (·.glob))

/-- The rules of the file that hold. -/
def validRules (file : RuleFile) : List Rule :=
  if file.limitFault?.isSome then [] else file.rules

/-- What is to be said of the file at a path. Bytes that are not UTF-8 are worth no
complaint of their own. -/
def complaints (file : RuleFile) (path : String) : List String :=
  let ofLines :=
    match file.lineFaults with
    | [(_, .notUtf8)] => []
    | faults => faults.map fun (number, fault) => s!"{path}: line {number}: {fault.message}"
  ofLines ++ file.limitFault?.toList.map (·.message)

end RuleFile

/-- What the rules say of a path: the last one that describes it decides. -/
def verdict? (rules : List Rule) (path : Bytes) (isFolder : Bool) : Option Verdict :=
  (rules.reverse.find? fun rule =>
    (!rule.foldersOnly || isFolder) && rule.glob.describes path).map (·.verdict)

/-- The path without a dot in front of it that says nothing. -/
def dropDot : List Char → List Char
  | '.' :: '/' :: rest => rest
  | path => path

/-- The part of a path behind a text that it starts with, if it does, and behind a slash
that follows. -/
def behind (start path : List Char) : List Char :=
  match start.isPrefixOf? path with
  | some ('/' :: rest) => rest
  | some rest => rest
  | none => path

/-- The rules that hold in a folder. -/
structure Scope where
  /-- The path of the folder, as paths of what is in it start. -/
  folder : String
  /-- The rules. -/
  rules : List Rule

namespace Scope

/-- The part of a path that the patterns of a scope describe. It is told by the text of
the path: a folder that is spelled in another way than the path starts is not taken off. -/
def within (scope : Scope) (path : List Char) : List Char :=
  let path := dropDot path
  let folder := dropDot scope.folder.toList
  if Path.parts (String.ofList folder) = ["."] || !path.contains '/' then path
  else behind folder path

/-- What the scopes, innermost first, say of a path. The first one that says anything
decides. -/
def verdict? (scopes : List Scope) (path : List Char) (isFolder : Bool) : Option Verdict :=
  scopes.findSome? fun scope =>
    Ignore.verdict? scope.rules (Text.Utf8.encode (scope.within path)) isFolder

end Scope

/-- The file that holds the rules of the folder at a path, if it can be read. -/
def ruleFile? (fs : FileSystem) (folder : String) : Option RuleFile :=
  (fs.read (fileIn folder)).toOption.map RuleFile.ofBytes

/-- The scope of the ignore file of a folder, if it can be read. -/
def scope? (fs : FileSystem) (folder : String) : Option Scope :=
  (ruleFile? fs folder).map fun file => ⟨folder, file.validRules⟩

/-- The paths of the folders above a location, outermost first. -/
def foldersAbove (location : Location) : List String :=
  (List.range location.length).map fun count => Path.ofNames (location.take count)

/-- What is to be said of the ignore files of the folders above a location, outermost
first. -/
def complaintsAbove (fs : FileSystem) (location : Location) : List String :=
  (foldersAbove location).flatMap fun folder =>
    (ruleFile? fs folder).toList.flatMap (·.complaints (fileIn folder))

/-- The scopes of the folders above a location, innermost first. -/
def scopesAbove (fs : FileSystem) (location : Location) : List Scope :=
  (foldersAbove location).reverse.filterMap (scope? fs)

end JarCensus.Ignore
