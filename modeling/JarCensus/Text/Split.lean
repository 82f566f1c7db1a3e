/-!
# Splitting at a separator

A list splits at every occurrence of a separator into one more part than there are
separators.
-/

namespace JarCensus.Text

variable {α : Type} [DecidableEq α]

/-- The parts between the separators. -/
def splitAt (separator : α) : List α → List (List α)
  | [] => [[]]
  | c :: rest =>
    match splitAt separator rest with
    | [] => [[c]]
    | first :: others =>
      if c = separator then [] :: first :: others else (c :: first) :: others

end JarCensus.Text
