/-
  Workshop/Text/Ascending.lean
  ============================
  **Ascending lists of texts.**  Names that are reported as a set are listed in
  ascending order of their code points, each once.
-/

namespace Workshop.Text

/-- Keeps the first of equal neighbours. -/
def dropRepeats : List String → List String
  | a :: b :: rest => if a = b then dropRepeats (b :: rest) else a :: dropRepeats (b :: rest)
  | xs => xs

/-- The texts of a list in ascending order, each once. -/
def ascending (xs : List String) : List String :=
  dropRepeats (xs.mergeSort fun a b => decide (a ≤ b))

end Workshop.Text
