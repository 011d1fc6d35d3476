/-!
# Classes of characters as runs

A class of characters is given by the runs of code points that it consists of.
-/

namespace StreamWatch

/-- The first and last code point of each run, in ascending order. -/
abbrev CharRuns := Array (Nat × Nat)

/-- Whether a character lies in one of the runs. -/
def CharRuns.covers (runs : CharRuns) (c : Char) : Bool :=
  runs.any fun (first, last) => first ≤ c.toNat && c.toNat ≤ last

end StreamWatch
