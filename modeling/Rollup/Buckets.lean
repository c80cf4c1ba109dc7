/-!
# Buckets

Collecting the elements of a list by a key. Buckets come in the order in which their keys first
occur, and the elements of a bucket keep their order.
-/

namespace Rollup

variable {κ α : Type} [DecidableEq κ]

/-- Puts `a` at the end of the bucket of `k`, a new one at the end if there is none. -/
def addToBucket (k : κ) (a : α) : List (κ × List α) → List (κ × List α)
  | [] => [(k, [a])]
  | (k', as) :: rest =>
    if k = k' then (k', as ++ [a]) :: rest else (k', as) :: addToBucket k a rest

/-- The elements collected by key. -/
def buckets (keyed : List (κ × α)) : List (κ × List α) :=
  keyed.foldl (fun acc p => addToBucket p.1 p.2 acc) []

/-- The elements of a list without later repeats. -/
def distinct (ks : List κ) : List κ :=
  ks.foldl (fun seen k => if k ∈ seen then seen else seen ++ [k]) []

end Rollup
