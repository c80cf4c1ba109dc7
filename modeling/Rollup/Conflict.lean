/-!
# Conflicting hierarchy ids

Within a file the first group with a hierarchy id counts and repeats are skipped; a group whose
id is stored already is skipped too.
-/

namespace Rollup.Conflict

/-- The keys whose id occurs earlier in the list; `seen` holds the ids passed so far. -/
def repeatsAfter {κ : Type} : (seen : List String) → List (κ × String) → List (κ × String)
  | _, [] => []
  | seen, key :: rest =>
    if key.2 ∈ seen then key :: repeatsAfter seen rest else repeatsAfter (key.2 :: seen) rest

/-- The keys whose id occurs earlier in the list. -/
def repeats {κ : Type} (keys : List (κ × String)) : List (κ × String) :=
  repeatsAfter [] keys

/-- The keys whose id is among the existing ones. -/
def existing {κ : Type} (ids : List String) (keys : List (κ × String)) : List (κ × String) :=
  keys.filter fun key => ids.contains key.2

end Rollup.Conflict
