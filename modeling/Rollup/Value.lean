import Rollup.Number.Shortest

/-!
# Dynamic values and dictionaries

`Value` is the type of data without a fixed shape: node metadata, the details of a finding, and
the reports of the command line. `Dict` is a finite map from texts, kept in ascending key order.

Results:

* `Dict.get?_insert`: an insertion is seen under its own key and under no other.
-/

namespace Rollup

/-- A value without a fixed shape. -/
inductive Value where
  | null
  | bool (b : Bool)
  | int (n : Int)
  | number (x : Binary64)
  | text (s : String)
  | list (items : List Value)
  | object (fields : List (String × Value))
  deriving Repr, BEq, Inhabited

namespace Value

/-- The truth value, if the value is one. -/
def bool? : Value → Option Bool
  | .bool b => some b
  | _ => none

/-- The fields of an object; any other value has none. -/
def fields : Value → List (String × Value)
  | .object fs => fs
  | _ => []

/-- The last field of an object with the given name. -/
def field? (v : Value) (name : String) : Option Value :=
  (v.fields.reverse.find? (·.1 == name)).map (·.2)

/-- A list of texts. -/
def texts (ss : List String) : Value :=
  .list (ss.map .text)

/-- A value, or null where there is none. -/
def ofOption {α : Type} (f : α → Value) : Option α → Value
  | none => .null
  | some a => f a

end Value

/-- A finite map from texts to `α`: pairs in strictly ascending key order. -/
abbrev Dict (α : Type) := List (String × α)

namespace Dict

variable {α : Type}

/-- Puts `v` at `k`, in place of what stood there. -/
def insert (k : String) (v : α) : Dict α → Dict α
  | [] => [(k, v)]
  | (k', v') :: rest =>
    if k < k' then (k, v) :: (k', v') :: rest
    else if k = k' then (k, v) :: rest
    else (k', v') :: insert k v rest

/-- The entry at `k`. -/
def get? (k : String) (d : Dict α) : Option α :=
  (d.find? (·.1 == k)).map (·.2)

/-- Puts `v` at `k` unless something stands there already. -/
def insertNew (k : String) (v : α) (d : Dict α) : Dict α :=
  if (get? k d).isSome then d else insert k v d

/-- The keys in ascending order. -/
def keys (d : Dict α) : List String :=
  d.map (·.1)

/-- The entries of a list of pairs; of several with one key the last one counts. -/
def ofList (pairs : List (String × α)) : Dict α :=
  pairs.foldl (fun d p => insert p.1 p.2 d) []

/-- `d` overlaid with the entries of `e`. -/
def overlay (d e : Dict α) : Dict α :=
  e.foldl (fun acc p => insert p.1 p.2 acc) d

/-- The distinct texts of a list in ascending order. -/
def sortedDistinct (texts : List String) : List String :=
  keys (ofList (texts.map fun t => (t, ())))

theorem get?_insert (k j : String) (v : α) (d : Dict α) :
    get? j (insert k v d) = if j = k then some v else get? j d := by
  induction d with
  | nil =>
    by_cases h : j = k
    · simp [insert, get?, h]
    · have : ¬ k = j := fun e => h e.symm
      simp [insert, get?, h, this]
  | cons p rest ih =>
    obtain ⟨k', v'⟩ := p
    simp only [insert]
    split
    · by_cases h : j = k
      · simp [get?, h]
      · have : ¬ k = j := fun e => h e.symm
        simp [get?, h, this]
    · split
      · rename_i h1 h2
        subst h2
        by_cases h : j = k
        · simp [get?, h]
        · have : ¬ k = j := fun e => h e.symm
          simp [get?, h, this]
      · rename_i h1 h2
        simp only [get?, List.find?_cons] at ih ⊢
        by_cases h : k' = j
        · have : ¬ j = k := fun e => h2 (e.symm.trans h.symm)
          simp [h, this]
        · simp only [beq_eq_false_iff_ne.mpr h]
          exact ih

end Dict

end Rollup
