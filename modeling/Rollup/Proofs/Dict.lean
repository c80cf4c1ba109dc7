import Mathlib.Data.List.Nodup
import Mathlib.Tactic.SplitIfs
import Rollup.Value

/-!
# Laws of association lists and dictionaries

In a list of pairs the first one with a key counts. A dictionary keeps its keys in strictly
ascending order, so it is determined by its entries.

Results:

* `mem_of_lookup`, `lookup_zipIdx`: what is found in a list of pairs.
* `mem_keys_insert`, `ordered_insert`: the keys after an insertion.
* `ext_get?`: ordered dictionaries with the same entries are equal.
* `get?_ofList`, `mem_sortedDistinct`: entries and keys of dictionaries built from lists.
-/

namespace Rollup

/-! ## Association lists -/

theorem mem_of_lookup {κ α : Type} [BEq κ] [LawfulBEq κ] {entries : List (κ × α)} {k : κ} {a : α}
    (h : entries.lookup k = some a) : (k, a) ∈ entries := by
  obtain ⟨l₁, l₂, rfl, -⟩ := List.lookup_eq_some_iff.mp h
  simp

theorem lookup_isSome_iff_mem {κ α : Type} [BEq κ] [LawfulBEq κ] {entries : List (κ × α)} {k : κ} :
    (entries.lookup k).isSome = true ↔ k ∈ entries.map (·.1) := by
  rw [List.lookup_isSome_iff, List.mem_map]
  constructor
  · rintro ⟨p, hp, h⟩
    exact ⟨p, hp, (beq_iff_eq.mp h).symm⟩
  · rintro ⟨p, hp, h⟩
    exact ⟨p, hp, by simp [h]⟩

/-- A key with one value leads to it. -/
theorem lookup_of_unique {κ α : Type} [BEq κ] [LawfulBEq κ] {entries : List (κ × α)} {k : κ} {a : α}
    (mem : (k, a) ∈ entries) (unique : ∀ b, (k, b) ∈ entries → b = a) :
    entries.lookup k = some a := by
  have found := lookup_isSome_iff_mem.mpr (List.mem_map_of_mem (f := Prod.fst) mem)
  obtain ⟨b, hb⟩ := Option.isSome_iff_exists.mp found
  rw [hb, unique b (mem_of_lookup hb)]

/-- Elements with distinct keys are at one position each. -/
theorem index_of_nodup_map {α β : Type} {f : α → β} {xs : List α} (nodup : (xs.map f).Nodup)
    {j k : Nat} {a b : α} (ha : xs[j]? = some a) (hb : xs[k]? = some b) (same : f a = f b) :
    j = k := by
  have bound : j < (xs.map f).length := by
    rw [List.length_map]
    exact (List.getElem?_eq_some_iff.mp ha).1
  refine (List.getElem?_inj bound nodup).mp ?_
  rw [List.getElem?_map, List.getElem?_map, ha, hb, Option.map_some, Option.map_some, same]

/-- Among elements with distinct keys, the key of an element leads to it. -/
theorem find?_of_nodup {α κ : Type} [BEq κ] [LawfulBEq κ] {f : α → κ} {xs : List α}
    (nodup : (xs.map f).Nodup) {i : Nat} {a : α} (here : xs[i]? = some a) :
    xs.find? (fun b => f b == f a) = some a := by
  have found : (xs.find? fun b => f b == f a).isSome = true := by
    rw [List.find?_isSome]
    exact ⟨a, List.mem_of_getElem? here, by simp⟩
  obtain ⟨b, hb⟩ := Option.isSome_iff_exists.mp found
  have same : f b = f a := by simpa using List.find?_some hb
  rw [hb, List.inj_on_of_nodup_map nodup (List.mem_of_find?_eq_some hb)
    (List.mem_of_getElem? here) same]

/-- In a list without duplicates a key leads to its position, counted from a first one. -/
theorem lookup_zipIdx_from {κ : Type} [BEq κ] [LawfulBEq κ] {keys : List κ} (nodup : keys.Nodup)
    {k : κ} {first i : Nat} :
    (keys.zipIdx first).lookup k = some (i + first) ↔ keys[i]? = some k := by
  rw [Nat.add_comm]
  constructor
  · intro found
    exact List.mk_add_mem_zipIdx_iff_getElem?.mp (mem_of_lookup found)
  · intro here
    have known : ((keys.zipIdx first).lookup k).isSome = true := by
      rw [lookup_isSome_iff_mem, List.zipIdx_map_fst]
      exact List.mem_of_getElem? here
    obtain ⟨j, hj⟩ := Option.isSome_iff_exists.mp known
    obtain ⟨low, there⟩ := List.mk_mem_zipIdx_iff_le_and_getElem?_sub.mp (mem_of_lookup hj)
    have bound : i < keys.length := (List.getElem?_eq_some_iff.mp here).1
    have same := (List.getElem?_inj bound nodup).mp (here.trans there.symm)
    rw [hj, same, Nat.add_sub_cancel' low]

theorem lookup_zipIdx {κ : Type} [BEq κ] [LawfulBEq κ] {keys : List κ} (nodup : keys.Nodup)
    {k : κ} {i : Nat} : keys.zipIdx.lookup k = some i ↔ keys[i]? = some k :=
  lookup_zipIdx_from nodup

theorem map_zipIdx_fst {α β : Type} (f : α → β) (xs : List α) :
    xs.zipIdx.map (fun q => f q.1) = xs.map f := by
  conv_rhs => rw [← List.zipIdx_map_fst 0 xs, List.map_map]
  rfl

/-- The elements at the positions of those with a property. -/
theorem filterMap_getElem?_filter {α : Type} (xs : List α) (p : α → Bool) :
    ((xs.zipIdx.filter fun q => p q.1).map (·.2)).filterMap (xs[·]?) = xs.filter p := by
  have here : ∀ q ∈ xs.zipIdx.filter fun q => p q.1, xs[q.2]? = some q.1 := fun q hq =>
    List.mem_zipIdx_iff_getElem?.mp (List.mem_of_mem_filter hq)
  have firsts : (xs.zipIdx.filter fun q => p q.1).map (·.1) = xs.filter p := by
    rw [← List.zipIdx_map_fst 0 xs, List.filter_map, List.zipIdx_map_fst]
    rfl
  rw [List.filterMap_map, ← firsts, ← List.filterMap_eq_map]
  exact List.filterMap_congr here

/-- What is found among the values of given keys. -/
theorem lookup_filterMap {κ α : Type} [BEq κ] [LawfulBEq κ] (keys : List κ) (value : κ → Option α)
    (k : κ) : (keys.filterMap fun j => (value j).map fun a => (j, a)).lookup k =
      if keys.contains k then value k else none := by
  induction keys with
  | nil => rfl
  | cons j keys ih =>
    rw [List.filterMap_cons, List.contains_cons]
    by_cases same : k = j
    · subst same
      cases found : value k with
      | none => simp [ih, found]
      | some a => simp
    · have apart : (k == j) = false := beq_eq_false_iff_ne.mpr same
      cases value j with
      | none => simp [ih, same]
      | some a => simp [List.lookup_cons, apart, ih]

theorem map_fst_filterMap {κ α : Type} (keys : List κ) (value : κ → Option α) :
    ((keys.filterMap fun j => (value j).map fun a => (j, a)).map (·.1)).Sublist keys := by
  induction keys with
  | nil => exact List.Sublist.refl _
  | cons j keys ih =>
    rw [List.filterMap_cons]
    cases value j with
    | none => exact ih.cons j
    | some a => exact ih.cons_cons j

namespace Dict

variable {α : Type}

/-- The keys ascend strictly. -/
def Ordered (d : Dict α) : Prop :=
  (keys d).Pairwise (· < ·)

instance (d : Dict α) : Decidable (Ordered d) :=
  inferInstanceAs (Decidable ((keys d).Pairwise (· < ·)))

/-! ## Keys -/

theorem mem_keys_insert (k j : String) (v : α) (d : Dict α) :
    j ∈ keys (insert k v d) ↔ j = k ∨ j ∈ keys d := by
  induction d with
  | nil => simp [insert, keys]
  | cons p rest ih =>
    obtain ⟨k', v'⟩ := p
    rw [insert]
    split_ifs with h1 h2
    · simp [keys]
    · subst h2
      simp [keys]
    · simp only [keys, List.map_cons, List.mem_cons] at ih ⊢
      rw [ih]
      exact or_left_comm

theorem mem_of_mem_insert {k : String} {v : α} {d : Dict α} {q : String × α}
    (h : q ∈ insert k v d) : q = (k, v) ∨ q ∈ d := by
  induction d with
  | nil => exact Or.inl (List.mem_singleton.mp h)
  | cons p rest ih =>
    rw [insert] at h
    split_ifs at h
    · exact List.mem_cons.mp h
    · rcases List.mem_cons.mp h with h | h
      · exact Or.inl h
      · exact Or.inr (List.mem_cons_of_mem _ h)
    · rcases List.mem_cons.mp h with rfl | h
      · exact Or.inr List.mem_cons_self
      · exact (ih h).imp_right (List.mem_cons_of_mem _)

theorem ordered_insert {d : Dict α} (h : Ordered d) (k : String) (v : α) :
    Ordered (insert k v d) := by
  induction d with
  | nil => simp [insert, Ordered, keys]
  | cons p rest ih =>
    obtain ⟨k', v'⟩ := p
    rw [Ordered, keys, List.map_cons, List.pairwise_cons] at h
    rw [insert]
    split_ifs with h1 h2
    · rw [Ordered, keys, List.map_cons, List.pairwise_cons, List.map_cons, List.pairwise_cons]
      refine ⟨fun j hj => ?_, h.1, h.2⟩
      rcases List.mem_cons.mp hj with rfl | hj
      · exact h1
      · exact String.lt_trans h1 (h.1 j hj)
    · subst h2
      rw [Ordered, keys, List.map_cons, List.pairwise_cons]
      exact h
    · have later : k' < k := by grind
      rw [Ordered, keys, List.map_cons, List.pairwise_cons]
      refine ⟨fun j hj => ?_, ih h.2⟩
      rcases (mem_keys_insert k j v rest).mp hj with rfl | hj
      · exact later
      · exact h.1 j hj

theorem Ordered.nodup_keys {d : Dict α} (h : Ordered d) : (keys d).Nodup := by
  refine List.Pairwise.imp ?_ h
  intro j k hlt e
  subst e
  exact String.lt_irrefl _ hlt

theorem get?_eq_none_iff {k : String} {d : Dict α} : get? k d = none ↔ k ∉ keys d := by
  rw [get?, Option.map_eq_none_iff, List.find?_eq_none, keys, List.mem_map]
  constructor
  · rintro h ⟨p, hp, e⟩
    exact h p hp (by simpa using e)
  · intro h p hp e
    exact h ⟨p, hp, by simpa using e⟩

theorem get?_eq_some_iff {k : String} {v : α} {d : Dict α} (h : Ordered d) :
    get? k d = some v ↔ (k, v) ∈ d := by
  induction d with
  | nil => simp [get?]
  | cons p rest ih =>
    obtain ⟨k', v'⟩ := p
    rw [Ordered, keys, List.map_cons, List.pairwise_cons] at h
    have ih := ih h.2
    simp only [get?, List.find?_cons, List.mem_cons, Prod.mk.injEq] at ih ⊢
    by_cases e : k' = k
    · subst e
      have absent : (k', v) ∉ rest := by
        intro mem
        exact String.lt_irrefl k' (h.1 k' (List.mem_map.mpr ⟨(k', v), mem, rfl⟩))
      simp [absent, eq_comm]
    · rw [beq_eq_false_iff_ne.mpr e]
      simp [ih, Ne.symm e]

/-- Ordered dictionaries with the same entries are equal. -/
theorem ext_get? {d e : Dict α} (hd : Ordered d) (he : Ordered e)
    (same : ∀ k, get? k d = get? k e) : d = e := by
  have sorted : ∀ {d : Dict α}, Ordered d → d.Pairwise fun p q => p.1 < q.1 := by
    intro d h
    exact List.pairwise_map.mp h
  have nodup : ∀ {d : Dict α}, Ordered d → d.Nodup := by
    intro d h
    exact List.Nodup.of_map _ h.nodup_keys
  refine @List.Perm.eq_of_pairwise _ (fun p q => p.1 < q.1) _ _ ?_ (sorted hd) (sorted he) ?_
  · intro p q _ _ h1 h2
    exact absurd h2 (String.lt_asymm h1)
  · rw [List.perm_ext_iff_of_nodup (nodup hd) (nodup he)]
    rintro ⟨k, v⟩
    rw [← get?_eq_some_iff hd, ← get?_eq_some_iff he, same]

/-! ## Dictionaries from lists -/

theorem ordered_foldl_insert (pairs : List (String × α)) : ∀ d : Dict α, Ordered d →
    Ordered (pairs.foldl (fun d p => insert p.1 p.2 d) d) := by
  induction pairs with
  | nil => intro d h; exact h
  | cons p pairs ih => intro d h; exact ih _ (ordered_insert h _ _)

theorem ordered_ofList (pairs : List (String × α)) : Ordered (ofList pairs) :=
  ordered_foldl_insert pairs [] List.Pairwise.nil

/-- The entries of a list with distinct keys. -/
theorem get?_ofList {pairs : List (String × α)} (nodup : (pairs.map (·.1)).Nodup) (k : String) :
    get? k (ofList pairs) = pairs.lookup k := by
  have run : ∀ (pairs : List (String × α)) (d : Dict α), (pairs.map (·.1)).Nodup →
      get? k (pairs.foldl (fun d p => insert p.1 p.2 d) d) = (pairs.lookup k).or (get? k d) := by
    intro pairs
    induction pairs with
    | nil => intro d _; rfl
    | cons p pairs ih =>
      intro d nodup
      obtain ⟨k', v⟩ := p
      rw [List.map_cons, List.nodup_cons] at nodup
      rw [List.foldl_cons, ih _ nodup.2, get?_insert, List.lookup_cons]
      by_cases e : k = k'
      · subst e
        have absent : pairs.lookup k = none := by
          rw [List.lookup_eq_none_iff]
          intro q hq
          rw [bne_iff_ne]
          rintro rfl
          exact nodup.1 (List.mem_map.mpr ⟨q, hq, rfl⟩)
        simp [absent]
      · simp [e, beq_eq_false_iff_ne.mpr e]
  rw [ofList, run pairs [] nodup]
  simp [get?]

theorem get?_eq_lookup (k : String) (d : Dict α) : get? k d = d.lookup k := by
  induction d with
  | nil => rfl
  | cons p d ih =>
    rw [get?, List.find?_cons, List.lookup_cons]
    by_cases e : p.1 = k
    · simp [e]
    · rw [beq_eq_false_iff_ne.mpr e, beq_eq_false_iff_ne.mpr (Ne.symm e)]
      exact ih

/-- A dictionary is the dictionary of its entries. -/
theorem ofList_of_ordered {d : Dict α} (h : Ordered d) : ofList d = d := by
  refine ext_get? (ordered_ofList d) h fun k => ?_
  rw [get?_ofList h.nodup_keys, get?_eq_lookup]

theorem mem_of_mem_ofList {pairs : List (String × α)} {q : String × α} (h : q ∈ ofList pairs) :
    q ∈ pairs := by
  have run : ∀ (pairs : List (String × α)) (d : Dict α),
      q ∈ pairs.foldl (fun d p => insert p.1 p.2 d) d → q ∈ pairs ∨ q ∈ d := by
    intro pairs
    induction pairs with
    | nil => intro d h; exact Or.inr h
    | cons p pairs ih =>
      intro d h
      rcases ih _ h with h | h
      · exact Or.inl (List.mem_cons_of_mem _ h)
      · rcases mem_of_mem_insert h with rfl | h
        · exact Or.inl List.mem_cons_self
        · exact Or.inr h
  exact (run pairs [] h).resolve_right (by simp)

theorem mem_keys_ofList {pairs : List (String × α)} {k : String} :
    k ∈ keys (ofList pairs) ↔ k ∈ pairs.map (·.1) := by
  have run : ∀ (pairs : List (String × α)) (d : Dict α),
      k ∈ keys (pairs.foldl (fun d p => insert p.1 p.2 d) d) ↔
        k ∈ pairs.map (·.1) ∨ k ∈ keys d := by
    intro pairs
    induction pairs with
    | nil => intro d; simp
    | cons p pairs ih =>
      intro d
      rw [List.foldl_cons, ih, mem_keys_insert, List.map_cons, List.mem_cons]
      constructor
      · rintro (h | h | h)
        · exact Or.inl (Or.inr h)
        · exact Or.inl (Or.inl h)
        · exact Or.inr h
      · rintro ((h | h) | h)
        · exact Or.inr (Or.inl h)
        · exact Or.inl h
        · exact Or.inr (Or.inr h)
  rw [ofList, run]
  simp [keys]

@[simp] theorem mem_sortedDistinct {texts : List String} {t : String} :
    t ∈ sortedDistinct texts ↔ t ∈ texts := by
  rw [sortedDistinct, mem_keys_ofList, List.map_map]
  simp

theorem sorted_sortedDistinct (texts : List String) : (sortedDistinct texts).Pairwise (· < ·) :=
  ordered_ofList _

theorem nodup_sortedDistinct (texts : List String) : (sortedDistinct texts).Nodup :=
  (ordered_ofList _).nodup_keys

/-- An ascending list of texts is given by its members. -/
theorem eq_of_ascending {texts texts' : List String} (h : texts.Pairwise (· < ·))
    (h' : texts'.Pairwise (· < ·)) (same : ∀ t, t ∈ texts ↔ t ∈ texts') : texts = texts' := by
  have nodup : ∀ {l : List String}, l.Pairwise (· < ·) → l.Nodup := by
    intro l ascending
    refine ascending.imp ?_
    rintro s t lt rfl
    exact String.lt_irrefl s lt
  refine List.Perm.eq_of_pairwise (fun s t _ _ h1 h2 => absurd h2 (String.lt_asymm h1)) h h' ?_
  exact (List.perm_ext_iff_of_nodup (nodup h) (nodup h')).mpr same

/-- The distinct texts of a list depend on its members only. -/
theorem sortedDistinct_congr {texts texts' : List String} (same : ∀ t, t ∈ texts ↔ t ∈ texts') :
    sortedDistinct texts = sortedDistinct texts' := by
  refine eq_of_ascending (sorted_sortedDistinct texts) (sorted_sortedDistinct texts') fun t => ?_
  exact (mem_sortedDistinct.trans (same t)).trans mem_sortedDistinct.symm

end Dict

end Rollup
