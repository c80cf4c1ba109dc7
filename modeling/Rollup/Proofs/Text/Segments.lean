import Mathlib.Data.List.Chain
import Mathlib.Data.List.Induction
import Rollup.Proofs.Text.Slug

/-!
# Segments of slugs

The words of a slug have no underscores of their own, so those between them stand alone and apart
from the ends. Two in a row can therefore only stand between two slugs, and a path slug falls into
its segments in one way.

Results:

* `eq_of_mem_upperChar`: upper-casing yields no character of ASCII but capitals and what was there.
* `spaced_intercalate`: words joined by a separator.
* `intercalate_pair_inj`: texts joined by a doubled separator.
* `slugPath_eq_iff`: both for slugs.
-/

namespace Rollup.Text

/-! ## Upper case and ASCII -/

/-- The runs that lead into ASCII are single characters with a capital as their upper-case form. -/
theorem upperRuns_into_ascii : ∀ r ∈ upperRuns, (0x80 : Int) ≤ r.first + r.delta ∨
    r.first = r.last ∧ (Char.ofNat ((r.first : Int) + r.delta).toNat).isUpper = true := by
  decide +kernel

theorem upperExpansions_into_ascii : ∀ p ∈ upperExpansions, ∀ n ∈ p.2,
    (Char.ofNat n).toNat < 0x80 → (Char.ofNat n).isUpper = true := by
  decide

theorem toUpper_ascii : ∀ c : Char, c.toNat < 0x80 → c.toUpper.isUpper = false → c.toUpper = c :=
  forall_ascii (by decide)

/-- An ASCII character in an upper-case form is a capital, or stood there before. -/
theorem eq_of_mem_upperChar {c u : Char} (mem : u ∈ upperChar c) (ascii : u.toNat < 0x80)
    (proper : u.toNat ≠ 0) (small : u.isUpper = false) : u = c := by
  rcases cases_of_mem_upperChar mem with ⟨inside, rfl⟩ | ⟨p, hp, -, n, hn, rfl⟩ |
    ⟨r, hr, m, hm, rfl⟩ | ⟨-, same⟩
  · exact toUpper_ascii c inside small
  · have capital := upperExpansions_into_ascii p hp n hn ascii
    rw [small] at capital
    cases capital
  · obtain ⟨inside, moved⟩ := CaseRun.image?_eq_some_iff.mp hm
    have low := lt_of_toNat_ofNat_lt ascii proper
    rcases upperRuns_into_ascii r hr with high | ⟨single, capital⟩
    · omega
    · rw [show (r.first : Int) = c.toNat by omega, moved, small] at capital
      cases capital
  · exact same

/-! ## One separator -/

/-- A separator stands only between other characters: at no end and not next to its like. -/
structure Spaced (separator : Char) (cs : List Char) : Prop where
  first : cs.head? ≠ some separator
  last : cs.getLast? ≠ some separator
  apart : cs.IsChain fun a b => ¬ (a = separator ∧ b = separator)

variable {separator : Char}

theorem spaced_nil : Spaced separator [] :=
  ⟨nofun, nofun, .nil⟩

theorem spaced_of_not_mem {word : List Char} (free : separator ∉ word) : Spaced separator word where
  first := fun head => free (List.mem_of_mem_head? head)
  last := fun last => free (List.mem_of_getLast? last)
  apart := by
    refine (List.pairwise_of_forall_mem_list fun a ha b _ both => ?_).isChain
    exact free (both.1 ▸ ha)

/-- A word and a text that are not empty, with a separator between them. -/
theorem Spaced.cons {word cs : List Char} (own : Spaced separator word)
    (rest : Spaced separator cs) (filled : word ≠ []) (ne : cs ≠ []) :
    Spaced separator (word ++ separator :: cs) where
  first := by
    rw [List.head?_append_of_ne_nil _ filled]
    exact own.first
  last := by
    obtain ⟨c, cs, rfl⟩ := List.exists_cons_of_ne_nil ne
    rw [List.getLast?_append_of_ne_nil _ (List.cons_ne_nil _ _), List.getLast?_cons_cons]
    exact rest.last
  apart := by
    refine List.isChain_append.mpr ⟨own.apart, List.isChain_cons.mpr ⟨?_, rest.apart⟩, ?_⟩
    · exact fun next hnext both => rest.first (both.2 ▸ hnext)
    · exact fun last hlast _ _ both => own.last (both.1 ▸ hlast)

/-- Words that do not contain the separator, joined by it. -/
theorem spaced_intercalate {words : List (List Char)} (filled : ∀ word ∈ words, word ≠ [])
    (free : ∀ word ∈ words, separator ∉ word) :
    Spaced separator ([separator].intercalate words) := by
  induction words with
  | nil => exact spaced_nil
  | cons word words ih =>
    have own := spaced_of_not_mem (free word (by simp))
    cases words with
    | nil => simpa using own
    | cons next words =>
      have rest := ih (fun w hw => filled w (by simp [hw])) fun w hw => free w (by simp [hw])
      have ne : [separator].intercalate (next :: words) ≠ [] := by
        cases words <;> simp [List.intercalate_cons_cons, filled next]
      rw [List.intercalate_cons_cons, List.append_assoc, List.singleton_append]
      exact own.cons rest (filled word (by simp)) ne

/-! ## Doubled separators -/

/-- The rest of a joined text: nothing, or a doubled separator in front of something. -/
def Resumes (separator : Char) (rest : List Char) : Prop :=
  rest = [] ∨ ∃ cs, rest = separator :: separator :: cs

/-- A text in which separators are spaced does not reach into the rest. -/
theorem Spaced.eq_nil_of_resumes {cs more rest : List Char} (spaced : Spaced separator (cs ++ more))
    (resumes : Resumes separator (more ++ rest)) : more = [] := by
  rcases resumes with none | ⟨tail, pair⟩
  · exact (List.append_eq_nil_iff.mp none).1
  · match more, pair with
    | [], _ => rfl
    | [a], pair =>
      obtain ⟨rfl, -⟩ := List.cons.inj pair
      exact absurd List.getLast?_concat spaced.last
    | a :: b :: more, pair =>
      obtain ⟨rfl, pair⟩ := List.cons.inj pair
      obtain ⟨rfl, -⟩ := List.cons.inj pair
      have next := (List.isChain_append.mp spaced.apart).2.1
      exact absurd ⟨rfl, rfl⟩ (List.isChain_cons_cons.mp next).1

/-- The first of several texts with doubled separators between them. -/
theorem Spaced.append_inj {cs cs' rest rest' : List Char} (spaced : Spaced separator cs)
    (spaced' : Spaced separator cs') (resumes : Resumes separator rest)
    (resumes' : Resumes separator rest') (same : cs ++ rest = cs' ++ rest') :
    cs = cs' ∧ rest = rest' := by
  rcases List.append_eq_append_iff.mp same with ⟨more, rfl, rfl⟩ | ⟨more, rfl, rfl⟩
  · obtain rfl := spaced'.eq_nil_of_resumes resumes
    simp
  · obtain rfl := spaced.eq_nil_of_resumes resumes'
    simp

/-- Segments, each behind a doubled separator. -/
def resumed (separator : Char) (segments : List (List Char)) : List Char :=
  segments.flatMap fun segment => separator :: separator :: segment

theorem resumes_resumed (segments : List (List Char)) :
    Resumes separator (resumed separator segments) := by
  cases segments with
  | nil => exact .inl rfl
  | cons segment segments => exact .inr ⟨_, rfl⟩

theorem intercalate_pair_cons (segment : List Char) (segments : List (List Char)) :
    [separator, separator].intercalate (segment :: segments) =
      segment ++ resumed separator segments := by
  induction segments generalizing segment with
  | nil => simp [resumed]
  | cons next segments ih => simp [List.intercalate_cons_cons, ih, resumed]

theorem resumed_inj {segments : List (List Char)} (spaced : ∀ s ∈ segments, Spaced separator s) :
    ∀ {segments' : List (List Char)}, (∀ s ∈ segments', Spaced separator s) →
      resumed separator segments = resumed separator segments' → segments = segments' := by
  induction segments with
  | nil =>
    intro segments' _ same
    cases segments' with
    | nil => rfl
    | cons segment segments' => cases same
  | cons segment segments ih =>
    intro segments' spaced' same
    cases segments' with
    | nil => cases same
    | cons segment' segments' =>
      have tails : segment ++ resumed separator segments =
          segment' ++ resumed separator segments' := (List.cons.inj (List.cons.inj same).2).2
      obtain ⟨rfl, rest⟩ := (spaced segment (by simp)).append_inj (spaced' segment' (by simp))
        (resumes_resumed segments) (resumes_resumed segments') tails
      rw [ih (fun s hs => spaced s (by simp [hs])) (fun s hs => spaced' s (by simp [hs])) rest]

/-- Texts that are joined by a doubled separator fall apart in one way only, if none is empty and
    separators are spaced in all of them. -/
theorem intercalate_pair_inj {segments segments' : List (List Char)}
    (ok : ∀ s ∈ segments, s ≠ [] ∧ Spaced separator s)
    (ok' : ∀ s ∈ segments', s ≠ [] ∧ Spaced separator s)
    (same : [separator, separator].intercalate segments =
      [separator, separator].intercalate segments') : segments = segments' := by
  cases segments with
  | nil =>
    cases segments' with
    | nil => rfl
    | cons segment' segments' =>
      rw [intercalate_pair_cons] at same
      exact absurd (List.append_eq_nil_iff.mp same.symm).1 (ok' segment' (by simp)).1
  | cons segment segments =>
    cases segments' with
    | nil =>
      rw [intercalate_pair_cons] at same
      exact absurd (List.append_eq_nil_iff.mp same).1 (ok segment (by simp)).1
    | cons segment' segments' =>
      rw [intercalate_pair_cons, intercalate_pair_cons] at same
      obtain ⟨rfl, rest⟩ := (ok segment (by simp)).2.append_inj (ok' segment' (by simp)).2
        (resumes_resumed segments) (resumes_resumed segments') same
      rw [resumed_inj (fun s hs => (ok s (by simp [hs])).2) (fun s hs => (ok' s (by simp [hs])).2)
        rest]

/-! ## Slugs -/

theorem spaced_slug (name : String) : Spaced '_' (slug name).toList := by
  rw [slug, toList_join, List.map_map]
  refine spaced_intercalate ?_ ?_
  · intro word hword
    obtain ⟨run, hrun, rfl⟩ := List.mem_map.mp hword
    obtain ⟨c, rest, rfl⟩ :=
      List.exists_cons_of_ne_nil ((runsFrom_filled isLetterOrNumber name.toList []).1 run hrun)
    simp [(isBlank_upperChar c).1]
  · intro word hword mem
    obtain ⟨run, hrun, rfl⟩ := List.mem_map.mp hword
    rw [Function.comp_apply, String.toList_ofList, List.mem_flatMap] at mem
    obtain ⟨c, hc, mem⟩ := mem
    have kept := mem_runsFrom name.toList [] (by simp) run hrun c hc
    rw [← eq_of_mem_upperChar mem (by decide) (by decide) (by decide)] at kept
    exact absurd kept (by decide)

/-- The slugs of the segments that have one. -/
def segmentSlugs (path : List String) : List String :=
  (path.map slug).filter (· ≠ "")

/-- A slug neither starts nor ends with an underscore and has no two in a row, so paths have one
    slug exactly if the slugs of their segments agree, where segments without one do not count. -/
theorem slugPath_eq_iff : (∀ name, Spaced '_' (slug name).toList) ∧
    ∀ path path', slugPath path = slugPath path' ↔ segmentSlugs path = segmentSlugs path' := by
  refine ⟨spaced_slug, fun path path' => ⟨fun same => ?_, fun same => ?_⟩⟩
  · have ok : ∀ path, ∀ s ∈ (segmentSlugs path).map String.toList, s ≠ [] ∧ Spaced '_' s := by
      intro path s hs
      obtain ⟨text, htext, rfl⟩ := List.mem_map.mp hs
      obtain ⟨mem, filled⟩ := List.mem_filter.mp htext
      obtain ⟨name, -, rfl⟩ := List.mem_map.mp mem
      exact ⟨by simpa using filled, spaced_slug name⟩
    have chars := congrArg String.toList same
    rw [slugPath, slugPath, toList_join, toList_join] at chars
    exact List.map_injective_iff.mpr (fun _ _ => String.toList_inj.mp)
      (intercalate_pair_inj (ok path) (ok path') chars)
  · exact congrArg (join "__") same

end Rollup.Text
