import Mathlib.Tactic.SplitIfs
import Rollup.Csv.Reader
import Rollup.Csv.Writer

/-!
# Reading back what has been written

A written field is read as itself wherever a field may start, whether it had to be quoted or not,
and a written record is read as one record. Places in the input do not matter for this.

Results:

* `readFrom_encodeField_comma`, `readFrom_encodeField_lineFeed`: reading one field.
* `readFrom_encodeRecord`: reading one record.
* `fields_records_encode`: reading a written file gives its records back.
-/

namespace Rollup.Csv

/-! ## Reading without places -/

/-- The state without its places. -/
def Reading.unplaced (r : Reading Char) : Reading Char :=
  { r with began := .start, place := .start }

theorem Reading.step_unplaced (r : Reading Char) (c : Char) :
    (r.step Marks.chars c).1.unplaced = (r.unplaced.step Marks.chars c).1.unplaced ∧
      (r.step Marks.chars c).2.map (·.fields) =
        (r.unplaced.step Marks.chars c).2.map (·.fields) := by
  obtain ⟨mode, field, fields, began, place⟩ := r
  unfold step stepPlain
  cases mode <;> simp only [unplaced, advance] <;> split_ifs <;> exact ⟨rfl, rfl⟩

/-- What is read does not depend on places. -/
theorem Reading.map_fields_run (cs : List Char) : ∀ r : Reading Char,
    (r.run Marks.chars cs).map (·.fields) = (r.unplaced.run Marks.chars cs).map (·.fields) := by
  induction cs with
  | nil =>
    intro r
    unfold run
    by_cases start : r.mode = .recordStart
    · rw [if_pos start, if_pos (show r.unplaced.mode = .recordStart from start)]
    · rw [if_neg start, if_neg (show r.unplaced.mode ≠ .recordStart from start)]
      rfl
  | cons c cs ih =>
    intro r
    obtain ⟨state, record⟩ := step_unplaced r c
    unfold run
    rcases first : r.step Marks.chars c with ⟨r₁, o₁⟩
    rcases second : r.unplaced.step Marks.chars c with ⟨r₂, o₂⟩
    rw [first, second] at state record
    have rest : (r₁.run Marks.chars cs).map (·.fields) = (r₂.run Marks.chars cs).map (·.fields) := by
      rw [ih r₁, ih r₂]
      exact congrArg _ (congrArg (run Marks.chars · cs) state)
    cases o₁ with
    | none =>
      cases o₂ with
      | none => exact rest
      | some b => cases record
    | some a =>
      cases o₂ with
      | none => cases record
      | some b =>
        show a.fields :: _ = b.fields :: _
        rw [show a.fields = b.fields from Option.some.inj record, rest]

/-- The fields of the records from a state on. -/
def readFrom (mode : Mode) (field : List Char) (fields : List (List Char)) (cs : List Char) :
    List (List (List Char)) :=
  (Reading.run Marks.chars ⟨mode, field, fields, .start, .start⟩ cs).map (·.fields)

theorem readFrom_cons (mode : Mode) (field : List Char) (fields : List (List Char)) (c : Char)
    (cs : List Char) :
    readFrom mode field fields (c :: cs) =
      let next := Reading.step Marks.chars ⟨mode, field, fields, .start, .start⟩ c
      next.2.toList.map (·.fields) ++ readFrom next.1.mode next.1.field next.1.fields cs := by
  rw [readFrom, Reading.run]
  dsimp only
  rcases Reading.step Marks.chars ⟨mode, field, fields, .start, .start⟩ c with ⟨r, _ | record⟩
  · exact Reading.map_fields_run cs r
  · exact congrArg (record.fields :: ·) (Reading.map_fields_run cs r)

/-! ## One symbol -/

section Symbol

variable (field : List Char) (fields : List (List Char)) (cs : List Char)

/-- A comma outside quotes ends the field. -/
theorem readFrom_comma {mode : Mode} (outside : mode ≠ .quoted) :
    readFrom mode field fields (',' :: cs) =
      readFrom .fieldStart [] (field.reverse :: fields) cs := by
  rw [readFrom_cons]
  cases mode with
  | quoted => exact absurd rfl outside
  | recordStart => rfl
  | fieldStart => rfl
  | plain => rfl
  | quoteSeen => rfl

/-- A line feed outside quotes ends the record. -/
theorem readFrom_lineFeed {mode : Mode} (outside : mode ≠ .quoted) (begun : mode ≠ .recordStart) :
    readFrom mode field fields ('\n' :: cs) =
      (field.reverse :: fields).reverse :: readFrom .recordStart [] [] cs := by
  rw [readFrom_cons]
  cases mode with
  | quoted => exact absurd rfl outside
  | recordStart => exact absurd rfl begun
  | fieldStart => rfl
  | plain => rfl
  | quoteSeen => rfl

/-- A quote opens a quoted field where a field starts. -/
theorem readFrom_openQuote {mode : Mode} (start : mode = .recordStart ∨ mode = .fieldStart) :
    readFrom mode field fields ('"' :: cs) = readFrom .quoted field fields cs := by
  rw [readFrom_cons]
  rcases start with rfl | rfl <;> rfl

theorem readFrom_quoted_quote :
    readFrom .quoted field fields ('"' :: cs) = readFrom .quoteSeen field fields cs := by
  rw [readFrom_cons]
  rfl

theorem readFrom_doubledQuote :
    readFrom .quoteSeen field fields ('"' :: cs) = readFrom .quoted ('"' :: field) fields cs := by
  rw [readFrom_cons]
  rfl

theorem readFrom_quoted_of_ne {c : Char} (other : c ≠ '"') :
    readFrom .quoted field fields (c :: cs) = readFrom .quoted (c :: field) fields cs := by
  rw [readFrom_cons]
  simp [Reading.step, Reading.advance, Reading.keep, Marks.chars, other]

/-- Any other symbol outside quotes belongs to the field. -/
theorem readFrom_plain {mode : Mode} (outside : mode ≠ .quoted) {c : Char}
    (ordinary : needsQuotes c = false) :
    readFrom mode field fields (c :: cs) = readFrom .plain (c :: field) fields cs := by
  simp only [needsQuotes, Bool.or_eq_false_iff, decide_eq_false_iff_not] at ordinary
  obtain ⟨⟨⟨comma, quote⟩, lineFeed⟩, carriageReturn⟩ := ordinary
  have plain : ∀ mode, (Reading.stepPlain Marks.chars
      (Reading.advance Marks.chars ⟨mode, field, fields, .start, .start⟩ c) c) =
        (Reading.keep (Reading.advance Marks.chars ⟨mode, field, fields, .start, .start⟩ c)
          .plain c, none) := by
    intro mode
    simp [Reading.stepPlain, Reading.endsLine, Marks.chars, comma, lineFeed, carriageReturn]
  rw [readFrom_cons]
  have step : Reading.step Marks.chars ⟨mode, field, fields, .start, .start⟩ c =
      (Reading.keep (Reading.advance Marks.chars ⟨mode, field, fields, .start, .start⟩ c)
        .plain c, none) := by
    rw [← plain mode]
    cases mode with
    | quoted => exact absurd rfl outside
    | recordStart =>
      simp [Reading.step, Reading.advance, Reading.endsLine, Marks.chars, quote, lineFeed,
        carriageReturn]
    | fieldStart => simp [Reading.step, Reading.advance, Marks.chars, quote]
    | plain => rfl
    | quoteSeen => simp [Reading.step, Reading.advance, Marks.chars, quote]
  rw [step]
  rfl

end Symbol

/-! ## One field -/

/-- A field whose quotes are doubled. -/
def doubled (field : List Char) : List Char :=
  field.flatMap fun c => if c = '"' then ['"', '"'] else [c]

theorem readFrom_doubled (body : List Char) : ∀ (field : List Char) (fields : List (List Char))
    (cs : List Char), readFrom .quoted field fields (doubled body ++ '"' :: cs) =
      readFrom .quoteSeen (body.reverse ++ field) fields cs := by
  induction body with
  | nil =>
    intro field fields cs
    exact readFrom_quoted_quote field fields cs
  | cons c body ih =>
    intro field fields cs
    rw [doubled, List.flatMap_cons, List.reverse_cons, List.append_assoc, List.append_assoc]
    by_cases quote : c = '"'
    · rw [if_pos quote, quote, List.cons_append, List.cons_append, readFrom_quoted_quote,
        List.nil_append, readFrom_doubledQuote]
      exact ih _ _ _
    · rw [if_neg quote, List.singleton_append, readFrom_quoted_of_ne _ _ _ quote]
      exact ih _ _ _

theorem readFrom_ordinary (body : List Char) : ∀ (mode : Mode) (field : List Char)
    (fields : List (List Char)) (cs : List Char), mode ≠ .quoted →
    body.any needsQuotes = false → body ≠ [] →
    readFrom mode field fields (body ++ cs) = readFrom .plain (body.reverse ++ field) fields cs := by
  induction body with
  | nil => intro _ _ _ _ _ _ ne; exact absurd rfl ne
  | cons c body ih =>
    intro mode field fields cs outside ordinary _
    rw [List.any_cons, Bool.or_eq_false_iff] at ordinary
    rw [List.cons_append, readFrom_plain _ _ _ outside ordinary.1, List.reverse_cons,
      List.append_assoc]
    cases body with
    | nil => rfl
    | cons d body => exact ih .plain _ _ _ (by simp) ordinary.2 (by simp)

/-- After a written field the reader is outside quotes and has read just that field. -/
theorem readFrom_encodeField (field : List Char) {mode : Mode}
    (start : mode = .recordStart ∨ mode = .fieldStart) (fields : List (List Char))
    (cs : List Char) : ∃ mode', mode' ≠ .quoted ∧ (encodeField field ≠ [] → mode' ≠ .recordStart) ∧
      (encodeField field = [] → mode' = mode ∧ field = []) ∧
      readFrom mode [] fields (encodeField field ++ cs) = readFrom mode' field.reverse fields cs := by
  have outside : mode ≠ .quoted := by rcases start with rfl | rfl <;> simp
  unfold encodeField
  by_cases quotes : field.any needsQuotes = true
  · rw [if_pos quotes]
    refine ⟨.quoteSeen, by simp, by simp, by simp, ?_⟩
    rw [List.cons_append, List.cons_append, List.append_assoc, readFrom_openQuote _ _ _ start]
    have := readFrom_doubled field [] fields cs
    rwa [List.append_nil] at this
  · rw [if_neg quotes]
    by_cases empty : field = []
    · subst empty
      exact ⟨mode, outside, by simp, by simp, rfl⟩
    · refine ⟨.plain, by simp, by simp, fun h => absurd h empty, ?_⟩
      have := readFrom_ordinary field mode [] fields cs outside (by simpa using quotes) empty
      rwa [List.append_nil] at this

/-! ## One record -/

theorem intercalate_map_encodeField (f g : List Char) (more : List (List Char)) (cs : List Char) :
    [','].intercalate ((f :: g :: more).map encodeField) ++ cs =
      encodeField f ++ ',' :: ([','].intercalate ((g :: more).map encodeField) ++ cs) := by
  simp [List.intercalate_cons_cons]

/-- The fields of a record that follow a comma. -/
theorem readFrom_fields (f : List Char) (more : List (List Char)) :
    ∀ (fields : List (List Char)) (cs : List Char),
      readFrom .fieldStart [] fields ([','].intercalate ((f :: more).map encodeField) ++ '\n' :: cs) =
        (fields.reverse ++ f :: more) :: readFrom .recordStart [] [] cs := by
  induction more generalizing f with
  | nil =>
    intro fields cs
    obtain ⟨mode, outside, begun, same, eq⟩ :=
      readFrom_encodeField f (Or.inr rfl) fields ('\n' :: cs)
    have started : mode ≠ .recordStart := by
      by_cases empty : encodeField f = []
      · rw [(same empty).1]
        simp
      · exact begun empty
    rw [List.map_singleton, List.intercalate_singleton, eq, readFrom_lineFeed _ _ _ outside started]
    simp
  | cons g more ih =>
    intro fields cs
    rw [intercalate_map_encodeField]
    obtain ⟨mode, outside, -, -, eq⟩ := readFrom_encodeField f (Or.inr rfl) fields
      (',' :: ([','].intercalate ((g :: more).map encodeField) ++ '\n' :: cs))
    rw [eq, readFrom_comma _ _ _ outside, ih, List.reverse_reverse]
    simp

theorem encodeRecord_of_ne {fields : List (List Char)}
    (ne : [','].intercalate (fields.map encodeField) ≠ []) :
    encodeRecord fields = [','].intercalate (fields.map encodeField) := by
  unfold encodeRecord
  split
  · rename_i empty
    exact absurd empty ne
  · rfl

/-- A written record is read as one record. -/
theorem readFrom_encodeRecord (f : List Char) (more : List (List Char)) (cs : List Char) :
    readFrom .recordStart [] [] (encodeRecord (f :: more) ++ '\n' :: cs) =
      (f :: more) :: readFrom .recordStart [] [] cs := by
  cases more with
  | nil =>
    obtain ⟨mode, outside, begun, same, eq⟩ := readFrom_encodeField f (Or.inl rfl) [] ('\n' :: cs)
    by_cases empty : encodeField f = []
    · -- an empty line is no record, so quotes are written
      obtain rfl := (same empty).2
      have line : encodeRecord [[]] = ['"', '"'] := rfl
      rw [line, List.cons_append, List.cons_append, readFrom_openQuote _ _ _ (Or.inl rfl),
        readFrom_quoted_quote, List.nil_append, readFrom_lineFeed _ _ _ (by simp) (by simp)]
      rfl
    · have line : encodeRecord [f] = encodeField f := by
        rw [encodeRecord_of_ne (by simpa using empty), List.map_singleton,
          List.intercalate_singleton]
      rw [line, eq, readFrom_lineFeed _ _ _ outside (begun empty)]
      simp
  | cons g more =>
    have ne : [','].intercalate ((f :: g :: more).map encodeField) ≠ [] := by
      simp [List.intercalate_cons_cons]
    rw [encodeRecord_of_ne ne, intercalate_map_encodeField]
    obtain ⟨mode, outside, -, -, eq⟩ := readFrom_encodeField f (Or.inl rfl) []
      (',' :: ([','].intercalate ((g :: more).map encodeField) ++ '\n' :: cs))
    rw [eq, readFrom_comma _ _ _ outside, readFrom_fields, List.reverse_reverse]
    rfl

/-! ## Files -/

theorem readFrom_encode (records : List (List (List Char))) (nonempty : ∀ r ∈ records, r ≠ []) :
    readFrom .recordStart [] [] (records.flatMap fun r => encodeRecord r ++ ['\n']) = records := by
  induction records with
  | nil => rfl
  | cons r records ih =>
    cases r with
    | nil => exact absurd rfl (nonempty [] (by simp))
    | cons f more =>
      rw [List.flatMap_cons, List.append_assoc, List.singleton_append, readFrom_encodeRecord,
        ih fun r hr => nonempty r (by simp [hr])]

/-- A written file starts with a character of its first field, or with a mark of the grammar. -/
theorem head?_encode {f : String} {more : List String} {records : List (List String)} {c : Char}
    (first : f.toList.head? ≠ some c) (apart : c ≠ ',' ∧ c ≠ '"' ∧ c ≠ '\n') :
    (encode ((f :: more) :: records)).toList.head? ≠ some c := by
  have text : (encode ((f :: more) :: records)).toList =
      encodeRecord (f.toList :: more.map String.toList) ++ '\n' ::
        records.flatMap fun r => encodeRecord (r.map String.toList) ++ ['\n'] := by
    rw [encode, String.toList_ofList, List.flatMap_cons, List.append_assoc]
    rfl
  -- what the first field is written as, up to the character after it
  have field : ∀ rest : List Char, rest.head? ≠ some c →
      (encodeField f.toList ++ rest).head? ≠ some c := by
    intro rest hrest
    unfold encodeField
    split
    · intro h
      exact apart.2.1 (Option.some.inj h).symm
    · cases chars : f.toList with
      | nil => exact hrest
      | cons d ds =>
        rw [chars] at first
        exact first
  rw [text]
  by_cases empty : [','].intercalate ((f.toList :: more.map String.toList).map encodeField) = []
  · have line : encodeRecord (f.toList :: more.map String.toList) = ['"', '"'] := by
      rw [encodeRecord, empty]
    rw [line]
    intro h
    exact apart.2.1 (Option.some.inj h).symm
  · rw [encodeRecord_of_ne empty, List.map_cons]
    cases more with
    | nil =>
      rw [List.map_nil, List.map_nil, List.intercalate_singleton]
      exact field _ fun h => apart.2.2 (Option.some.inj h).symm
    | cons g more =>
      rw [List.map_cons, List.map_cons, List.intercalate_cons_cons, List.append_assoc,
        List.append_assoc]
      exact field _ fun h => apart.1 (Option.some.inj h).symm

/-- Reading a written file gives its records back, if no record is empty and the file does not
    start with a byte order mark. -/
theorem fields_records_encode {records : List (List String)} (nonempty : ∀ r ∈ records, r ≠ [])
    (unmarked : (encode records).toList.head? ≠ some '\uFEFF') :
    (Csv.records Marks.chars (encode records).toList).map (fun r => r.fields.map String.ofList) =
      records := by
  have plain : Marks.chars.byteOrderMark.isPrefixOf (encode records).toList = false := by
    cases text : (encode records).toList with
    | nil => rfl
    | cons c cs =>
      rw [text, List.head?_cons] at unmarked
      have : ('\uFEFF' == c) = false := beq_eq_false_iff_ne.mpr fun e => unmarked (e ▸ rfl)
      simp [Marks.chars, List.isPrefixOf, this]
  have read : (Csv.records Marks.chars (encode records).toList).map (·.fields) =
      records.map (·.map String.toList) := by
    have lines : (encode records).toList =
        (records.map (·.map String.toList)).flatMap fun r => encodeRecord r ++ ['\n'] := by
      rw [encode, String.toList_ofList, List.flatMap_map]
    rw [Csv.records, plain, lines]
    refine (Reading.map_fields_run _ _).trans (readFrom_encode _ ?_)
    intro r hr
    obtain ⟨r', hr', rfl⟩ := List.mem_map.mp hr
    simpa using nonempty r' hr'
  have texts := congrArg (List.map (List.map String.ofList)) read
  rw [List.map_map, List.map_map] at texts
  refine texts.trans ((List.map_congr_left fun r _ => ?_).trans (List.map_id records))
  simp

end Rollup.Csv
