import Descent.Proofs.Derivation
import Descent.Proofs.Preference
import Descent.Proofs.Production

/-!
# Joined fields

Strings without commas that are put together with commas between them are read back by a list of
the pattern `[^,]*`. That pattern reads as far as the next comma (`field_eq`), and the comma takes the
list to the next field, also to an empty one, since behind the first field a round of the list
consumes at least its comma.

The first field has no comma in front of it. If it is empty its reading consumes nothing, which ends a
list, so of a text that starts with a comma only the empty field in front of the comma is read
(`separatedList_field_of_stops`). Nothing is lost where that field is the only one
(`separatedList_join`).
-/

namespace Descent

/-! ## Runs of a class of characters -/

namespace Regex

/-- What the anchored star of a bracketed set is read as. -/
def runOf (s : CharSet) : Regex :=
  .seq (.anchor .textStart) (.seq (.seq (.rounds (.set false s) 0 none true) .empty) .empty)

/-- It finds the characters of its set at the start of a text, as far as they go. -/
theorem find_runOf (s : CharSet) (cs : List Char) :
    (runOf s).find cs = some { start := 0, text := cs.takeWhile (s.holds false) } := by
  have hreads : Matcher.Reads (matcher (.rounds (.set false s) 0 none true))
      (cs.takeWhile (s.holds false)) (cs.dropWhile (s.holds false)) :=
    Matcher.reads_star (fun _ => of_mem_takeWhile) (stops_dropWhile _ _)
  have hat : (matchAt (.seq (.rounds (.set false s) 0 none true) .empty) ⟨none, _⟩) = some _ :=
    matchAt_of_reads hreads none
  rw [List.takeWhile_append_dropWhile] at hat
  exact find_at_start_iff.2 hat

end Regex

/-! ## A field -/

/-- The set `[^,]` as it is read. -/
def commaFree : Regex.CharSet := .compl (.union (.within []) (.within [(',', ',')]))

theorem holds_commaFree {ch : Char} : commaFree.holds false ch = true ↔ ch ≠ ',' := by
  simp only [commaFree, Regex.CharSet.holds, Regex.CharSet.standIns, Regex.CharSet.inSome,
    Regex.CharSet.single_range, Bool.false_eq_true, if_false, List.any_cons, List.any_nil,
    Bool.or_false, Bool.false_or, Bool.not_eq_true', decide_eq_false_iff_not, ne_eq]

namespace Parser

open Cursor Grammar

/-- Reads what stands ahead up to the next comma, which may be nothing. -/
def field : Parser String := (Pattern.ofSource "[^,]*" "field").parser

theorem regex_field : (Pattern.ofSource "[^,]*" "field").regex = .ok (.runOf commaFree) :=
  Regex.eq_ok_of_toOption (by decide +kernel)

theorem field_eq (c : Cursor) :
    field c = .succeed (String.ofList (c.ahead.takeWhile (commaFree.holds false)))
      (c.forward (c.ahead.takeWhile (commaFree.holds false)).length) := by
  have hmatch : c.matchPattern (.runOf commaFree) "field" =
      .ok (String.ofList (c.ahead.takeWhile (commaFree.holds false)),
        c.forward (c.ahead.takeWhile (commaFree.holds false)).length) := by
    rw [matchPattern, Regex.find_runOf]
    rfl
  unfold field Pattern.parser
  rw [regex_field]
  exact congrArg Run.silent hmatch

theorem advances_field : Advances field := by
  intro c s c' h
  rw [field_eq] at h
  cases h
  exact ⟨_, rfl⟩

variable {c c' : Cursor} {s : String}

theorem field_of_between (hs : ',' ∉ s.toList) (hw : Between c s.toList c')
    (hstop : Stops (commaFree.holds false) c'.ahead) : (field c).result = .ok (s, c') := by
  have hword : ∀ ch ∈ s.toList, commaFree.holds false ch = true :=
    fun ch hch => holds_commaFree.2 fun h => hs (h ▸ hch)
  rw [field_eq, hw.ahead_eq, takeWhile_append_of_stops hword hstop, String.ofList_toList,
    ← hw.eq_forward]
  rfl

/-- A field and those behind it, up to the end of the text. -/
theorem field_of_joined {others : List (List Char)} (hs : ',' ∉ s.toList)
    (hw : Between c (s.toList ++ others.flatMap (',' :: ·)) c') (hend : c'.ahead = []) :
    (field c).result = .ok (s, c.forward s.toList.length) ∧
      Between (c.forward s.toList.length) (others.flatMap (',' :: ·)) c' := by
  obtain ⟨hfield, hothers⟩ := hw.split
  refine ⟨field_of_between hs hfield ?_, hothers⟩
  rw [hothers.ahead_eq, hend, List.append_nil]
  cases others with
  | nil => exact stops_nil _
  | cons word others => exact stops_cons.2 (by decide)

/-! ## Lists of fields -/

theorem rounds_of_joined {fields : List String} (h : ∀ s ∈ fields, ',' ∉ s.toList)
    (hw : Between c ((fields.map String.toList).flatMap (',' :: ·)) c') (hend : c'.ahead = []) :
    Rounds (followedBy (literal ",") field) c fields c' := by
  have hread : ∀ s ∈ fields, ∀ (others : List (List Char)) (d : Cursor),
      Between d (s.toList ++ others.flatMap (',' :: ·)) c' →
        (field d).result = .ok (s, d.forward s.toList.length) :=
    fun s hs _ _ hd => (field_of_joined (h s hs) hd hend).1
  simpa only [List.map_id'] using rounds_of_commas hread hw

/-- Whatever its field, a round consumes its comma. -/
theorem consumes_followedBy_field : Consumes (followedBy (literal ",") field) := by
  intro c s c' h
  obtain ⟨hcomma, hfield⟩ := followedBy_comma_ok.1 h
  obtain ⟨rest, hrest⟩ := List.head?_eq_some_iff.1 hcomma
  rw [field_eq] at hfield
  cases hfield
  simp only [ahead_forward, hrest, List.length_drop, List.length_cons]
  omega

/-- Where no field is ahead but an empty one, a list reads that one and nothing behind it. -/
theorem separatedList_field_of_stops (h : Stops (commaFree.holds false) c.ahead) :
    (separatedList (literal ",") field c).result = .ok ([""], c) := by
  have hempty : (field c).result = .ok ("", c) := field_of_between (by simp) (.refl c) h
  rw [separatedList_of_stalled hempty rfl]

theorem separatedList_field_of_joined {first : String} {others : List String}
    (h : ∀ s ∈ first :: others, ',' ∉ s.toList) (hne : first ≠ "")
    (hw : Between c ([','].intercalate ((first :: others).map String.toList)) c')
    (hend : c'.ahead = []) :
    (separatedList (literal ",") field c).result = .ok (first :: others, c') := by
  obtain ⟨hfirst, hothers⟩ := List.forall_mem_cons.1 h
  rw [List.map_cons, intercalate_cons] at hw
  obtain ⟨hfield, hrest⟩ := field_of_joined hfirst hw hend
  have hlength : 0 < first.toList.length := by
    simpa [List.length_pos_iff] using hne
  have hshorter : (c.forward first.toList.length).ahead.length < c.ahead.length := by
    have := congrArg List.length hw.ahead_eq
    simp only [ahead_forward, List.length_drop, List.length_append] at this ⊢
    omega
  have hstop : (followedBy (literal ",") field c').result =
      .error { expected := ",", position := c'.position } :=
    followedBy_comma_error.2 (.inl ⟨by simp [hend], rfl⟩)
  rw [separatedList_of_ok (onward_literal ",") advances_field.onward hfield hshorter]
  exact Run.map_ok.2
    ⟨others, (many_ok consumes_followedBy_field).2 ⟨rounds_of_joined hothers hrest hend, _, hstop, rfl⟩,
      rfl⟩

/-- The whole of a text. -/
theorem between_atStart (text : String) :
    ∃ c', Between (atStart text) text.toList c' ∧ c'.ahead = [] ∧ c'.text = text := by
  have hall : (atStart text).ahead = text.toList ++ [] := (List.append_nil _).symm
  refine ⟨_, between_of_eq_append hall, ?_, ?_⟩
  · exact List.drop_length
  · rw [text_forward, text_atStart]

/-- **Strings without commas that are joined by commas come apart again as they were, unless the first
one is empty and others stand behind it. Then the list is that first one, and nothing is passed.** -/
theorem separatedList_join {fields : List String} (hne : fields ≠ [])
    (h : ∀ s ∈ fields, ',' ∉ s.toList) :
    ((fields.length = 1 ∨ fields.head hne ≠ "") →
      ∃ c', (separatedList (literal ",") field (atStart (",".intercalate fields))).result =
          .ok (fields, c') ∧
        c'.text = ",".intercalate fields ∧ c'.atEnd = true) ∧
    (fields.length ≠ 1 → fields.head hne = "" →
      (separatedList (literal ",") field (atStart (",".intercalate fields))).result =
        .ok ([""], atStart (",".intercalate fields))) := by
  obtain ⟨first, others, rfl⟩ := List.exists_cons_of_ne_nil hne
  have hjoin : (",".intercalate (first :: others)).toList =
      [','].intercalate ((first :: others).map String.toList) := String.toList_intercalate
  refine ⟨fun hfirst => ?_, fun hlength hfirst => ?_⟩
  · by_cases hempty : first = ""
    · have hothers : others = [] := by
        simpa [hempty] using hfirst
      subst hempty hothers
      exact ⟨_, separatedList_field_of_stops (stops_nil _), rfl, rfl⟩
    · obtain ⟨c', hw, hend, htext⟩ := between_atStart (",".intercalate (first :: others))
      rw [hjoin] at hw
      refine ⟨c', separatedList_field_of_joined h hempty hw hend, htext, ?_⟩
      rw [Cursor.atEnd, hend]
      rfl
  · obtain ⟨second, others, rfl⟩ : ∃ second rest, others = second :: rest :=
      List.exists_cons_of_ne_nil (by simpa using hlength)
    have hfirst' : first = "" := hfirst
    subst hfirst'
    refine separatedList_field_of_stops ?_
    show Stops _ (",".intercalate ("" :: second :: others)).toList
    rw [hjoin, List.map_cons, intercalate_cons]
    exact stops_cons.2 (by decide)

/-- Empty fields behind the first one are read, and one in front of another is all that is read. -/
theorem separatedList_join_empty_fields :
    (∃ c', (separatedList (literal ",") field (atStart "a,,b,")).result =
        .ok (["a", "", "b", ""], c') ∧ c'.text = "a,,b," ∧ c'.atEnd = true) ∧
      (separatedList (literal ",") field (atStart ",a")).result = .ok ([""], atStart ",a") := by
  have hbehind : ∀ s ∈ ["a", "", "b", ""], ',' ∉ s.toList := by decide
  have hfront : ∀ s ∈ ["", "a"], ',' ∉ s.toList := by decide
  exact ⟨(separatedList_join (List.cons_ne_nil _ _) hbehind).1 (.inr (by decide)),
    (separatedList_join (List.cons_ne_nil _ _) hfront).2 (by decide) rfl⟩

/-- The first of two fields being empty, the second one is not read. -/
theorem not_separatedList_join_of_leading_empty :
    ¬ ∀ fields : List String, fields ≠ [] → (∀ s ∈ fields, ',' ∉ s.toList) →
      ∃ c', (separatedList (literal ",") field (atStart (",".intercalate fields))).result =
          .ok (fields, c') ∧ c'.atEnd = true := by
  intro hall
  obtain ⟨c', hread, -⟩ := hall ["", "a"] (List.cons_ne_nil _ _) (by decide)
  have hfirst : (separatedList (literal ",") field (atStart ",a")).result =
      .ok ([""], atStart ",a") := separatedList_field_of_stops (stops_cons.2 (by decide))
  cases hfirst.symm.trans hread

end Parser

end Descent
