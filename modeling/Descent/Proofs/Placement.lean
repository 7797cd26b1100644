import Mathlib.Data.List.DropRight
import Descent.Proofs.Modes
import Descent.Proofs.Unfinished
import Descent.Proofs.WellBehaved

/-!
# Where a diagnostic points

A diagnostic is made from the failure that ended the parse (`Cause`), which is located behind what was
read of the text. What was read are words, brackets and commas: no line break is among them, and each
of their characters takes one byte. Hence the place that is reported is the place of the failure, to
the byte, and it is in the first line of the text whatever follows (`reported_place`).
-/

namespace Descent

open Descent.Grammar Descent.Parser Descent.Cursor

/-! ## Places between two characters -/

namespace Text

variable {text : String} {as bs : List Char}

theorem eq_append_of_toList_eq (h : text.toList = as ++ bs) :
    text = String.ofList as ++ String.ofList bs := by
  rw [← String.ofList_append, ← h, String.ofList_toList]

theorem boundary_byteLength (h : text.toList = as ++ bs) : Boundary text (byteLength as) := by
  refine String.Pos.Raw.isValid_iff_exists_append.2 ⟨_, _, eq_append_of_toList_eq h, ?_⟩
  rw [String.rawEndPos, utf8ByteSize_ofList]

end Text

/-! ## Locations in the first line -/

namespace Location

variable {l : Location}

/-- An offset between two characters divides the text there. -/
theorem before_ofOffset {text : String} {as bs : List Char} (h : text.toList = as ++ bs) :
    (ofOffset text (Text.byteLength as)).before = as := by
  simp [ofOffset, h, Text.charsWithin_byteLength]

theorem line_of_not_mem (h : '\n' ∉ l.before) : l.line = 1 := by
  rw [line, List.count_eq_zero.2 h]

theorem column_of_not_mem (h : '\n' ∉ l.before) : l.column = l.position := by
  have hline : l.before.rtakeWhile (· ≠ '\n') = l.before :=
    List.rtakeWhile_eq_self_iff.2 fun ch hch => decide_eq_true fun heq => h (heq ▸ hch)
  exact congrArg Text.byteLength hline

end Location

/-! ## The failure that ends a parse -/

variable {options : Options} {text : String} {f : Failure} {d : Diagnostic}

/-- The parse fails by `f`: no expression can be read, or in strict mode more follows it. -/
inductive Cause (options : Options) (text : String) (f : Failure) : Prop where
  | refused (h : (expression (atStart text options.maxDepth)).result = .error f)
  | trailing {e : Expression} {c : Cursor} (hm : options.mode = .strict)
    (h : (expression (atStart text options.maxDepth)).result = .ok (e, c)) (hc : c.atEnd = false)
    (hf : f = { expected := "end of input", position := c.position })

/-- The failure that a parse ends with is reported and noted at the end of the journal. -/
theorem cause_of_error (h : (parseWith options text).result = .error d) :
    ∃ f, Cause options text f ∧ d = .ofFailure text f ∧
      (parseWith options text).journal.getLast? = some (.rejected text f) := by
  cases hr : (expression (atStart text options.maxDepth)).result with
  | error f =>
    simp only [parseWith, hr] at h ⊢
    cases h
    exact ⟨f, .refused hr, rfl, List.getLast?_concat⟩
  | ok found =>
    obtain ⟨e, c⟩ := found
    simp only [parseWith, hr, Parse.settle] at h ⊢
    cases hc : c.atEnd with
    | true => simp [hc] at h
    | false =>
      cases hm : options.mode with
      | lenient => simp [hc, hm] at h
      | strict =>
        simp only [hc, hm, Bool.false_eq_true, if_false] at h ⊢
        cases h
        exact ⟨_, .trailing hm hr hc rfl, rfl, List.getLast?_concat⟩

theorem Cause.readUpTo (h : Cause options text f) :
    ReadUpTo (atStart text options.maxDepth) f.position := by
  cases h with
  | refused h => exact readUpTo_of_error h
  | trailing hm h hc hf =>
    obtain ⟨word, hw, he, -⟩ := expression_ok.1 h
    rw [hf]
    exact readUpTo_of_between hw he.spelled

/-! ## The place that is reported -/

theorem not_mem_of_spelled {word : List Char} (h : Spelled word) : '\n' ∉ word :=
  fun hm => absurd (h '\n' hm) (by decide)

theorem before_of_readUpTo {D n : Nat} (h : ReadUpTo (atStart text D) n) :
    Spelled (Location.ofOffset text n).before ∧ Text.byteLength (Location.ofOffset text n).before = n ∧
      ∃ rest, text.toList = (Location.ofOffset text n).before ++ rest := by
  obtain ⟨word, rest, htext, hspelled, hn⟩ := h
  obtain rfl : n = Text.byteLength word := hn.trans (Nat.zero_add _)
  rw [Location.before_ofOffset htext]
  exact ⟨hspelled, rfl, rest, htext⟩

/-- **A diagnostic points exactly where the failure is. Only words, brackets and commas stand in front
of that place, so it is in the first line, and the column is the offset.** -/
theorem reported_place (h : (parseWith options text).result = .error d) :
    ∃ f, Cause options text f ∧ d = .ofFailure text f ∧
      (parseWith options text).journal.getLast? = some (.rejected text f) ∧
      d.offset = f.position ∧ d.offset ≤ text.utf8ByteSize ∧ Text.Boundary text d.offset ∧
      (∃ front back, text = front ++ back ∧ front.utf8ByteSize = d.offset ∧
        ∀ ch ∈ front.toList, isTokenChar ch = true) ∧
      d.line = 1 ∧ d.column = d.offset := by
  obtain ⟨f, hcause, rfl, hlast⟩ := cause_of_error h
  obtain ⟨hspelled, hplace, rest, htext⟩ := before_of_readUpTo hcause.readUpTo
  have hbreak := not_mem_of_spelled hspelled
  have hboundary := Text.boundary_byteLength htext
  refine ⟨f, hcause, rfl, hlast, hplace, hboundary.le_size, hboundary, ?_,
    Location.line_of_not_mem hbreak, Location.column_of_not_mem hbreak⟩
  refine ⟨_, _, Text.eq_append_of_toList_eq htext, Text.utf8ByteSize_ofList _, ?_⟩
  rw [String.toList_ofList]
  exact hspelled

/-- Neither the accent nor the line break behind the place matters to it. -/
theorem reported_place_accent :
    ∃ d, (parseWith {} "f(é\n").result = .error d ∧ d.expected = "Bracket: )" ∧ d.offset = 2 ∧
      d.line = 1 ∧ d.column = d.offset := by
  let c : Cursor := atStart "f(é\n" defaultMaxDepth
  have hname : NameAhead c.ahead ['f'] ['(', 'é', '\n'] :=
    ⟨⟨by decide, by simp⟩, by decide, stops_cons.2 (by decide), rfl⟩
  have harg : (expression (argumentsAt c ['f'])).result =
      .error { expected := "true", position := 2 } := by
    rw [expression_eq, expressionOf_of_nothing (by decide) (stops_cons.2 (by decide))]
    rfl
  have hargs : (arguments expression c ['f']).result = .ok ([], argumentsAt c ['f']) := by
    rw [arguments, separatedList_of_error harg rfl]
  have hcall := callOf_noClosing hname (by decide) rfl hargs (by decide)
  have hf : (expression c).result = .error { expected := "Bracket: )", position := 2 } := by
    rw [expression_eq, expressionOf_of_name_refused hname hcall rfl (by decide)]
    rfl
  have h : (parseWith {} "f(é\n").result = .error _ := parseWith_of_error hf
  obtain ⟨-, -, -, -, -, -, -, -, hline, hcolumn⟩ := reported_place h
  exact ⟨_, h, rfl, rfl, hline, hcolumn⟩

end Descent
