import Descent.Diagnostic
import Descent.Proofs.LineAndColumn

/-!
# The lines around a failure

A report shows the line that the diagnostic is about, up to two lines before it and up to two after it.
It works the place out anew, from the offset that the diagnostic gives. As that offset lies between two
characters it is not moved a second time (`Location.ofOffset_position`), so the line that is marked and
the column that is pointed at are those of the header.

* `Text.row segments mark n` : line `n` of a text as it is shown, behind a mark and its number;
* `Location.contextLines_eq` : the lines that are shown, told apart by where they stand;
* `Diagnostic.report_window` : the report as a whole.
-/

namespace Descent

/-! ## Lines by their numbers -/

namespace Text

variable {α : Type}

/-- Line `n` of these, behind `mark` and its number. Lines are counted from one. -/
def row (segments : List (List Char)) (mark : String) (n : Nat) : String :=
  mark ++ toString n ++ " | " ++ String.ofList (segments.getD (n - 1) [])

/-- A stretch of lines, each taken together with its number. -/
theorem mapIdx_window (segments : List (List Char)) (g : Nat → List Char → α) {first : Nat}
    (hfirst : 1 ≤ first) (last : Nat) :
    ((segments.drop (first - 1)).take (last - (first - 1))).mapIdx (fun i line => g (first + i) line) =
      (List.range' first (min segments.length last + 1 - first)).map fun n =>
        g n (segments.getD (n - 1) []) := by
  apply List.ext_getElem
  · simp only [List.length_mapIdx, List.length_take, List.length_drop, List.length_map,
      List.length_range']
    omega
  · intro i h1 h2
    simp only [List.length_mapIdx, List.length_take, List.length_drop] at h1
    have hindex : first - 1 + i = first + i - 1 := by omega
    have hi : first + i - 1 < segments.length := by omega
    simp only [List.getElem_mapIdx, List.getElem_take, List.getElem_drop, List.getElem_map,
      List.getElem_range', Nat.one_mul, hindex]
    exact congrArg (g (first + i)) (List.getElem_eq_getD [])

theorem charsWithin_take_charsWithin (n : Nat) (cs : List Char) :
    charsWithin (byteLength (cs.take (charsWithin n cs))) cs = charsWithin n cs := by
  have h := charsWithin_byteLength (cs.take (charsWithin n cs)) (cs.drop (charsWithin n cs))
  rwa [List.take_append_drop, List.length_take_of_le (charsWithin_le_length n cs)] at h

end Text

/-! ## The lines around a location -/

namespace Location

variable {l : Location}

/-- An offset that was moved between two characters stays where it is. -/
theorem ofOffset_position (text : String) (offset : Nat) :
    ofOffset text (ofOffset text offset).position = ofOffset text offset := by
  show ofOffset text (Text.byteLength (text.toList.take (Text.charsWithin offset text.toList))) = _
  unfold ofOffset
  rw [Text.charsWithin_take_charsWithin]

theorem shown_of_ne {n : Nat} (h : n ≠ l.line) (segments : List (List Char)) :
    l.shown n (segments.getD (n - 1) []) = [Text.row segments "    " n] := by
  rw [shown, margin, if_neg h, if_neg h]
  rfl

theorem shown_line (l : Location) (segments : List (List Char)) :
    l.shown l.line (segments.getD (l.line - 1) []) = [Text.row segments "  > " l.line, l.pointer] := by
  rw [shown, margin, if_pos rfl, if_pos rfl]
  rfl

/-- Lines among which that of the location is not are shown one by one. -/
theorem flatMap_shown {ns : List Nat} (h : ∀ n ∈ ns, n ≠ l.line) (segments : List (List Char)) :
    (ns.flatMap fun n => l.shown n (segments.getD (n - 1) [])) = ns.map (Text.row segments "    ") := by
  rw [List.map_eq_flatMap]
  apply List.flatMap_congr
  intro n hn
  exact shown_of_ne (h n hn) segments

theorem line_le_length (l : Location) : l.line ≤ (Text.lines l.text).length := by
  obtain ⟨line, hline, -⟩ := l.exists_line_eq
  have hlt := (List.getElem?_eq_some_iff.1 hline).1
  omega

/-- Going through the lines one by one, past those with a number below `first` and up to the one with
the number `last`, comes to cutting out these lines. -/
theorem shownBetween_eq (l : Location) (first last n : Nat) (segments : List (List Char)) :
    l.shownBetween first last n segments =
      (((segments.drop (first - n)).take (last + 1 - max first n)).mapIdx fun i content =>
        l.shown (max first n + i) content).flatten := by
  induction segments generalizing n with
  | nil => simp [shownBetween]
  | cons content rest ih =>
    rw [shownBetween, ih (n + 1)]
    rcases Nat.lt_or_ge n first with hbelow | hreached
    · have hskip : first - n = first - (n + 1) + 1 := by omega
      have hmax : max first (n + 1) = max first n := by omega
      rw [if_pos hbelow, hmax, hskip, List.drop_succ_cons]
    · have hnow : first - n = 0 := by omega
      have hnext : first - (n + 1) = 0 := by omega
      have hmax : max first n = n := by omega
      have hmax' : max first (n + 1) = n + 1 := by omega
      rw [if_neg (Nat.not_lt.2 hreached), hnow, hnext, hmax, hmax', List.drop_zero, List.drop_zero]
      split
      · next hpast =>
        rw [Nat.sub_eq_zero_of_le hpast]
        rfl
      · next hshown =>
        have hroom : last + 1 - n = last + 1 - (n + 1) + 1 := by omega
        rw [hroom, List.take_succ_cons, List.mapIdx_cons, List.flatten_cons]
        simp only [Nat.add_zero, Nat.add_assoc, Nat.add_comm 1]

/-- The lines before that of the location, that line with the pointer below it, and the lines after. -/
theorem contextLines_eq (l : Location) :
    let segments := Text.lines l.text
    let first := max 1 (l.line - 2)
    let last := min segments.length (l.line + 2)
    l.contextLines = (List.range' first (l.line - first)).map (Text.row segments "    ") ++
      [Text.row segments "  > " l.line, l.pointer] ++
      (List.range' (l.line + 1) (last - l.line)).map (Text.row segments "    ") := by
  intro segments first last
  have hone := l.one_le_line
  have hlast : l.line ≤ segments.length := l.line_le_length
  have hsplit : List.range' first (last + 1 - first) =
      List.range' first (l.line - first) ++ l.line :: List.range' (l.line + 1) (last - l.line) := by
    have hline : first + 1 * (l.line - first) = l.line := by omega
    have hjoin := @List.range'_append first (l.line - first) (last - l.line + 1) 1
    rw [hline, List.range'_succ] at hjoin
    rw [hjoin]
    congr 1
    omega
  have habove : ∀ n ∈ List.range' first (l.line - first), n ≠ l.line := by
    intro n hn
    have := List.mem_range'_1.1 hn
    omega
  have hbelow : ∀ n ∈ List.range' (l.line + 1) (last - l.line), n ≠ l.line := by
    intro n hn
    have := List.mem_range'_1.1 hn
    omega
  have hfirst : 1 ≤ first := Nat.le_max_left 1 _
  have hwindow : l.line + 2 + 1 - max first 1 = l.line + 2 - (first - 1) := by omega
  calc l.contextLines
      = (((segments.drop (first - 1)).take (l.line + 2 - (first - 1))).mapIdx fun i content =>
          l.shown (first + i) content).flatten := by
        rw [contextLines, shownBetween_eq, hwindow, Nat.max_eq_left hfirst]
    _ = ((List.range' first (last + 1 - first)).map fun n =>
          l.shown n (segments.getD (n - 1) [])).flatten :=
        congrArg List.flatten (Text.mapIdx_window segments l.shown hfirst (l.line + 2))
    _ = (List.range' first (last + 1 - first)).flatMap fun n =>
          l.shown n (segments.getD (n - 1) []) := List.flatMap_def.symm
    _ = _ := by
        rw [hsplit, List.flatMap_append, List.flatMap_cons, flatMap_shown habove,
          flatMap_shown hbelow, shown_line, List.append_assoc]

end Location

/-! ## Reports -/

namespace Diagnostic

/-- **A report is the header, an empty line, and then the lines from two before the one that the
diagnostic names to two after it, as far as there are such lines. Each has its own number in front and
is otherwise as it is in the text. The line of the diagnostic alone is marked, and below it the pointer
stands at the diagnostic's column behind what is in front of the line. This is the place of the
diagnostic, and it is found again from its offset.** -/
theorem report_window (source : String) (f : Failure) :
    let d := ofFailure source f
    let segments := source.toList.splitOn '\n'
    let first := max 1 (d.line - 2)
    let last := min segments.length (d.line + 2)
    let heading := "Syntax error at line " ++ toString d.line ++ ", byte offset " ++
      toString d.column ++ ": expected " ++ f.expected
    let margin := "  > " ++ toString d.line ++ " | "
    let pointer := String.ofList (List.replicate (margin.utf8ByteSize + d.column) ' ') ++ "^--- here"
    1 ≤ first ∧ first ≤ d.line ∧ d.line ≤ last ∧
      d.report source = String.join ((
        [heading, ""] ++
        (List.range' first (d.line - first)).map (Text.row segments "    ") ++
        [Text.row segments "  > " d.line, pointer] ++
        (List.range' (d.line + 1) (last - d.line)).map (Text.row segments "    ")).map (· ++ "\n")) ∧
      d.column ≤ Text.byteLength (segments.getD (d.line - 1) []) ∧
      ((segments.take (d.line - 1)).map (Text.byteLength · + 1)).sum + d.column = d.offset ∧
      Location.ofOffset source d.offset = Location.ofOffset source f.position := by
  intro d segments first last heading margin pointer
  let l := Location.ofOffset source f.position
  have htext : l.text = source.toList := Location.text_ofOffset source f.position
  have hlines : Text.lines l.text = segments := by rw [htext, Text.lines_eq_splitOn]
  have hone : 1 ≤ d.line := l.one_le_line
  have hle : d.line ≤ segments.length := hlines ▸ l.line_le_length
  have hagain : Location.ofOffset source d.offset = l := Location.ofOffset_position source f.position
  refine ⟨Nat.le_max_left 1 _, by omega, by omega, ?_, ?_, ?_, hagain⟩
  · have hpointer : l.pointer = pointer := by
      rw [Location.pointer, Location.margin, if_pos rfl]
      rfl
    have hcontext := l.contextLines_eq
    rw [hlines, hpointer] at hcontext
    unfold report
    rw [hagain, hcontext]
    show String.join ((heading ++ "\n") :: "\n" :: _) =
      String.join ((heading ++ "\n") :: ("" ++ "\n") :: _)
    rw [String.empty_append]
    rfl
  · obtain ⟨line, hline, hcolumn⟩ := l.exists_line_eq
    rw [hlines] at hline
    have hgetD : segments.getD (d.line - 1) [] = line := by
      rw [List.getD_eq_getElem?_getD]
      exact congrArg (Option.getD · []) hline
    rw [hgetD]
    exact hcolumn
  · have hplace := l.lineStart_add_column
    rwa [hlines] at hplace

/-- Behind a final newline there is an empty line to point at. -/
example :
    (ofFailure "a\nb\n" { expected := "x", position := 9 }).report "a\nb\n" =
      "Syntax error at line 3, byte offset 0: expected x\n\n" ++
        "    1 | a\n    2 | b\n  > 3 | \n        ^--- here\n" := by
  decide

end Diagnostic

end Descent
