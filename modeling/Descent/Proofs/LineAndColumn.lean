import Mathlib.Algebra.Ring.Nat
import Mathlib.Order.Bounds.Defs
import Descent.Proofs.Attempt
import Descent.Proofs.Placement

/-!
# From line and column back to the offset

The line of a location counts the newlines before it, its column the bytes after the last of them, and
the lines that are shown are cut out of the whole text. The three agree: cut at the place, the text
before it has all of its lines but the last in common with the whole text, and its last one is the part
of the location's line before it (`Text.lines_append`, `Location.exists_lines_eq`).

* `Text.lineStart` : where a line starts, behind the lines before it and their newlines;
* `Location.lineStart_add_column` : line and column determine the place;
* `Location.lex_iff` : lines, and columns in one line, are in the order of the places.

With `Location.isGreatest_position`, that an offset is moved back no further than it must be, this is
`Location.place_of_offset`.
-/

namespace Descent

/-! ## Lines -/

namespace Text

theorem lines_eq_splitOn (cs : List Char) : lines cs = cs.splitOn '\n' := by
  fun_induction lines cs with
  | case1 => rfl
  | case2 cs ih => rw [List.splitOn_cons_eq_if_modifyHead, if_pos (beq_self_eq_true _), ih]
  | case3 c cs _ h => exact absurd h (lines_ne_nil cs)
  | case4 c cs hc first others h ih =>
    rw [List.splitOn_cons_eq_if_modifyHead, if_neg (by simpa using hc), ← ih, h]
    rfl

/-- Where two texts meet, the last line of the one goes on as the first line of the other. -/
theorem lines_append {as bs last first : List Char} {front others : List (List Char)}
    (ha : lines as = front ++ [last]) (hb : lines bs = first :: others) :
    lines (as ++ bs) = front ++ (last ++ first) :: others := by
  fun_induction lines as generalizing front last with
  | case1 =>
    obtain ⟨rfl, rfl⟩ : front = [] ∧ last = [] := by
      cases front <;> simp_all
    exact hb
  | case2 as ih =>
    cases front with
    | nil => exact absurd (List.cons.inj ha).2 (lines_ne_nil as)
    | cons line front =>
      obtain ⟨rfl, hrest⟩ := List.cons.inj ha
      rw [List.cons_append, lines, if_pos rfl, ih hrest]
      rfl
  | case3 c as _ h => exact absurd h (lines_ne_nil as)
  | case4 c as hc line rest h ih =>
    rw [List.cons_append, lines, if_neg hc]
    cases front with
    | nil =>
      obtain ⟨rfl, rfl⟩ := List.cons.inj ha
      rw [ih (show lines as = [] ++ [line] from h)]
      rfl
    | cons line' front =>
      obtain ⟨rfl, rfl⟩ := List.cons.inj ha
      rw [ih (show lines as = (line :: front) ++ [last] from h)]
      rfl

/-- The last line is what stands behind the last newline. -/
theorem exists_lines_eq_concat (cs : List Char) :
    ∃ front, lines cs = front ++ [cs.rtakeWhile (· ≠ '\n')] := by
  -- what stands behind the last newline is found from the back, the lines from the front
  induction cs using List.reverseRecOn with
  | nil => exact ⟨[], rfl⟩
  | append_singleton cs c ih =>
    obtain ⟨front, h⟩ := ih
    by_cases hc : c = '\n'
    · subst hc
      have hnewline : lines ['\n'] = [] :: [[]] := rfl
      refine ⟨front ++ [cs.rtakeWhile (· ≠ '\n')], ?_⟩
      rw [List.rtakeWhile_concat_neg _ _ _ (by simp), lines_append h hnewline, List.append_nil,
        List.append_assoc]
      rfl
    · refine ⟨front, ?_⟩
      rw [List.rtakeWhile_concat_pos _ _ _ (by simpa using hc)]
      exact lines_append h (by simp [lines, hc])

/-- The bytes of the first `n` of these lines, each with its newline. -/
def lineStart (segments : List (List Char)) (n : Nat) : Nat :=
  ((segments.take n).map (byteLength · + 1)).sum

variable {segments : List (List Char)}

theorem lineStart_succ {n : Nat} {line : List Char} (h : segments[n]? = some line) :
    lineStart segments (n + 1) = lineStart segments n + byteLength line + 1 := by
  simp [lineStart, List.take_add_one, h, Nat.add_assoc]

theorem lineStart_mono {m n : Nat} (h : m ≤ n) : lineStart segments m ≤ lineStart segments n := by
  obtain ⟨k, rfl⟩ := Nat.exists_eq_add_of_le h
  simp [lineStart, List.take_add]

/-- With a newline behind the last line as well, the lines take one byte more than the text. -/
theorem sum_lines (cs : List Char) :
    ((lines cs).map (byteLength · + 1)).sum = byteLength cs + 1 := by
  fun_induction lines cs with
  | case1 => rfl
  | case2 cs ih =>
    have hnewline : '\n'.utf8Size = 1 := rfl
    rw [List.map_cons, List.sum_cons, ih, byteLength_nil, byteLength_cons]
    omega
  | case3 c cs _ h => exact absurd h (lines_ne_nil cs)
  | case4 c cs hc first others h ih =>
    rw [h, List.map_cons, List.sum_cons] at ih
    rw [List.map_cons, List.sum_cons, byteLength_cons, byteLength_cons]
    omega

theorem byteLength_take_mono (cs : List Char) {m n : Nat} (h : m ≤ n) :
    byteLength (cs.take m) ≤ byteLength (cs.take n) := by
  obtain ⟨k, rfl⟩ := Nat.exists_eq_add_of_le h
  simp [List.take_add]

end Text

/-! ## Locations -/

namespace Location

variable {l l' : Location}

/-- The lines of the text, with that of the location cut in two there. -/
theorem exists_lines_eq (l : Location) : ∃ front back others,
    Text.lines l.text = front ++ (l.lineBefore ++ back) :: others ∧ front.length + 1 = l.line ∧
      (front.map (Text.byteLength · + 1)).sum + l.column = l.position := by
  obtain ⟨front, hfront⟩ := Text.exists_lines_eq_concat l.before
  obtain ⟨back, others, hback⟩ := List.exists_cons_of_ne_nil (Text.lines_ne_nil l.after)
  refine ⟨front, back, others, Text.lines_append hfront hback, ?_, ?_⟩
  · rw [line, ← Text.length_lines, hfront, List.length_append, List.length_singleton]
  · have hsum := Text.sum_lines l.before
    rw [hfront, List.map_append, List.sum_append, List.map_singleton, List.sum_singleton] at hsum
    exact Nat.succ.inj hsum

theorem one_le_line (l : Location) : 1 ≤ l.line := Nat.succ_pos _

theorem exists_line_eq (l : Location) :
    ∃ line, (Text.lines l.text)[l.line - 1]? = some line ∧ l.column ≤ Text.byteLength line := by
  obtain ⟨front, back, others, hlines, hline, -⟩ := l.exists_lines_eq
  refine ⟨l.lineBefore ++ back, ?_, ?_⟩
  · rw [hlines, ← hline, Nat.add_sub_cancel, List.getElem?_append_right (Nat.le_refl _), Nat.sub_self,
      List.getElem?_cons_zero]
  · rw [Text.byteLength_append]
    exact Nat.le_add_right _ _

theorem lineStart_add_column (l : Location) :
    Text.lineStart (Text.lines l.text) (l.line - 1) + l.column = l.position := by
  obtain ⟨front, back, others, hlines, hline, hsum⟩ := l.exists_lines_eq
  rw [hlines, ← hline, Nat.add_sub_cancel, Text.lineStart, List.take_left, hsum]

/-- A place in an earlier line is an earlier place. -/
theorem position_lt_of_line_lt (ht : l.text = l'.text) (h : l.line < l'.line) :
    l.position < l'.position := by
  obtain ⟨line, hline, hcolumn⟩ := l.exists_line_eq
  have hone := l.one_le_line
  have hmono : Text.lineStart (Text.lines l.text) (l.line - 1 + 1) ≤
      Text.lineStart (Text.lines l.text) (l'.line - 1) := Text.lineStart_mono (by omega)
  rw [Text.lineStart_succ hline] at hmono
  rw [← l.lineStart_add_column, ← l'.lineStart_add_column, ← ht]
  omega

theorem position_lt_iff_of_line_eq (ht : l.text = l'.text) (h : l.line = l'.line) :
    l.position < l'.position ↔ l.column < l'.column := by
  rw [← l.lineStart_add_column, ← l'.lineStart_add_column, ← ht, ← h]
  exact Nat.add_lt_add_iff_left

/-- Line and column have the order of the places. -/
theorem lex_iff (ht : l.text = l'.text) :
    Prod.Lex (· < ·) (· < ·) (l.line, l.column) (l'.line, l'.column) ↔ l.position < l'.position := by
  rw [Prod.lex_def]
  rcases Nat.lt_trichotomy l.line l'.line with h | h | h
  · exact iff_of_true (.inl h) (position_lt_of_line_lt ht h)
  · simp [h, position_lt_iff_of_line_eq ht h]
  · have hlt := position_lt_of_line_lt ht.symm h
    exact iff_of_false (by dsimp only; omega) (by omega)

theorem line_column_eq_iff (ht : l.text = l'.text) :
    (l.line, l.column) = (l'.line, l'.column) ↔ l.position = l'.position := by
  constructor
  · intro h
    obtain ⟨hline, hcolumn⟩ := Prod.mk.inj h
    rw [← l.lineStart_add_column, ← l'.lineStart_add_column, ht, hline, hcolumn]
  · intro h
    have hlt := mt (lex_iff ht).1 (Nat.lt_irrefl _ <| h ▸ ·)
    have hgt := mt (lex_iff ht.symm).1 (Nat.lt_irrefl _ <| h ▸ ·)
    rw [Prod.lex_def] at hlt hgt
    rw [Prod.mk.injEq]
    dsimp only at hlt hgt
    omega

/-- An offset is moved back to the next place between two characters, and no further. -/
theorem isGreatest_position (text : String) (offset : Nat) :
    IsGreatest {n | Text.Boundary text n ∧ n ≤ min offset text.utf8ByteSize}
      (ofOffset text offset).position := by
  refine ⟨?_, ?_⟩
  · have hboundary : Text.Boundary text (ofOffset text offset).position :=
      Text.boundary_byteLength (List.take_append_drop _ _).symm
    exact ⟨hboundary, Nat.le_min.2 ⟨Text.byteLength_take_charsWithin_le _ _, hboundary.le_size⟩⟩
  · rintro n ⟨hn, hle⟩
    obtain ⟨k, hk, rfl⟩ := hn.exists_take
    rcases Nat.lt_or_ge (Text.charsWithin offset text.toList) k with hlt | hge
    · have := Text.lt_byteLength_of_charsWithin_lt hlt (String.length_toList ▸ hk)
      omega
    · exact Text.byteLength_take_mono _ hge

/-- **A location is at the last place between two characters that is not behind its offset. Its line is
one of the lines of the text, which reach to its column or further, and with the lines before it the
column gives the place. So two places of a text are in the order of their lines and columns, and no two
of them have line and column in common.** -/
theorem place_of_offset (text : String) (offset : Nat) :
    let l := ofOffset text offset
    let segments := text.toList.splitOn '\n'
    Text.lines l.text = segments ∧
      IsGreatest {n | Text.Boundary text n ∧ n ≤ min offset text.utf8ByteSize} l.position ∧
      1 ≤ l.line ∧ l.line ≤ segments.length ∧
      (∃ line, segments[l.line - 1]? = some line ∧ l.column ≤ Text.byteLength line) ∧
      ((segments.take (l.line - 1)).map (Text.byteLength · + 1)).sum + l.column = l.position ∧
      ∀ offset',
        let l' := ofOffset text offset'
        (Prod.Lex (· < ·) (· < ·) (l.line, l.column) (l'.line, l'.column) ↔
            l.position < l'.position) ∧
          ((l.line, l.column) = (l'.line, l'.column) ↔ l.position = l'.position) := by
  intro l segments
  have htext : l.text = text.toList := text_ofOffset text offset
  have hlines : Text.lines l.text = segments := by rw [htext, Text.lines_eq_splitOn]
  obtain ⟨line, hline, hcolumn⟩ := l.exists_line_eq
  have hplace := l.lineStart_add_column
  rw [hlines] at hline hplace
  have hlt := (List.getElem?_eq_some_iff.1 hline).1
  refine ⟨hlines, isGreatest_position text offset, l.one_le_line, by omega, ⟨line, hline, hcolumn⟩,
    hplace, fun offset' => ?_⟩
  have ht : l.text = (ofOffset text offset').text := htext.trans (text_ofOffset text offset').symm
  exact ⟨lex_iff ht, line_column_eq_iff ht⟩

/-- An offset inside the accent is moved in front of it, one past the end into the empty last line. -/
example :
    ((ofOffset "a\né\n" 3).position, (ofOffset "a\né\n" 3).line, (ofOffset "a\né\n" 3).column) =
        (2, 2, 0) ∧
      ((ofOffset "a\né\n" 9).position, (ofOffset "a\né\n" 9).line, (ofOffset "a\né\n" 9).column) =
        (5, 3, 0) := by
  decide

end Location

end Descent
