/-!
# Lines

A text is cut into lines at its newlines, which belong to no line. So there is one line more than
there are newlines, the last one empty if the text ends with a newline, and putting the lines
together again with a newline between them gives the text back.
-/

namespace Descent.Text

def lines : List Char → List (List Char)
  | [] => [[]]
  | c :: cs =>
    if c = '\n' then [] :: lines cs
    else match lines cs with
      | [] => [[c]]
      | line :: others => (c :: line) :: others

theorem lines_ne_nil (cs : List Char) : lines cs ≠ [] := by
  fun_cases lines cs <;> simp

theorem length_lines (cs : List Char) : (lines cs).length = cs.count '\n' + 1 := by
  fun_induction lines cs with
  | case1 => rfl
  | case2 cs ih => simp [ih]
  | case3 c cs _ h => exact absurd h (lines_ne_nil cs)
  | case4 c cs hc line others h ih => simp_all

/-- No line has a newline in it. -/
theorem newline_notMem_of_mem_lines {cs line : List Char} (h : line ∈ lines cs) : '\n' ∉ line := by
  fun_induction lines cs generalizing line with
  | case1 => simp_all
  | case2 cs ih =>
    rcases List.mem_cons.1 h with rfl | h
    · simp
    · exact ih h
  | case3 c cs _ hl => exact absurd hl (lines_ne_nil cs)
  | case4 c cs hc first others hl ih =>
    rcases List.mem_cons.1 h with rfl | h
    · have := ih (hl ▸ List.mem_cons_self)
      simp_all [eq_comm]
    · exact ih (hl ▸ List.mem_cons_of_mem _ h)

/-- The lines with a newline between them are the text. -/
theorem intercalate_lines (cs : List Char) : ['\n'].intercalate (lines cs) = cs := by
  fun_induction lines cs with
  | case1 => rfl
  | case2 cs ih =>
    obtain ⟨line, others, hl⟩ := List.exists_cons_of_ne_nil (lines_ne_nil cs)
    rw [hl] at ih ⊢
    simp [List.intercalate, List.intersperse] at ih ⊢
    exact ih
  | case3 c cs _ hl => exact absurd hl (lines_ne_nil cs)
  | case4 c cs hc line others hl ih =>
    rw [hl] at ih
    rw [← ih]
    cases others <;> simp [List.intercalate, List.intersperse]

end Descent.Text
