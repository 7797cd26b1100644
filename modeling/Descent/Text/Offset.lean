/-!
# Byte offsets into text

Text is handled character by character, while every offset that is shown counts the bytes of the
text's UTF-8 form. This module converts between the two.

* `byteLength cs` : the number of bytes of `cs`;
* `charsWithin n cs` : how many whole characters at the front of `cs` fit into `n` bytes, so an
  offset inside a character is moved back to the start of that character and one past the end to
  the end (`byteLength_take_charsWithin_le`, `lt_byteLength_of_charsWithin_lt`), and one between
  two characters is left alone (`charsWithin_byteLength`). What a budget has left behind some
  characters is spent on the next ones (`charsWithin_byteLength_add`).
-/

namespace Descent.Text

def byteLength : List Char → Nat
  | [] => 0
  | c :: cs => c.utf8Size + byteLength cs

/-- The number of characters at the front of `cs` that together take at most `n` bytes. -/
def charsWithin : Nat → List Char → Nat
  | _, [] => 0
  | n, c :: cs => if c.utf8Size ≤ n then charsWithin (n - c.utf8Size) cs + 1 else 0

@[simp] theorem byteLength_nil : byteLength [] = 0 := rfl

@[simp] theorem byteLength_cons (c : Char) (cs : List Char) :
    byteLength (c :: cs) = c.utf8Size + byteLength cs := rfl

@[simp] theorem byteLength_append (as bs : List Char) :
    byteLength (as ++ bs) = byteLength as + byteLength bs := by
  induction as with
  | nil => simp
  | cons c cs ih => simp [ih, Nat.add_assoc]

@[simp] theorem byteLength_reverse (cs : List Char) : byteLength cs.reverse = byteLength cs := by
  induction cs with
  | nil => rfl
  | cons c cs ih => simp [ih, Nat.add_comm]

theorem charsWithin_le_length (n : Nat) (cs : List Char) : charsWithin n cs ≤ cs.length := by
  fun_induction charsWithin n cs <;> simp_all

/-- The front part that `charsWithin` counts keeps within the budget. -/
theorem byteLength_take_charsWithin_le (n : Nat) (cs : List Char) :
    byteLength (cs.take (charsWithin n cs)) ≤ n := by
  fun_induction charsWithin n cs with
  | case1 => simp
  | case2 n c cs h ih => simp; omega
  | case3 => simp

/-- One character more would go over the budget. -/
theorem lt_byteLength_of_charsWithin_lt {n k : Nat} {cs : List Char}
    (h : charsWithin n cs < k) (hk : k ≤ cs.length) : n < byteLength (cs.take k) := by
  fun_induction charsWithin n cs generalizing k with
  | case1 => simp at hk; omega
  | case2 n c cs hc ih =>
    cases k with
    | zero => omega
    | succ k =>
      have := ih (k := k) (by omega) (by simpa using hk)
      simp; omega
  | case3 n c cs hc =>
    cases k with
    | zero => omega
    | succ k => simp; omega

theorem length_le_byteLength (cs : List Char) : cs.length ≤ byteLength cs := by
  induction cs with
  | nil => simp
  | cons c cs ih =>
    have := c.utf8Size_pos
    simp only [List.length_cons, byteLength_cons]
    omega

theorem utf8ByteSize_ofList (cs : List Char) : (String.ofList cs).utf8ByteSize = byteLength cs := by
  induction cs with
  | nil => rfl
  | cons c cs ih =>
    rw [String.ofList_cons, String.utf8ByteSize_append, String.utf8ByteSize_singleton, ih,
      byteLength_cons]

theorem byteLength_toList (s : String) : byteLength s.toList = s.utf8ByteSize := by
  rw [← utf8ByteSize_ofList, String.ofList_toList]

/-- Behind the front part of a text, a budget for the whole counts on in the rest. -/
theorem charsWithin_byteLength_add (as bs : List Char) (n : Nat) :
    charsWithin (byteLength as + n) (as ++ bs) = as.length + charsWithin n bs := by
  induction as with
  | nil => simp
  | cons a as ih =>
    have hfits : a.utf8Size ≤ a.utf8Size + byteLength as + n := by omega
    have hleft : a.utf8Size + byteLength as + n - a.utf8Size = byteLength as + n := by omega
    rw [byteLength_cons, List.cons_append, charsWithin, if_pos hfits, hleft, ih, List.length_cons]
    omega

/-- A budget that ends between two characters is used up. -/
theorem charsWithin_byteLength (as bs : List Char) :
    charsWithin (byteLength as) (as ++ bs) = as.length := by
  have hnothing : charsWithin 0 bs = 0 := by
    cases bs with
    | nil => rfl
    | cons b bs => simp [charsWithin, Nat.not_le.2 b.utf8Size_pos]
  have h := charsWithin_byteLength_add as bs 0
  rwa [hnothing, Nat.add_zero, Nat.add_zero] at h

end Descent.Text
