import Mathlib.Data.Nat.Find
import Mathlib.Order.Bounds.Basic
import Descent.Proofs.LineAndColumn
import Descent.Proofs.Walk

/-!
# Advancing rounds down

To advance is to add to the position and to round the sum down to the last place between two characters
of the text (`Cursor.isGreatest_advance`). Locations are found in the same way, so `Cursor.advance` and
`Location.ofOffset` agree (`Cursor.position_advance`). A search from the offset downwards finds them too
(`Location.position_ofOffset_eq_backToBoundary`).

Rounding loses bytes where an advance ends inside a character, and the next advance does not make up for
them. Two advances in turn get no further than one by the sum of their bytes, and just as far if the
first has lost nothing (`Cursor.advance_composes`).

A position may also be kept as a number of 64 bits, with a sum that stops at the largest such number, and
be rounded by looking at one byte after the other. In every text whose size fits into 64 bits this finds
the same place (`Cursor.position_advance_eq_findBack`).

* `saturatingAdd` : the sum that stops at the largest number;
* `Text.backToBoundary` : the search from an offset downwards, byte by byte;
* `Cursor.findBack` : where an advance leads to by that sum and that search.
-/

namespace Descent

/-! ## Sums of 64 bits -/

/-- The sum, or the largest number if the sum wraps around. -/
def saturatingAdd (m n : UInt64) : UInt64 := if m + n < m then 0xFFFFFFFFFFFFFFFF else m + n

theorem toNat_saturatingAdd (m n : UInt64) :
    (saturatingAdd m n).toNat = min (m.toNat + n.toNat) (2 ^ 64 - 1) := by
  have hm := m.toNat_lt
  have hn := n.toNat_lt
  have hsum : (m + n).toNat = (m.toNat + n.toNat) % 2 ^ 64 := UInt64.toNat_add m n
  unfold saturatingAdd
  split
  · next hwrap =>
    have hlt := UInt64.lt_iff_toNat_lt.1 hwrap
    have hmax : (0xFFFFFFFFFFFFFFFF : UInt64).toNat = 2 ^ 64 - 1 := rfl
    omega
  · -- a sum that wraps around is below both of its terms, so this one does not
    next hwrap =>
    have hle : ¬ (m + n).toNat < m.toNat := fun h => hwrap (UInt64.lt_iff_toNat_lt.2 h)
    omega

/-- Below a bound of 64 bits it makes no difference where the sum stops. -/
theorem min_saturatingAdd {m size : Nat} (n : UInt64) (hm : m ≤ size) (hsize : size < 2 ^ 64) :
    min (saturatingAdd (.ofNat m) n).toNat size = min (m + n.toNat) size := by
  have hm' : (UInt64.ofNat m).toNat = m := UInt64.toNat_ofNat_of_lt' (Nat.lt_of_le_of_lt hm hsize)
  rw [toNat_saturatingAdd, hm']
  omega

/-! ## Rounding an offset -/

namespace Text

variable {n : Nat}

/-- The offset, moved back byte by byte as long as it is inside a character. -/
def backToBoundary (t : String) (n : Nat) : Nat :=
  Nat.findGreatest (fun p => String.Pos.Raw.isValid t ⟨p⟩ = true) n

theorem boundary_zero (t : String) : Boundary t 0 := String.Pos.Raw.isValid_zero

theorem isGreatest_backToBoundary (t : String) (n : Nat) :
    IsGreatest {p | Boundary t p ∧ p ≤ n} (backToBoundary t n) := by
  refine ⟨⟨?_, Nat.findGreatest_le n⟩, fun p hp => ?_⟩
  · have hzero := String.Pos.Raw.isValid_eq_true_iff.2 (boundary_zero t)
    have hfound : String.Pos.Raw.isValid t ⟨backToBoundary t n⟩ = true :=
      Nat.findGreatest_spec (P := fun p => String.Pos.Raw.isValid t ⟨p⟩ = true) (Nat.zero_le n) hzero
    exact String.Pos.Raw.isValid_eq_true_iff.1 hfound
  · exact Nat.le_findGreatest hp.2 (String.Pos.Raw.isValid_eq_true_iff.2 hp.1)

theorem charsWithin_of_byteLength_le {cs : List Char} (h : byteLength cs ≤ n) :
    charsWithin n cs = cs.length := by
  have hall := charsWithin_byteLength_add cs [] (n - byteLength cs)
  rwa [Nat.add_sub_cancel' h, List.append_nil] at hall

end Text

/-- A location is found by the search downwards, from the offset or from the end of the text. -/
theorem Location.position_ofOffset_eq_backToBoundary (text : String) (offset : Nat) :
    (ofOffset text offset).position = Text.backToBoundary text (min offset text.utf8ByteSize) :=
  (isGreatest_position text offset).unique (Text.isGreatest_backToBoundary text _)

/-! ## Advancing -/

namespace Cursor

variable {c : Cursor} {m n : Nat}

/-- Advancing looks for its place as a location does. -/
theorem position_advance (c : Cursor) (n : Nat) :
    (c.advance n).position = (Location.ofOffset c.text (c.position + n)).position := by
  have htext : c.text.toList = c.passed.reverse ++ c.ahead := by rw [text, String.toList_ofList]
  have hchars : Text.charsWithin (c.position + n) c.text.toList =
      c.passed.reverse.length + Text.charsWithin n c.ahead := by
    rw [htext, position, ← Text.byteLength_reverse, Text.charsWithin_byteLength_add]
  rw [advance, position_forward, Location.position, Location.ofOffset, hchars, htext,
    List.take_length_add_append, Text.byteLength_append, Text.byteLength_reverse]
  rfl

/-- An advance ends at the last place between two characters that is not beyond the sum. -/
theorem isGreatest_advance (c : Cursor) (n : Nat) :
    IsGreatest {p | Text.Boundary c.text p ∧ p ≤ min (c.position + n) c.text.utf8ByteSize}
      (c.advance n).position := by
  rw [position_advance]
  exact Location.isGreatest_position c.text (c.position + n)

theorem position_le_advance (c : Cursor) (n : Nat) : c.position ≤ (c.advance n).position :=
  (leadsTo_forward c _).sees.position_le

theorem position_advance_mono (c : Cursor) (h : m ≤ n) :
    (c.advance m).position ≤ (c.advance n).position := by
  refine (isGreatest_advance c m).mono (isGreatest_advance c n) ?_
  rintro p ⟨hboundary, hle⟩
  exact ⟨hboundary, by omega⟩

/-! ## Advancing twice -/

theorem position_advance_advance_le (c : Cursor) (m n : Nat) :
    ((c.advance m).advance n).position ≤ (c.advance (m + n)).position := by
  have htext : (c.advance m).text = c.text := text_forward c _
  obtain ⟨⟨-, hfirst⟩, -⟩ := isGreatest_advance c m
  obtain ⟨⟨hboundary, hsecond⟩, -⟩ := isGreatest_advance (c.advance m) n
  rw [htext] at hboundary hsecond
  exact (isGreatest_advance c (m + n)).2 ⟨hboundary, by omega⟩

/-- What lies between a place and a boundary behind it are whole characters. -/
theorem exists_word_of_boundary (hb : Text.Boundary c.text (c.position + n)) :
    ∃ word, word <+: c.ahead ∧ Text.byteLength word = n := by
  have hadvance : (c.advance n).position = c.position + n := by
    obtain ⟨⟨-, hle⟩, hgreatest⟩ := isGreatest_advance c n
    have := hgreatest ⟨hb, Nat.le_min.2 ⟨Nat.le_refl _, hb.le_size⟩⟩
    omega
  rw [advance, position_forward] at hadvance
  exact ⟨_, List.take_prefix _ _, Nat.add_left_cancel hadvance⟩

theorem advance_advance_of_boundary (hb : Text.Boundary c.text (c.position + m)) (n : Nat) :
    (c.advance m).advance n = c.advance (m + n) := by
  obtain ⟨word, hword, rfl⟩ := exists_word_of_boundary hb
  obtain ⟨rest, hrest⟩ := hword
  have hchars : Text.charsWithin (Text.byteLength word + n) c.ahead =
      word.length + Text.charsWithin n rest := by
    rw [← hrest, Text.charsWithin_byteLength_add]
  have hahead : (c.forward word.length).ahead = rest := by
    rw [ahead_forward, ← hrest, List.drop_left]
  rw [advance_byteLength ⟨rest, hrest⟩, advance, hahead, forward_forward, advance, hchars]

theorem advance_of_size_le (h : c.text.utf8ByteSize ≤ c.position + n) :
    c.advance n = c.forward c.ahead.length := by
  rw [size_text] at h
  rw [advance, Text.charsWithin_of_byteLength_le (Nat.le_of_add_le_add_left h)]

theorem advance_advance_of_size_le (h : c.text.utf8ByteSize ≤ c.position + m) (n : Nat) :
    (c.advance m).advance n = c.advance (m + n) := by
  have hnothing : (c.forward c.ahead.length).advance n = c.forward c.ahead.length := by
    rw [advance, ahead_forward, List.drop_length]
    rfl
  rw [advance_of_size_le h, hnothing, advance_of_size_le (by omega)]

/-! ## Positions of 64 bits -/

/-- Where an advance leads to: the sum, or the end of the text, or the start of the character there. -/
def findBack (c : Cursor) (n : UInt64) : Nat :=
  Text.backToBoundary c.text (min (saturatingAdd (.ofNat c.position) n).toNat c.text.utf8ByteSize)

theorem position_advance_eq_findBack (c : Cursor) (hsize : c.text.utf8ByteSize < 2 ^ 64) (n : UInt64) :
    (c.advance n.toNat).position = c.findBack n := by
  rw [findBack, min_saturatingAdd n (boundary_position c).le_size hsize]
  exact (isGreatest_advance c n.toNat).unique (Text.isGreatest_backToBoundary _ _)

/-- **To advance is to round down to the last place between two characters, and 64 bits are enough to
find it, with a search that never comes back in front of the cursor. Two advances in turn get no further
than one by their sum, and to the same place if the first ends where its bytes do or at the end of the
text; and more bytes never lead to an earlier place.** -/
theorem advance_composes (c : Cursor) :
    (∀ n,
      IsGreatest {p | Text.Boundary c.text p ∧ p ≤ min (c.position + n) c.text.utf8ByteSize}
          (c.advance n).position ∧
        (c.advance n).text = c.text ∧ (c.advance n).depth = c.depth ∧
        (c.advance n).maxDepth = c.maxDepth) ∧
      (c.text.utf8ByteSize < 2 ^ 64 → ∀ n : UInt64,
        min (saturatingAdd (.ofNat c.position) n).toNat c.text.utf8ByteSize =
            min (c.position + n.toNat) c.text.utf8ByteSize ∧
          (c.advance n.toNat).position = c.findBack n ∧ c.position ≤ c.findBack n) ∧
      (∀ m n, ((c.advance m).advance n).position ≤ (c.advance (m + n)).position) ∧
      (∀ m n, Text.Boundary c.text (c.position + m) ∨ c.text.utf8ByteSize ≤ c.position + m →
        (c.advance m).advance n = c.advance (m + n)) ∧
      ∀ m n, m ≤ n → (c.advance m).position ≤ (c.advance n).position := by
  refine ⟨fun n => ⟨isGreatest_advance c n, text_forward c _, rfl, rfl⟩, fun hsize n => ?_,
    position_advance_advance_le c, fun m n hm => ?_, fun m n => position_advance_mono c⟩
  · have hfind := position_advance_eq_findBack c hsize n
    exact ⟨min_saturatingAdd n (boundary_position c).le_size hsize, hfind,
      hfind ▸ position_le_advance c n.toNat⟩
  · rcases hm with hboundary | hend
    · exact advance_advance_of_boundary hboundary n
    · exact advance_advance_of_size_le hend n

/-- The accent takes up the bytes 1 and 2. An advance by two ends in front of it, and one byte is lost. -/
theorem advance_composes_accent :
    let c := atStart "aéb"
    ((c.advance 2).advance 2).position = 3 ∧ (c.advance (2 + 2)).position = 4 ∧
      Text.Boundary c.text (c.position + 1) ∧ (c.advance 1).advance 3 = c.advance (1 + 3) ∧
      c.text.utf8ByteSize ≤ c.position + 9 ∧ (c.advance 9).advance 3 = c.advance (9 + 3) ∧
      c.text.utf8ByteSize < 2 ^ 64 ∧ c.findBack 2 = 1 ∧ c.findBack 0xFFFFFFFFFFFFFFFF = 4 := by
  intro c
  have hboundary : Text.Boundary c.text (c.position + 1) :=
    String.Pos.Raw.isValid_eq_true_iff.1 (by decide)
  have hend : c.text.utf8ByteSize ≤ c.position + 9 := by decide
  have hsize : c.text.utf8ByteSize < 2 ^ 64 := by decide
  obtain ⟨-, hfind, -, hcompose, -⟩ := advance_composes c
  have htwo : c.findBack 2 = 1 := (hfind hsize 2).2.1.symm
  have hmost : c.findBack 0xFFFFFFFFFFFFFFFF = 4 := (hfind hsize 0xFFFFFFFFFFFFFFFF).2.1.symm
  exact ⟨by decide, by decide, hboundary, hcompose 1 3 (.inl hboundary), hend,
    hcompose 9 3 (.inr hend), hsize, htwo, hmost⟩

end Cursor

end Descent
