import Descent.Proofs.Walk

/-!
# Literals are matched to the byte

A literal is compared with the text ahead character by character, while a text as it is stored is a row
of bytes. The two come to the same. A literal stands next just if its UTF-8 form begins that of the
text ahead (`Text.isPrefix_iff_bytes`), and cutting a slice of its size off the text ahead and
comparing the two gives the same answer (`Cursor.matchLiteral_eq_slice`): no match is lost where no
such slice can be cut, and the place behind a match is reached without any rounding.

* `Text.front? t n` : the first `n` bytes of `t`, unless they end inside a character or `t` is shorter.
-/

namespace Descent

/-! ## Slices -/

namespace Text

variable {s t : String} {n : Nat}

/-- The first `n` bytes of `t`, if there are that many and no character is split behind them. -/
def front? (t : String) (n : Nat) : Option String :=
  (t.pos? ⟨n⟩).map fun p => (t.sliceTo p).copy

theorem pos?_eq_some_iff {p : t.Pos} : t.pos? ⟨n⟩ = some p ↔ p.offset = ⟨n⟩ := by
  unfold String.pos? String.Slice.pos?
  split
  · next h =>
    constructor
    · intro h'
      cases h'
      rfl
    · intro h'
      rw [Option.map_some, Option.some_inj, String.Pos.ext_iff, h']
      rfl
  · next h =>
    have hp : ¬ p.offset = ⟨n⟩ := by
      intro h'
      apply h
      rw [String.Pos.Raw.isValidForSlice_eq_true_iff, ← h']
      exact p.toSlice.isValidForSlice
    exact iff_of_false (fun h' => nomatch h') hp

theorem front?_eq_some_iff : front? t n = some s ↔ s.utf8ByteSize = n ∧ ∃ rest, t = s ++ rest := by
  constructor
  · intro h
    obtain ⟨p, hp, rfl⟩ := Option.map_eq_some_iff.1 h
    have hsplit := p.splits
    have hoffset := pos?_eq_some_iff.1 hp
    rw [hsplit.offset_eq_rawEndPos] at hoffset
    exact ⟨congrArg String.Pos.Raw.byteIdx hoffset, _, hsplit.eq_append⟩
  · rintro ⟨rfl, rest, rfl⟩
    have hvalid : String.Pos.Raw.IsValid (s ++ rest) ⟨s.utf8ByteSize⟩ :=
      String.Pos.Raw.isValid_iff_exists_append.2 ⟨s, rest, rfl, rfl⟩
    let p : (s ++ rest).Pos := (s ++ rest).pos _ hvalid
    have hp : (s ++ rest).pos? ⟨s.utf8ByteSize⟩ = some p := pos?_eq_some_iff.2 rfl
    have hsplit : p.Splits s rest := ⟨rfl, rfl⟩
    rw [front?, hp, Option.map_some, p.splits.eq_left hsplit]

/-- The bytes of a text begin with those of another one just if its characters do. -/
theorem isPrefix_iff_bytes : s.toList <+: t.toList ↔ ∃ rest, s.toUTF8 ++ rest = t.toUTF8 := by
  constructor
  · rintro ⟨rest, h⟩
    have ht : t = s ++ String.ofList rest := by
      rw [← String.toList_inj, String.toList_append, String.toList_ofList, h]
    rw [ht]
    exact ⟨(String.ofList rest).toUTF8, String.toByteArray_append.symm⟩
  · rintro ⟨rest, h⟩
    -- no character's bytes are the beginning of another one's
    apply List.isPrefix_of_utf8Encode_append_eq_utf8Encode rest
    simpa using h

theorem isPrefix_iff_front? : s.toList <+: t.toList ↔ front? t s.utf8ByteSize = some s := by
  rw [front?_eq_some_iff]
  constructor
  · rintro ⟨rest, h⟩
    refine ⟨rfl, String.ofList rest, ?_⟩
    rw [← String.toList_inj, String.toList_append, String.toList_ofList, h]
  · rintro ⟨-, rest, rfl⟩
    rw [String.toList_append]
    exact List.prefix_append _ _

theorem boundary_of_isPrefix (h : s.toList <+: t.toList) : Boundary t s.utf8ByteSize := by
  obtain ⟨-, rest, rfl⟩ := front?_eq_some_iff.1 (isPrefix_iff_front?.1 h)
  exact String.Pos.Raw.isValid_iff_exists_append.2 ⟨s, rest, rfl, rfl⟩

end Text

/-! ## Literals -/

namespace Cursor

variable {c : Cursor} {s : String}

/-- Matches a literal by cutting off as many bytes as it has and comparing. -/
def matchSlice (c : Cursor) (expected : String) : Except Failure (String × Cursor) :=
  match Text.front? c.remaining expected.utf8ByteSize with
  | some found =>
    if found = expected then .ok (found, c.advance expected.utf8ByteSize)
    else .error { expected, position := c.position }
  | none => .error { expected, position := c.position }

theorem isPrefix_ahead_iff : s.toList <+: c.ahead ↔ s.toList <+: c.remaining.toList := by
  rw [remaining, String.toList_ofList]

/-- A literal that stands next is passed to the byte: there is no end of the text and no start of a
character in between to stop at. -/
theorem advance_of_isPrefix (h : s.toList <+: c.ahead) :
    c.advance s.utf8ByteSize = c.forward s.toList.length := by
  rw [← Text.byteLength_toList, advance_byteLength h]

theorem position_advance_of_isPrefix (h : s.toList <+: c.ahead) :
    (c.advance s.utf8ByteSize).position = c.position + s.utf8ByteSize := by
  rw [advance_of_isPrefix h, (between_of_isPrefix h).position_eq, Text.byteLength_toList]

theorem matchLiteral_eq_slice (c : Cursor) (s : String) : c.matchLiteral s = c.matchSlice s := by
  by_cases h : s.toList <+: c.ahead
  · have hfront := Text.isPrefix_iff_front?.1 (isPrefix_ahead_iff.1 h)
    rw [matchLiteral_of_isPrefix h, matchSlice, hfront, advance_of_isPrefix h]
    simp only [if_true]
  · rw [matchLiteral_of_not_isPrefix h, matchSlice]
    split
    · next found hfound =>
      have hne : found ≠ s := by
        rintro rfl
        exact h (isPrefix_ahead_iff.2 (Text.isPrefix_iff_front?.2 hfound))
      rw [if_neg hne]
    · rfl

/-- **A literal matches just if its bytes are the next ones, and is then passed to the byte, with nothing
but the place changed. Otherwise it fails where it was tried, and so it does where its size would end
inside a character or behind the text.** -/
theorem matchLiteral_exact (c : Cursor) (s : String) :
    c.matchLiteral s = c.matchSlice s ∧
      ((∃ found d, c.matchLiteral s = .ok (found, d)) ↔
        ∃ rest, s.toUTF8 ++ rest = c.remaining.toUTF8) ∧
      (∀ found d, c.matchLiteral s = .ok (found, d) →
        found = s ∧ d.text = c.text ∧ d.depth = c.depth ∧ d.maxDepth = c.maxDepth ∧
          d.position = c.position + s.utf8ByteSize ∧ d = c.advance s.utf8ByteSize) ∧
      (∀ f, c.matchLiteral s = .error f →
        f = { expected := s, position := c.position, fatal := false }) ∧
      (¬ Text.Boundary c.remaining s.utf8ByteSize →
        c.matchLiteral s = .error { expected := s, position := c.position, fatal := false }) := by
  refine ⟨matchLiteral_eq_slice c s, ?_⟩
  rw [← Text.isPrefix_iff_bytes, ← isPrefix_ahead_iff]
  by_cases h : s.toList <+: c.ahead
  · rw [matchLiteral_of_isPrefix h, ← advance_of_isPrefix h]
    refine ⟨iff_of_true ⟨_, _, rfl⟩ h, ?_, fun f hf => (nomatch hf), fun hsplit => ?_⟩
    · intro found d hd
      cases hd
      have hmove : LeadsTo c (c.advance s.utf8ByteSize) := leadsTo_forward c _
      exact ⟨rfl, hmove.text_eq, hmove.depth_eq, hmove.maxDepth_eq, position_advance_of_isPrefix h, rfl⟩
    · exact absurd (Text.boundary_of_isPrefix (isPrefix_ahead_iff.1 h)) hsplit
  · rw [matchLiteral_of_not_isPrefix h]
    refine ⟨iff_of_false (fun ⟨_, _, hd⟩ => nomatch hd) h, fun found d hd => (nomatch hd), ?_,
      fun _ => rfl⟩
    intro f hf
    cases hf
    rfl

/-- One byte ends inside the accent, so nothing of that size stands there; two bytes are the accent. -/
theorem matchLiteral_exact_accent :
    let c := (atStart "aéb").forward 1
    (¬ Text.Boundary c.remaining "x".utf8ByteSize ∧
      c.matchLiteral "x" = .error { expected := "x", position := 1, fatal := false }) ∧
    c.matchLiteral "é" = .ok ("é", c.forward 1) ∧ (c.forward 1).position = 3 := by
  intro c
  have hsplit : ¬ Text.Boundary c.remaining "x".utf8ByteSize := by
    rw [Text.Boundary, ← String.Pos.Raw.isValid_eq_true_iff]
    decide
  have hmatch : c.matchLiteral "é" = .ok ("é", c.forward 1) := by rfl
  obtain ⟨-, -, -, -, hfails⟩ := matchLiteral_exact c "x"
  obtain ⟨-, -, hpasses, -⟩ := matchLiteral_exact c "é"
  obtain ⟨-, -, -, -, hposition, -⟩ := hpasses _ _ hmatch
  exact ⟨⟨hsplit, hfails hsplit⟩, hmatch, hposition⟩

end Cursor

end Descent
