import Descent.Proofs.Ways
import Descent.Proofs.WellBehaved

/-!
# Walks of a cursor

A walk is any number of operations on cursors, one after the other and in any order; one that fails
leaves the cursor where it was. Wherever a walk from the start of a text comes to, the cursor is in
that text and within the depth limit, stands between two characters and was never moved back
(`walk_invariant`). What a step keeps (`follows_step`) the whole walk keeps (`follows_walk`), and the
rest holds of every cursor.

Offsets count bytes, so what stands between two of them is said in bytes as well: `Between.bytes_eq`
for the text that a match has passed, `bytes_remaining` for the text ahead.
-/

namespace Descent

/-- The bytes of a part of a text are found where the part stands. -/
theorem Text.bytes_middle (front word back : String) :
    (front ++ (word ++ back)).toUTF8.extract front.utf8ByteSize
      (front.utf8ByteSize + word.utf8ByteSize) = word.toUTF8 := by
  simp only [String.toUTF8_eq_toByteArray, String.toByteArray_append]
  have hskip : (front.toByteArray ++ (word.toByteArray ++ back.toByteArray)).extract
      (front.toByteArray.size + 0) (front.toByteArray.size + word.toByteArray.size) =
        (word.toByteArray ++ back.toByteArray).extract 0 word.toByteArray.size :=
    ByteArray.extract_append_size_add
  exact hskip.trans (ByteArray.extract_append_eq_left rfl)

/-! ## Matches of regular expressions -/

namespace Regex

/-- A match at the start of a text is its front part. -/
theorem isPrefix_of_find {r : Regex} {cs text : List Char}
    (h : r.find cs = some { start := 0, text }) : text <+: cs := by
  obtain ⟨q, -, hq⟩ := matchAt_eq_some_iff.1 (find_at_start_iff.1 h)
  exact ⟨q.ahead, hq.symm⟩

end Regex

namespace Cursor

/-! ## Operations -/

/-- What can be done with a cursor. -/
inductive Operation where
  | advance (bytes : Nat)
  | literal (s : String)
  | pattern (r : Regex) (label : String)
  | descend
  | ascend

/-- The cursor that an operation comes to, and what it has matched if it is a match. -/
def Operation.apply : Operation → Cursor → Except Failure (Option String × Cursor)
  | .advance bytes, c => .ok (none, c.advance bytes)
  | .literal s, c => (c.matchLiteral s).map fun (s, c) => (some s, c)
  | .pattern r label, c => (c.matchPattern r label).map fun (s, c) => (some s, c)
  | .descend, c => c.descend.map fun c => (none, c)
  | .ascend, c => .ok (none, c.ascend)

/-- Does the operation, or stays if it fails. -/
def step (c : Cursor) (op : Operation) : Cursor :=
  match op.apply c with
  | .ok (_, c') => c'
  | .error _ => c

/-- Does the operations one after the other. -/
def walk (c : Cursor) (ops : List Operation) : Cursor := ops.foldl step c

variable {c c' d : Cursor} {s label : String} {r : Regex}

/-! ## Text between two places -/

theorem text_eq_append (c : Cursor) : c.text = String.ofList c.passed.reverse ++ c.remaining := by
  rw [remaining, ← String.ofList_append]
  rfl

theorem utf8ByteSize_passed (c : Cursor) :
    (String.ofList c.passed.reverse).utf8ByteSize = c.position := by
  rw [Text.utf8ByteSize_ofList, Text.byteLength_reverse]
  rfl

/-- The bytes between two places are the word that stands there. -/
theorem Between.bytes_eq {c c' : Cursor} {word : List Char} (h : Between c word c') :
    c.text.toUTF8.extract c.position c'.position = (String.ofList word).toUTF8 := by
  have htext : c.text =
      String.ofList c.passed.reverse ++ (String.ofList word ++ String.ofList c'.ahead) := by
    rw [text_eq_append, remaining, h.ahead_eq, String.ofList_append]
  rw [htext, h.position_eq, ← utf8ByteSize_passed, ← Text.utf8ByteSize_ofList word]
  exact Text.bytes_middle _ _ _

theorem size_text (c : Cursor) : c.text.utf8ByteSize = c.position + Text.byteLength c.ahead := by
  rw [text_eq_append, String.utf8ByteSize_append, utf8ByteSize_passed, remaining,
    Text.utf8ByteSize_ofList]

/-- The bytes from a place on are the text ahead of it. -/
theorem bytes_remaining (c : Cursor) :
    c.text.toUTF8.extract c.position c.text.utf8ByteSize = c.remaining.toUTF8 := by
  have hall : Between c c.ahead (c.forward c.ahead.length) :=
    between_of_isPrefix (List.prefix_refl c.ahead)
  rw [size_text, ← hall.position_eq]
  exact hall.bytes_eq

theorem atEnd_iff (c : Cursor) : c.atEnd = true ↔ c.position = c.text.utf8ByteSize := by
  have hsize := size_text c
  constructor
  · intro h
    rw [hsize, List.isEmpty_iff.1 h]
    rfl
  · intro h
    have hlen := Text.length_le_byteLength c.ahead
    have hnil : c.ahead.length = 0 := by omega
    exact List.isEmpty_iff.2 (List.length_eq_zero_iff.1 hnil)

/-! ## Matches -/

theorem between_of_matchLiteral {expected : String} (h : c.matchLiteral expected = .ok (s, c')) :
    Between c s.toList c' := by
  unfold matchLiteral at h
  split at h
  · next hs =>
    cases h
    exact between_of_isPrefix (List.isPrefixOf_iff_prefix.1 hs)
  · cases h

theorem between_of_matchPattern (h : c.matchPattern r label = .ok (s, c')) : Between c s.toList c' := by
  unfold matchPattern at h
  split at h
  · next text hfound =>
    cases h
    rw [String.toList_ofList]
    exact between_of_isPrefix (Regex.isPrefix_of_find hfound)
  · cases h

theorem exists_of_map_ok {ε α β : Type} {x : Except ε α} {f : α → β} {b : β} (h : x.map f = .ok b) :
    ∃ a, x = .ok a ∧ f a = b := by
  cases x with
  | error e => cases h
  | ok a =>
    cases h
    exact ⟨a, rfl, rfl⟩

/-- What an operation has matched stands between the old place and the new one. -/
theorem Operation.between_of_apply {op : Operation} (h : op.apply c = .ok (some s, c')) :
    Between c s.toList c' := by
  cases op with
  | advance | ascend => cases h
  | literal expected =>
    obtain ⟨⟨t, d⟩, hm, heq⟩ := exists_of_map_ok h
    cases heq
    exact between_of_matchLiteral hm
  | pattern r label =>
    obtain ⟨⟨t, d⟩, hm, heq⟩ := exists_of_map_ok h
    cases heq
    exact between_of_matchPattern hm
  | descend =>
    obtain ⟨d, -, heq⟩ := exists_of_map_ok h
    cases heq

/-! ## Steps and walks -/

/-- `d` is a place in the same text as `c` under the same limit, not before `c`, and no operation has
broken the limit in between. -/
structure Follows (c d : Cursor) : Prop where
  text_eq : d.text = c.text
  maxDepth_eq : d.maxDepth = c.maxDepth
  position_le : c.position ≤ d.position
  depth_le : c.depth ≤ c.maxDepth → d.depth ≤ d.maxDepth

theorem Follows.refl (c : Cursor) : Follows c c := ⟨rfl, rfl, Nat.le_refl _, id⟩

theorem Follows.trans {e : Cursor} (h : Follows c d) (h' : Follows d e) : Follows c e where
  text_eq := h'.text_eq.trans h.text_eq
  maxDepth_eq := h'.maxDepth_eq.trans h.maxDepth_eq
  position_le := Nat.le_trans h.position_le h'.position_le
  depth_le hc := h'.depth_le (h.depth_le hc)

theorem LeadsTo.follows (h : LeadsTo c d) : Follows c d :=
  ⟨h.text_eq, h.maxDepth_eq, h.sees.position_le, h.depth_le⟩

theorem Between.follows {word : List Char} (h : Between c word d) : Follows c d := by
  rw [h.eq_forward]
  exact (leadsTo_forward c _).follows

theorem follows_of_descend (h : c.descend = .ok d) : Follows c d := by
  obtain ⟨hlimit, rfl⟩ := descend_eq_ok h
  exact ⟨rfl, rfl, Nat.le_refl _, fun _ => hlimit⟩

theorem follows_ascend (c : Cursor) : Follows c c.ascend :=
  ⟨rfl, rfl, Nat.le_refl _, fun h => Nat.le_trans (Nat.sub_le _ _) h⟩

theorem Operation.follows_of_apply {op : Operation} {found : Option String}
    (h : op.apply c = .ok (found, d)) : Follows c d := by
  cases op with
  | advance bytes =>
    cases h
    exact (leadsTo_forward c _).follows
  | ascend =>
    cases h
    exact follows_ascend c
  | literal expected =>
    obtain ⟨⟨t, e⟩, hm, heq⟩ := exists_of_map_ok h
    cases heq
    exact (between_of_matchLiteral hm).follows
  | pattern r label =>
    obtain ⟨⟨t, e⟩, hm, heq⟩ := exists_of_map_ok h
    cases heq
    exact (between_of_matchPattern hm).follows
  | descend =>
    obtain ⟨e, hm, heq⟩ := exists_of_map_ok h
    cases heq
    exact follows_of_descend hm

theorem follows_step (c : Cursor) (op : Operation) : Follows c (c.step op) := by
  unfold step
  split
  · next found d h => exact op.follows_of_apply h
  · exact .refl c

theorem follows_walk (c : Cursor) (ops : List Operation) : Follows c (c.walk ops) := by
  induction ops generalizing c with
  | nil => exact .refl c
  | cons op ops ih => exact (follows_step c op).trans (ih (c.step op))

/-- **Wherever a walk from the start of a text comes to, the cursor is in the text and within the limit,
between two characters, and never before a place where it was; and a match passes what it gives.** -/
theorem walk_invariant (text : String) (D : Nat) (ops : List Operation) :
    let c := (atStart text D).walk ops
    c.text = text ∧ c.maxDepth = D ∧ c.depth ≤ D ∧
      c.position ≤ text.utf8ByteSize ∧ Text.Boundary text c.position ∧
      text.toUTF8.extract c.position text.utf8ByteSize = c.remaining.toUTF8 ∧
      (c.atEnd = true ↔ c.position = text.utf8ByteSize) ∧ (c.atEnd = true ↔ c.remaining = "") ∧
      (∀ more, c.position ≤ (c.walk more).position) ∧
      ∀ (op : Operation) (s : String) (c' : Cursor), op.apply c = .ok (some s, c') →
        text.toUTF8.extract c.position c'.position = s.toUTF8 := by
  intro c
  have hwalk : Follows (atStart text D) c := follows_walk _ ops
  have htext : c.text = text := by rw [hwalk.text_eq, text_atStart]
  have hlimit : c.maxDepth = D := hwalk.maxDepth_eq
  have hdepth : c.depth ≤ D := hlimit ▸ hwalk.depth_le (Nat.zero_le _)
  have hboundary : Text.Boundary text c.position := htext ▸ boundary_position c
  refine ⟨htext, hlimit, hdepth, hboundary.le_size, hboundary, ?_, ?_, ?_, ?_, ?_⟩
  · rw [← htext]
    exact bytes_remaining c
  · rw [atEnd_iff, htext]
  · rw [atEnd, remaining, List.isEmpty_iff, ← String.toList_eq_nil_iff, String.toList_ofList]
  · exact fun more => (follows_walk c more).position_le
  · intro op s c' h
    have hbytes := (op.between_of_apply h).bytes_eq
    rwa [htext, String.ofList_toList] at hbytes

/-- An advance that ends inside a character, steps that fail, and then a match of that character. -/
theorem walk_invariant_rounded :
    let c := (atStart "aéb" 1).walk [.advance 2, .ascend, .descend, .descend, .literal "x"]
    c.position = 1 ∧ c.depth = 1 ∧ (c.walk [.literal "é"]).position = 3 ∧
      Operation.apply (.literal "é") c = .ok (some "é", c.forward 1) ∧
      "aéb".toUTF8.extract 1 3 = "é".toUTF8 := by
  intro c
  have hstart : c.position = 1 := by rfl
  have hend : (c.forward 1).position = 3 := by rfl
  have hmatch : Operation.apply (.literal "é") c = .ok (some "é", c.forward 1) := by rfl
  obtain ⟨-, -, -, -, -, -, -, -, -, hbytes⟩ :=
    walk_invariant "aéb" 1 [.advance 2, .ascend, .descend, .descend, .literal "x"]
  have hfound : "aéb".toUTF8.extract c.position (c.forward 1).position = "é".toUTF8 :=
    hbytes _ _ _ hmatch
  rw [hstart, hend] at hfound
  exact ⟨hstart, by rfl, by rfl, hmatch, hfound⟩

end Cursor

end Descent
