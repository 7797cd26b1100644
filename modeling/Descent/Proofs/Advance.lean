import Descent.Grammar
import Descent.Proofs.Locality

/-!
# Parsers advance

What a parser of this library has read lies right behind the cursor that it started from: after a
success the new cursor is the old one moved forward, at the depth that it had. The constructs hand
this on from their parts (`Advances`), also `nested`, which goes one level down and comes back up,
and so the grammar has it (`advances_expression`).
-/

namespace Descent

variable {α β γ : Type}

namespace Cursor

theorem forward_forward (c : Cursor) (m n : Nat) : (c.forward m).forward n = c.forward (m + n) := by
  simp only [forward, List.take_add, List.reverse_append, List.append_assoc, List.drop_drop]

/-- A budget that a word of the text ahead takes up to the byte is passed whole. -/
theorem advance_byteLength {c : Cursor} {word : List Char} (h : word <+: c.ahead) :
    c.advance (Text.byteLength word) = c.forward word.length := by
  obtain ⟨rest, hrest⟩ := h
  rw [advance, ← hrest, Text.charsWithin_byteLength]

/-- Going down a level, forward, and up again is going forward. -/
theorem ascend_forward_descend (c : Cursor) (n : Nat) :
    ({ c with depth := c.depth + 1 }.forward n).ascend = c.forward n := rfl

/-- Between `c` and `c'` stands `word`. -/
structure Between (c : Cursor) (word : List Char) (c' : Cursor) : Prop where
  ahead_eq : c.ahead = word ++ c'.ahead
  eq_forward : c' = c.forward word.length

theorem between_of_isPrefix {c : Cursor} {word : List Char} (h : word <+: c.ahead) :
    Between c word (c.forward word.length) := by
  obtain ⟨rest, hr⟩ := h
  exact ⟨by rw [ahead_forward, ← hr, List.drop_left], rfl⟩

theorem between_of_eq_append {c : Cursor} {word rest : List Char} (h : c.ahead = word ++ rest) :
    Between c word (c.forward word.length) :=
  between_of_isPrefix (h ▸ List.prefix_append word rest)

theorem Between.refl (c : Cursor) : Between c [] c := ⟨rfl, rfl⟩

theorem Between.trans {c d e : Cursor} {word more : List Char} (h : Between c word d)
    (h' : Between d more e) : Between c (word ++ more) e := by
  refine ⟨?_, ?_⟩
  · rw [h.ahead_eq, h'.ahead_eq, List.append_assoc]
  · rw [h'.eq_forward, h.eq_forward, forward_forward, List.length_append]

theorem Between.split {c d : Cursor} {word more : List Char} (h : Between c (word ++ more) d) :
    Between c word (c.forward word.length) ∧ Between (c.forward word.length) more d := by
  have ha : c.ahead = word ++ (more ++ d.ahead) := by rw [h.ahead_eq, List.append_assoc]
  refine ⟨between_of_eq_append ha, ?_, ?_⟩
  · rw [ahead_forward, ha, List.drop_left]
  · rw [forward_forward, h.eq_forward, List.length_append]

theorem Between.position_eq {c d : Cursor} {word : List Char} (h : Between c word d) :
    d.position = c.position + Text.byteLength word := by
  rw [h.eq_forward, position_forward, h.ahead_eq, List.take_left]

end Cursor

namespace Parser

/-- After a success the cursor is further on, and otherwise what it was. -/
def Advances (p : Parser α) : Prop :=
  ∀ c a c', (p c).result = .ok (a, c') → ∃ n, c' = c.forward n

theorem advances_literal (s : String) : Advances (literal s) := by
  intro c a c' h
  by_cases hs : s.toList <+: c.ahead
  · rw [literal_of_isPrefix hs] at h
    cases h
    exact ⟨_, rfl⟩
  · rw [literal_of_not_isPrefix hs] at h
    cases h

theorem advances_map {p : Parser α} (hp : Advances p) (g : α → β) : Advances (p.map g) := by
  intro c b c' h
  obtain ⟨a, ha, -⟩ := Run.map_ok.1 h
  exact hp c a c' ha

theorem advances_andThen {p : Parser α} {q : α → Parser β} (hp : Advances p)
    (hq : ∀ a, Advances (q a)) : Advances fun c => (p c).andThen q := by
  intro c b c' h
  obtain ⟨a, d, ha, hb⟩ := Run.andThen_ok.1 h
  obtain ⟨m, rfl⟩ := hp c a d ha
  obtain ⟨n, rfl⟩ := hq a _ b c' hb
  exact ⟨m + n, Cursor.forward_forward c m n⟩

theorem advances_mapFailure {p : Parser α} (hp : Advances p) (g : Failure → Failure) :
    Advances fun c => (p c).mapFailure g :=
  fun c a c' h => hp c a c' (Run.mapFailure_ok.1 h)

theorem advances_both {p : Parser α} {q : Parser β} (hp : Advances p) (hq : Advances q) :
    Advances (both p q) :=
  advances_andThen hp fun _ => advances_map hq _

theorem advances_followedBy {left : Parser α} {main : Parser β} (hl : Advances left)
    (hm : Advances main) : Advances (followedBy left main) :=
  advances_andThen hl fun _ => hm

theorem advances_bracket {opening : Parser α} {content : Parser β} {closing : Parser γ}
    (ho : Advances opening) (hc : Advances content) (hl : Advances closing) :
    Advances (bracket opening content closing) :=
  advances_mapFailure
    (advances_andThen ho fun _ => advances_andThen hc fun _ => advances_map hl _) _

theorem advances_nested {p : Parser α} (hp : Advances p) : Advances (nested p) := by
  intro c a c' h
  by_cases hd : c.depth < c.maxDepth
  · rw [nested_of_lt hd] at h
    obtain ⟨b, d, hb, hd⟩ := Run.andThen_ok.1 h
    obtain ⟨n, rfl⟩ := hp _ b d hb
    cases hd
    exact ⟨n, Cursor.ascend_forward_descend c n⟩
  · rw [nested, descend_of_le (Nat.not_lt.1 hd), Run.andThen_of_error rfl] at h
    cases h

theorem advances_choice {ps : List (Parser α)} (hps : ∀ p ∈ ps, Advances p) :
    Advances (choice ps) := by
  intro c a c' h
  obtain ⟨p, hp, hc⟩ := choice_ok h
  exact hps p hp c a c' hc

theorem Advances.rounds {p : Parser α} (hp : Advances p) {c c' : Cursor} {as : List α}
    (h : Rounds p c as c') : ∃ n, c' = c.forward n := by
  induction h with
  | nil c => exact ⟨0, rfl⟩
  | cons hr hrest ih =>
    obtain ⟨m, rfl⟩ := hp _ _ _ hr
    obtain ⟨n, rfl⟩ := ih
    exact ⟨m + n, Cursor.forward_forward _ m n⟩

/-- What advances leads onward. -/
theorem Advances.onward {p : Parser α} (hp : Advances p) : Onward p := by
  intro c a c' h
  obtain ⟨n, rfl⟩ := hp c a c' h
  rw [Cursor.position_forward]
  exact ⟨Cursor.text_forward c n, Nat.le_add_right _ _⟩

theorem onward_literal (s : String) : Onward (literal s) := (advances_literal s).onward

theorem advances_many {stalled : Nat → Trace} {p : Parser α} (hp : Advances p) :
    Advances (many stalled p) :=
  fun _ _ _ h => hp.rounds (rounds_of_many h)

theorem advances_repeated {p : Parser α} (hp : Advances p) : Advances (repeated p) := by
  rw [repeated_eq_many hp.onward]
  exact advances_many hp

theorem advances_separatedList {separator : Parser β} {p : Parser α} (hs : Advances separator)
    (hp : Advances p) : Advances (separatedList separator p) := by
  intro c as c' h
  rw [separatedList_eq hs.onward hp.onward] at h
  split at h
  · obtain ⟨-, -, rfl⟩ := endOfList_ok h
    exact ⟨0, rfl⟩
  · next a d hr =>
    obtain ⟨m, rfl⟩ := hp c a d hr
    split at h
    · obtain ⟨bs, hbs, -⟩ := Run.map_ok.1 h
      obtain ⟨n, rfl⟩ := advances_many (advances_followedBy hs hp) _ bs c' hbs
      exact ⟨m + n, Cursor.forward_forward c m n⟩
    · cases h
      exact ⟨m, rfl⟩

/-! ## Consuming -/

theorem Consumes.followedBy {left : Parser α} {main : Parser β} (hm : Consumes main)
    (hl : Shrinks left) : Consumes (followedBy left main) := by
  intro c b c' h
  obtain ⟨a, d, ha, hb⟩ := Run.andThen_ok.1 h
  have h1 := hl c a d ha
  have h2 := hm d b c' hb
  omega

end Parser

/-! ## The grammar -/

namespace Grammar

open Descent.Parser

theorem advances_identifier : Advances identifier := by
  intro c s c' h
  unfold identifier at h
  split at h
  · split at h
    · cases h
      exact ⟨_, rfl⟩
    · cases h
  · cases h

theorem advances_number : Advances number := by
  intro c v c' h
  unfold number at h
  split at h
  · cases h
  · dsimp only at h
    split at h
    · cases h
    · split at h
      · cases h
      · split at h
        · cases h
        · cases h
          exact ⟨_, rfl⟩

theorem advances_boolean : Advances boolean := by
  refine advances_map (advances_choice fun p hp => ?_) _
  simp only [List.mem_cons, List.not_mem_nil, or_false] at hp
  rcases hp with rfl | rfl
  · exact advances_literal _
  · exact advances_literal _

theorem advances_callOf {p : Parser Expression} (hp : Advances p) : Advances (callOf p) :=
  advances_both advances_identifier <| advances_nested <|
    advances_bracket (advances_literal _) (advances_separatedList (advances_literal _) hp)
      (advances_literal _)

theorem advances_expressionOf {p : Parser Expression} (hp : Advances p) :
    Advances (expressionOf p) := by
  refine advances_choice fun q hq => ?_
  simp only [List.mem_cons, List.not_mem_nil, or_false] at hq
  rcases hq with rfl | rfl | rfl
  · exact advances_map advances_boolean _
  · exact advances_map advances_number _
  · exact advances_map (advances_callOf hp) _

end Grammar

end Descent
