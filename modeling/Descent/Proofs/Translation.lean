import Descent.Pattern
import Descent.Proofs.Portable
import Descent.Proofs.Tree

/-!
# Parsers see the text ahead only

Whatever is built from literals, patterns and the grammar's productions does the same behind other
text as at the start: the same value at the same depth, or the same failure, that much further on
(`parser_behind`). Offsets are compared all over the constructs, but only with offsets of the same
text, and no comparison changes when both sides are shifted.

* `Cursor.behind pre rest` : the cursor behind `pre` in the text `pre ++ rest`;
* `Elementary p` : `p` is a literal, a pattern or a production of the grammar;
* `portable_handedOn` : every construct hands `Portable` on.
-/

namespace Descent

/-! ## Behind a text -/

namespace Cursor

/-- Behind `pre` in the text `pre ++ rest`. -/
def behind (pre rest : String) (depth maxDepth : Nat) : Cursor :=
  { passed := pre.toList.reverse, ahead := rest.toList, depth, maxDepth }

theorem text_behind (pre rest : String) (d D : Nat) : (behind pre rest d D).text = pre ++ rest := by
  simp [text, behind]

theorem position_behind (pre rest : String) (d D : Nat) :
    (behind pre rest d D).position = pre.utf8ByteSize := by
  simp [position, behind, Text.byteLength_toList]

/-- A text and an offset in it leave no choice of a cursor, depths apart. -/
theorem eq_behind {c : Cursor} {pre rest : String} (ht : c.text = pre ++ rest)
    (hp : c.position = pre.utf8ByteSize) : c = behind pre rest c.depth c.maxDepth := by
  have hchars : c.passed.reverse ++ c.ahead = pre.toList ++ rest.toList := by
    have := congrArg String.toList ht
    rwa [text, String.toList_ofList, String.toList_append] at this
  have hbytes : Text.byteLength c.passed.reverse = Text.byteLength pre.toList := by
    rw [Text.byteLength_reverse, Text.byteLength_toList]
    exact hp
  -- as many bytes of one text are the same characters
  have hlen : c.passed.reverse.length = pre.toList.length := by
    rw [← Text.charsWithin_byteLength c.passed.reverse c.ahead, hbytes, hchars,
      Text.charsWithin_byteLength]
  obtain ⟨hpassed, hahead⟩ := List.append_inj hchars hlen
  rw [behind, ← hpassed, ← hahead, List.reverse_reverse]

theorem behind_eq_elsewhere (pre rest : String) (d D : Nat) :
    behind pre rest d D = (behind "" rest d D).elsewhere pre.toList.reverse 0 := by
  simp [behind, elsewhere]

end Cursor

/-! ## Elementary parsers -/

/-- What parsers of this library are built from. -/
inductive Elementary : {α : Type} → Parser α → Prop where
  | literal (s : String) : Elementary (Parser.literal s)
  | pattern (p : Pattern) : Elementary p.parser
  | boolean : Elementary Grammar.boolean
  | number : Elementary Grammar.number
  | identifier : Elementary Grammar.identifier
  | call : Elementary Grammar.call
  | expression : Elementary Grammar.expression

section
variable {pre : List Char} {extra : Nat}

theorem portable_pattern (p : Pattern) : Portable pre extra p.parser := by
  intro c
  right
  unfold Pattern.parser
  split
  · simp only [Cursor.matchPattern, Cursor.ahead_elsewhere]
    split
    · simp only [Cursor.forward_elsewhere]
      rfl
    · simp only [Cursor.position_elsewhere]
      rfl
  · simp only [Cursor.position_elsewhere]
    rfl

theorem advances_pattern (p : Pattern) : p.parser.Advances := by
  intro c a c' h
  unfold Pattern.parser at h
  split at h
  · simp only [Run.silent, Cursor.matchPattern] at h
    split at h
    · cases h
      exact ⟨_, rfl⟩
    · cases h
  · cases h

theorem portable_elementary {α : Type} {p : Parser α} (h : Elementary p) :
    Portable pre extra p := by
  cases h with
  | literal s => exact Parser.portable_literal s
  | pattern p => exact portable_pattern p
  | boolean => exact Grammar.portable_boolean
  | number => exact Grammar.portable_number
  | identifier => exact Grammar.portable_identifier
  | call => exact Grammar.portable_callOf Grammar.advances_expression Grammar.portable_expression
  | expression => exact Grammar.portable_expression

theorem advances_elementary {α : Type} {p : Parser α} (h : Elementary p) : p.Advances := by
  cases h with
  | literal s => exact Parser.advances_literal s
  | pattern p => exact advances_pattern p
  | boolean => exact Grammar.advances_boolean
  | number => exact Grammar.advances_number
  | identifier => exact Grammar.advances_identifier
  | call => exact Grammar.advances_callOf Grammar.advances_expression
  | expression => exact Grammar.advances_expression

/-- The lists hand on that a run is the same elsewhere since their parts advance. -/
theorem portable_handedOn : HandedOn fun p => p.Advances ∧ Portable pre extra p where
  choice hps :=
    ⟨Parser.advances_choice fun p hp => (hps p hp).1, Parser.portable_choice fun p hp => (hps p hp).2⟩
  repeated hp := ⟨Parser.advances_repeated hp.1, Parser.portable_repeated hp.1 hp.2⟩
  separatedList hs hp :=
    ⟨Parser.advances_separatedList hs.1 hp.1, Parser.portable_separatedList hs.1 hs.2 hp.1 hp.2⟩
  bracket ho hc hl :=
    ⟨Parser.advances_bracket ho.1 hc.1 hl.1, Parser.portable_bracket ho.2 hc.2 hl.2⟩
  discardLeft hl hm :=
    ⟨Parser.advances_mapFailure (Parser.advances_followedBy hl.1 hm.1) _,
      Parser.portable_inside (Parser.portable_followedBy hl.2 hm.2) _⟩
  both hp hq := ⟨Parser.advances_both hp.1 hq.1, Parser.portable_both hp.2 hq.2⟩
  map hp g := ⟨Parser.advances_map hp.1 g, Parser.portable_map hp.2 g⟩
  nested hp := ⟨Parser.advances_nested hp.1, Parser.portable_nested hp.2⟩

end

/-! ## The same run elsewhere -/

/-- With the same limit nothing cuts a run short. -/
theorem not_cut {α : Type} (o : Outcome α) : ¬ Cut 0 o := fun h => h.1 rfl

/-- **Behind other text, a parser built from elementary ones does what it does at the start.** -/
theorem parser_behind {α : Type} (t : Tree α) (ht : t.Leaves Elementary) (pre rest : String)
    (d D : Nat) :
    (∃ a c c₀, (t.parser (.behind pre rest d D)).result = .ok (a, c) ∧
      (t.parser (.behind "" rest d D)).result = .ok (a, c₀) ∧ c.depth = c₀.depth ∧
      c.position = c₀.position + pre.utf8ByteSize) ∨
    (∃ f f₀, (t.parser (.behind pre rest d D)).result = .error f ∧
      (t.parser (.behind "" rest d D)).result = .error f₀ ∧ f.expected = f₀.expected ∧
      f.fatal = f₀.fatal ∧ f.position = f₀.position + pre.utf8ByteSize) := by
  have hportable : Portable pre.toList.reverse 0 t.parser :=
    (portable_handedOn.parser t (ht.imp fun h => ⟨advances_elementary h, portable_elementary h⟩)).2
  have hsize : Text.byteLength pre.toList.reverse = pre.utf8ByteSize := by
    rw [Text.byteLength_reverse, Text.byteLength_toList]
  have hrun := (hportable (.behind "" rest d D)).resolve_left (not_cut _)
  rw [← Cursor.behind_eq_elsewhere] at hrun
  rw [hrun]
  cases (t.parser (.behind "" rest d D)).result with
  | ok found =>
    obtain ⟨a, c⟩ := found
    refine .inl ⟨a, _, c, rfl, rfl, rfl, ?_⟩
    rw [Cursor.position_elsewhere, hsize]
  | error f =>
    refine .inr ⟨_, f, rfl, rfl, rfl, rfl, ?_⟩
    rw [← hsize]
    rfl

/-- A number that is refused inside brackets, behind one character of two bytes. -/
theorem parser_behind_brackets :
    let t : Tree Int := .bracket (.leaf (Parser.literal "[")) (.leaf Grammar.number)
      (.leaf (Parser.literal "]"))
    t.Leaves Elementary ∧
      (t.parser (.behind "" "[1.5]" 0 0)).result =
        .error { expected := "Bracket: integer without fractional part", position := 2 } ∧
      ∃ f, (t.parser (.behind "é" "[1.5]" 0 0)).result = .error f ∧
        f.expected = "Bracket: integer without fractional part" ∧ f.position = 4 := by
  intro t
  have ht : t.Leaves Elementary := ⟨.literal "[", .number, .literal "]"⟩
  have hstart : (t.parser (.behind "" "[1.5]" 0 0)).result =
      .error { expected := "Bracket: integer without fractional part", position := 2 } := rfl
  refine ⟨ht, hstart, ?_⟩
  rcases parser_behind t ht "é" "[1.5]" 0 0 with
    ⟨_, _, _, -, h₀, -⟩ | ⟨f, f₀, hf, h₀, hexpected, -, hposition⟩
  · rw [hstart] at h₀
    cases h₀
  · rw [hstart] at h₀
    cases h₀
    exact ⟨f, hf, hexpected, hposition⟩

end Descent
