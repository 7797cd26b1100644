import Descent.Pattern
import Descent.Proofs.Unfolding
import Descent.Proofs.Tree

/-!
# Parsers stay within the text

A cursor stands between two characters of its text, and whatever a parser comes to is a place like
that: after a success a cursor in the same text and at the same depth, no nearer to the start, and
after a failure an offset of the text that is not before the cursor. A parser of which this holds is
well-behaved. The constructs hand it on, also those that change the depth on the way or report an
offset that they have worked out, and the grammar has it (`wellBehaved_throughout`).

* `Text.Boundary s n` : no character of `s` is split at the offset `n`;
* `Cursor.Sees`, `Cursor.LeadsTo` : the offsets and the cursors that may be reached from a cursor;
* `Run.Stays` : what one run comes to is reached from the cursor that it started from.
-/

namespace Descent

variable {α β γ : Type}

/-- The offset `n` lies between two characters of `s` or at one of its ends. -/
def Text.Boundary (s : String) (n : Nat) : Prop := String.Pos.Raw.IsValid s ⟨n⟩

theorem Text.Boundary.le_size {s : String} {n : Nat} (h : Boundary s n) : n ≤ s.utf8ByteSize :=
  h.le_rawEndPos

namespace Cursor

theorem boundary_position (c : Cursor) : Text.Boundary c.text c.position := by
  refine String.Pos.Raw.isValid_iff_exists_append.2
    ⟨String.ofList c.passed.reverse, String.ofList c.ahead, String.ofList_append, ?_⟩
  rw [String.rawEndPos, Text.utf8ByteSize_ofList, Text.byteLength_reverse]
  rfl

/-! ## Reaching a place -/

/-- `n` is an offset of the text, not before the cursor. -/
structure Sees (c : Cursor) (n : Nat) : Prop where
  position_le : c.position ≤ n
  le_size : n ≤ c.text.utf8ByteSize
  boundary : Text.Boundary c.text n

/-- `c'` is in the same text and at the same depth, not before `c`. -/
structure LeadsTo (c c' : Cursor) : Prop where
  text_eq : c'.text = c.text
  maxDepth_eq : c'.maxDepth = c.maxDepth
  depth_eq : c'.depth = c.depth
  sees : c.Sees c'.position

theorem sees_of_text_eq {c c' : Cursor} (ht : c'.text = c.text) (hp : c.position ≤ c'.position) :
    c.Sees c'.position := by
  have hb := boundary_position c'
  rw [ht] at hb
  exact ⟨hp, hb.le_size, hb⟩

theorem sees_position (c : Cursor) : c.Sees c.position := sees_of_text_eq rfl (Nat.le_refl _)

theorem leadsTo_forward (c : Cursor) (n : Nat) : c.LeadsTo (c.forward n) := by
  have ht := text_forward c n
  have hp : c.position ≤ (c.forward n).position := by
    rw [position_forward]
    exact Nat.le_add_right _ _
  exact ⟨ht, rfl, rfl, sees_of_text_eq ht hp⟩

theorem LeadsTo.refl (c : Cursor) : c.LeadsTo c := ⟨rfl, rfl, rfl, sees_position c⟩

variable {c d e : Cursor} {n : Nat}

theorem LeadsTo.trans_sees (h : c.LeadsTo d) (hn : d.Sees n) : c.Sees n := by
  have hb := hn.boundary
  rw [h.text_eq] at hb
  exact ⟨Nat.le_trans h.sees.position_le hn.position_le, hb.le_size, hb⟩

theorem LeadsTo.trans (h : c.LeadsTo d) (h' : d.LeadsTo e) : c.LeadsTo e :=
  ⟨h'.text_eq.trans h.text_eq, h'.maxDepth_eq.trans h.maxDepth_eq, h'.depth_eq.trans h.depth_eq,
    h.trans_sees h'.sees⟩

theorem LeadsTo.depth_le (h : c.LeadsTo d) (hc : c.depth ≤ c.maxDepth) : d.depth ≤ d.maxDepth := by
  rw [h.depth_eq, h.maxDepth_eq]
  exact hc

/-- Coming up a level undoes going down one, whatever lies between. -/
theorem leadsTo_ascend (h : LeadsTo { c with depth := c.depth + 1 } d) : c.LeadsTo d.ascend where
  text_eq := h.text_eq
  maxDepth_eq := h.maxDepth_eq
  depth_eq := by
    show d.depth - 1 = c.depth
    rw [h.depth_eq]
    rfl
  sees := ⟨h.sees.position_le, h.sees.le_size, h.sees.boundary⟩

end Cursor

open Descent.Cursor

/-! ## Runs -/

/-- The run comes to a place that is reached from `c`. -/
structure Run.Stays (c : Cursor) (r : Run α) : Prop where
  ok : ∀ a c', r.result = .ok (a, c') → c.LeadsTo c'
  error : ∀ f, r.result = .error f → c.Sees f.position

/-- At a depth within the limit, whatever `p` comes to is reached from where it started. -/
def WellBehaved (p : Parser α) : Prop := ∀ c, c.depth ≤ c.maxDepth → (p c).Stays c

namespace Run

variable {c d : Cursor} {r : Run α}

theorem stays_of_ok {a : α} (h : r.result = .ok (a, d)) (hd : c.LeadsTo d) : r.Stays c := by
  refine ⟨fun b c' h' => ?_, fun f h' => ?_⟩
  · rw [h] at h'
    cases h'
    exact hd
  · rw [h] at h'
    cases h'

theorem stays_of_error {f : Failure} (h : r.result = .error f) (hf : c.Sees f.position) :
    r.Stays c := by
  refine ⟨fun b c' h' => ?_, fun g h' => ?_⟩
  · rw [h] at h'
    cases h'
  · rw [h] at h'
    cases h'
    exact hf

theorem Stays.trans (hd : c.LeadsTo d) (hr : r.Stays d) : r.Stays c :=
  ⟨fun a c' h => hd.trans (hr.ok a c' h), fun f h => hd.trans_sees (hr.error f h)⟩

theorem Stays.map (hr : r.Stays c) (g : α → β) : (r.map g).Stays c := by
  refine ⟨fun b c' h => ?_, fun f h => hr.error f (map_error.1 h)⟩
  obtain ⟨a, ha, -⟩ := map_ok.1 h
  exact hr.ok a c' ha

/-- Naming the construct that a failure arose in does not move it. -/
theorem Stays.inside (hr : r.Stays c) (context : String) :
    (r.mapFailure (·.inside context)).Stays c := by
  refine ⟨fun a c' h => hr.ok a c' (mapFailure_ok.1 h), fun f h => ?_⟩
  obtain ⟨g, hg, rfl⟩ := mapFailure_error.1 h
  rw [Failure.position_inside]
  exact hr.error g hg

theorem Stays.andThen {next : α → Cursor → Run β} (hr : r.Stays c)
    (hnext : ∀ a d, c.LeadsTo d → (next a d).Stays d) : (r.andThen next).Stays c := by
  refine ⟨fun b c' h => ?_, fun f h => ?_⟩
  · obtain ⟨a, d, ha, hb⟩ := andThen_ok.1 h
    have hd := hr.ok a d ha
    exact hd.trans ((hnext a d hd).ok b c' hb)
  · rcases andThen_error.1 h with hf | ⟨a, d, ha, hf⟩
    · exact hr.error f hf
    · have hd := hr.ok a d ha
      exact hd.trans_sees ((hnext a d hd).error f hf)

end Run

open Descent.Run

/-! ## Constructs -/

namespace Parser

theorem wellBehaved_literal (s : String) : WellBehaved (literal s) := by
  intro c _
  by_cases hs : s.toList <+: c.ahead
  · rw [literal_of_isPrefix hs]
    exact stays_of_ok rfl (leadsTo_forward c _)
  · rw [literal_of_not_isPrefix hs]
    exact stays_of_error rfl (sees_position c)

theorem wellBehaved_map {p : Parser α} (hp : WellBehaved p) (g : α → β) : WellBehaved (p.map g) :=
  fun c hc => (hp c hc).map g

theorem wellBehaved_both {p : Parser α} {q : Parser β} (hp : WellBehaved p) (hq : WellBehaved q) :
    WellBehaved (both p q) :=
  fun c hc => (hp c hc).andThen fun _ d hd => (hq d (hd.depth_le hc)).map _

theorem wellBehaved_followedBy {left : Parser α} {main : Parser β} (hl : WellBehaved left)
    (hm : WellBehaved main) : WellBehaved (followedBy left main) :=
  fun c hc => (hl c hc).andThen fun _ d hd => hm d (hd.depth_le hc)

theorem wellBehaved_discardLeft {left : Parser α} {main : Parser β} (hl : WellBehaved left)
    (hm : WellBehaved main) : WellBehaved (discardLeft left main) :=
  fun c hc => (wellBehaved_followedBy hl hm c hc).inside _

theorem wellBehaved_bracket {opening : Parser α} {content : Parser β} {closing : Parser γ}
    (ho : WellBehaved opening) (hc : WellBehaved content) (hl : WellBehaved closing) :
    WellBehaved (bracket opening content closing) := by
  intro c h
  refine Stays.inside ((ho c h).andThen fun _ d hd => ?_) _
  have hdepth := hd.depth_le h
  exact (hc d hdepth).andThen fun _ e he => (hl e (he.depth_le hdepth)).map _

theorem wellBehaved_nested {p : Parser α} (hp : WellBehaved p) : WellBehaved (nested p) := by
  intro c _
  by_cases hd : c.depth < c.maxDepth
  · rw [nested_of_lt hd]
    have hinner := hp { c with depth := c.depth + 1 } hd
    refine ⟨fun a c' h => ?_, fun f h => ?_⟩
    · obtain ⟨b, e, hb, he⟩ := andThen_ok.1 h
      cases he
      exact leadsTo_ascend (hinner.ok _ e hb)
    · rcases andThen_error.1 h with hf | ⟨_, _, _, hf⟩
      · have hsees := hinner.error f hf
        exact ⟨hsees.position_le, hsees.le_size, hsees.boundary⟩
      · cases hf
  · rw [nested, descend_of_le (Nat.not_lt.1 hd), andThen_of_error rfl]
    exact stays_of_error rfl (sees_position c)

/-- The furthest of several failures is one of them. -/
theorem sees_furthest {c : Cursor} {best : Option Failure} {f : Failure}
    (hbest : ∀ g ∈ best, c.Sees g.position) (hf : c.Sees f.position) :
    c.Sees (furthest best f).position := by
  cases best with
  | none => exact hf
  | some g =>
    rw [furthest]
    split
    · exact hf
    · exact hbest g rfl

theorem stays_tryEach {n : Nat} {ps : List (Parser α)} (hps : ∀ p ∈ ps, WellBehaved p) {c : Cursor}
    (hc : c.depth ≤ c.maxDepth) {best : Option Failure} (hbest : ∀ g ∈ best, c.Sees g.position) :
    (tryEach n ps best c).Stays c := by
  induction ps generalizing best with
  | nil =>
    refine stays_of_error rfl ?_
    cases best with
    | none => exact sees_position c
    | some g => exact hbest g rfl
  | cons p ps ih =>
    obtain ⟨hp, hrest⟩ := List.forall_mem_cons.1 hps
    cases hr : (p c).result with
    | ok found =>
      rw [tryEach_of_ok hr]
      exact hp c hc
    | error f =>
      by_cases hf : f.fatal = true
      · rw [tryEach_of_fatal hr hf]
        exact hp c hc
      · rw [tryEach_of_error hr (Bool.eq_false_iff.2 hf)]
        have hlater : (tryEach n ps (some (furthest best f)) c).Stays c := by
          refine ih hrest fun g hg => ?_
          cases hg
          exact sees_furthest hbest ((hp c hc).error f hr)
        exact ⟨hlater.ok, hlater.error⟩

theorem wellBehaved_choice {ps : List (Parser α)} (hps : ∀ p ∈ ps, WellBehaved p) :
    WellBehaved (choice ps) :=
  fun _ hc => stays_tryEach hps hc fun _ h => nomatch h

/-- A list that ends at `c` by the failure of its next element. -/
theorem stays_endOfList {elements : List α} {c : Cursor} {f : Failure} {told : Trace}
    (hf : c.Sees f.position) :
    Run.Stays c { result := endOfList elements f c, trace := told } := by
  refine ⟨fun as c' h => ?_, fun g h => ?_⟩
  · obtain ⟨-, -, rfl⟩ := endOfList_ok h
    exact LeadsTo.refl c'
  · obtain ⟨rfl, -⟩ := endOfList_error h
    exact hf

section
variable {stalled : Nat → Trace} {run : Bool → Parser α} (hrun : ∀ first, WellBehaved (run first))
include hrun

/-- A loop of well-behaved rounds goes from each to a place that is reached from where it began. -/
theorem stays_of_runs {s : Collected α} {states : List (Collected α)} {t : Run (List α)}
    (h : Runs (roundOf stalled run) s states t) (hs : s.cursor.depth ≤ s.cursor.maxDepth) :
    t.Stays s.cursor := by
  induction h with
  | done h =>
    rcases roundOf_done h with ⟨a, d, hr, -, rfl⟩ | ⟨f, hr, rfl⟩
    · exact stays_of_ok rfl ((hrun _ _ hs).ok a d hr)
    · exact stays_endOfList ((hrun _ _ hs).error f hr)
  | again h _ ih =>
    obtain ⟨a, d, hr, -, rfl⟩ := roundOf_again h
    have hlead := (hrun _ _ hs).ok a d hr
    exact Stays.trans hlead (ih (hlead.depth_le hs))

/-- Such a loop ends, since its rounds lead onward. -/
theorem wellBehaved_loop :
    WellBehaved fun c => (loop (roundOf stalled run) (.start c)).getD (endless c) := by
  intro c hc
  have hruns : ∃ states t, Runs (roundOf stalled run) (.start c) states t := by
    refine exists_runs_roundOf (I := fun c => c.depth ≤ c.maxDepth) (fun first d a e hd hr => ?_) hc
    have hlead := (hrun first d hd).ok a e hr
    exact ⟨hlead.depth_le hd, hlead.text_eq, hlead.sees.position_le⟩
  obtain ⟨states, t, hr⟩ := hruns
  dsimp only
  rw [hr.loop_eq, Option.getD_some]
  exact stays_of_runs hrun hr hc

end

theorem wellBehaved_repeated {p : Parser α} (hp : WellBehaved p) : WellBehaved (repeated p) := by
  unfold repeated
  rw [repeatRound_eq]
  exact wellBehaved_loop fun _ => hp

theorem wellBehaved_separatedList {separator : Parser β} {p : Parser α} (hs : WellBehaved separator)
    (hp : WellBehaved p) : WellBehaved (separatedList separator p) := by
  have hrun : ∀ first, WellBehaved (elementOf separator p first)
    | true => hp
    | false => wellBehaved_followedBy hs hp
  unfold separatedList
  rw [listRound_eq]
  exact wellBehaved_loop hrun

end Parser

theorem wellBehaved_pattern (p : Pattern) : WellBehaved p.parser := by
  intro c _
  unfold Pattern.parser
  split
  · unfold Cursor.matchPattern
    split
    · exact stays_of_ok rfl (leadsTo_forward c _)
    · exact stays_of_error rfl (sees_position c)
  · exact stays_of_error rfl (sees_position c)

open Descent.Parser

theorem wellBehaved_handedOn : HandedOn WellBehaved where
  choice := wellBehaved_choice
  repeated := wellBehaved_repeated
  separatedList := wellBehaved_separatedList
  bracket := wellBehaved_bracket
  discardLeft := wellBehaved_discardLeft
  both := wellBehaved_both
  map := wellBehaved_map
  nested := wellBehaved_nested

/-! ## The grammar -/

namespace Grammar

theorem wellBehaved_boolean : WellBehaved boolean := by
  refine wellBehaved_map (wellBehaved_choice fun p hp => ?_) _
  simp only [List.mem_cons, List.not_mem_nil, or_false] at hp
  rcases hp with rfl | rfl
  · exact wellBehaved_literal _
  · exact wellBehaved_literal _

theorem wellBehaved_identifier : WellBehaved identifier := by
  intro c _
  unfold identifier
  split
  · split
    · exact stays_of_ok rfl (leadsTo_forward c _)
    · exact stays_of_error rfl (sees_position c)
  · exact stays_of_error rfl (sees_position c)

/-- A number is refused at its start or behind its last digit. -/
theorem wellBehaved_number : WellBehaved number := by
  intro c _
  unfold number
  split
  · exact stays_of_error rfl (sees_position c)
  · next sign digits _ =>
    have hnext := leadsTo_forward c (sign ++ digits).length
    dsimp only
    split
    · exact stays_of_error rfl hnext.sees
    · split
      · exact stays_of_error rfl hnext.sees
      · split
        · exact stays_of_error rfl hnext.sees
        · exact stays_of_ok rfl hnext

theorem wellBehaved_callOf {p : Parser Expression} (hp : WellBehaved p) : WellBehaved (callOf p) :=
  wellBehaved_both wellBehaved_identifier <| wellBehaved_nested <|
    wellBehaved_bracket (wellBehaved_literal _)
      (wellBehaved_separatedList (wellBehaved_literal _) hp) (wellBehaved_literal _)

theorem wellBehaved_expressionOf {p : Parser Expression} (hp : WellBehaved p) :
    WellBehaved (expressionOf p) := by
  refine wellBehaved_choice fun q hq => ?_
  simp only [List.mem_cons, List.not_mem_nil, or_false] at hq
  rcases hq with rfl | rfl | rfl
  · exact wellBehaved_map wellBehaved_boolean _
  · exact wellBehaved_map wellBehaved_number _
  · exact wellBehaved_map (wellBehaved_callOf hp) _

theorem wellBehaved_expression : WellBehaved expression :=
  fix_induction guarded_expressionOf id (fun _ => rfl)
    (Q := fun c r _ => c.depth ≤ c.maxDepth → r.Stays c)
    (fun c _ => stays_of_error rfl (sees_position c)) (fun _ hp => wellBehaved_expressionOf hp)

end Grammar

/-- **Literals and patterns are well-behaved, every construct is well-behaved if its parts are, and so
the productions of the grammar are well-behaved.** -/
theorem wellBehaved_throughout :
    (∀ s, WellBehaved (literal s)) ∧ (∀ p : Pattern, WellBehaved p.parser) ∧
      HandedOn WellBehaved ∧
      WellBehaved Grammar.boolean ∧ WellBehaved Grammar.number ∧ WellBehaved Grammar.identifier ∧
      WellBehaved Grammar.call ∧ WellBehaved Grammar.expression :=
  ⟨wellBehaved_literal, wellBehaved_pattern, wellBehaved_handedOn, Grammar.wellBehaved_boolean,
    Grammar.wellBehaved_number, Grammar.wellBehaved_identifier,
    Grammar.wellBehaved_callOf Grammar.wellBehaved_expression, Grammar.wellBehaved_expression⟩

end Descent
