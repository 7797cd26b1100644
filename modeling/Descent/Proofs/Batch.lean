import Mathlib.Algebra.Ring.Nat
import Mathlib.Data.List.Basic
import Descent.CommandLine
import Descent.Proofs.Modes

/-!
# Batches of inputs

Where the options of a command line stand between its inputs makes no difference: it is read as the
inputs, in their order, and what the options set (`Interleaved.readFrom_eq`).

The inputs are parsed each by itself under these options. So what is written for all of them is what is
written for each, one after the other (`Invocation.run_parse`), and two batches in one run leave behind
what they leave behind in two (`Invocation.batch_append`).

* `IsCount value n` : `n` is written `value` behind an option;
* `Interleaved inputs strict depth arguments` : `arguments` are the inputs with the options anywhere
  between them;
* `Invocation.batch` : what inputs come to, said of each input by itself;
* `Invocation.outcome` : what a list of arguments comes to.
-/

namespace Descent

open Descent.Grammar Descent.Parser

/-! ## Numbers behind an option -/

/-- One digit or more, with a plus sign before them or without, for a number that fits into 64 bits. -/
structure IsCount (value : String) (n : Nat) : Prop where
  exists_digits : ∃ digits, digits ≠ [] ∧ (∀ d ∈ digits, d.isDigit = true) ∧
    (value.toList = digits ∨ value.toList = '+' :: digits) ∧ Nat.ofDigitChars 10 digits 0 = n
  lt : n < 2 ^ 64

variable {value x : String} {n : Nat}

namespace IsCount

theorem readCount_eq (h : IsCount value n) : Arguments.readCount value = some n := by
  obtain ⟨⟨digits, hne, hdigits, hvalue, rfl⟩, hlt⟩ := h
  have hread : Arguments.readCount value =
      if digits.isEmpty || !digits.all Char.isDigit then none
      else if Text.decimalValue digits < 0x10000000000000000 then some (Text.decimalValue digits)
      else none := by
    rcases hvalue with hvalue | hvalue
    · rw [Arguments.readCount, hvalue]
      split
      · exact absurd (hdigits '+' List.mem_cons_self) (by decide)
      · rfl
    · rw [Arguments.readCount, hvalue]
      rfl
  have hall : digits.all Char.isDigit = true := List.all_eq_true.2 hdigits
  have hempty : digits.isEmpty = false := by simpa using hne
  have hfits : Text.decimalValue digits < 0x10000000000000000 := by rwa [decimalValue_eq]
  rw [hread, hempty, hall, if_pos hfits, decimalValue_eq]
  rfl

/-- Neither a plus sign nor a digit is a hyphen, so the value is not taken for another option. -/
theorem isOption_eq (h : IsCount value n) : Invocation.isOption value = false := by
  obtain ⟨⟨digits, -, hdigits, hvalue, -⟩, -⟩ := h
  have hstart : value.startsWith "-" = false := by
    rw [String.startsWith_string_eq_false_iff]
    intro hhyphen
    rcases hvalue with hvalue | hvalue <;> rw [hvalue] at hhyphen
    · have hdigit : '-' ∈ digits := hhyphen.mem List.mem_cons_self
      exact absurd (hdigits '-' hdigit) (by decide)
    · exact absurd (List.cons_prefix_cons.1 hhyphen).1 (by decide)
  rw [Invocation.isOption, hstart, Bool.false_and]

end IsCount

/-! ## Arguments -/

/-- The arguments hand over the inputs in their order, and between them, anywhere, the option
`--strict` if `strict` holds and `--max-depth` if there is a depth. No input begins with a hyphen unless it
is one. -/
inductive Interleaved : List String → Bool → Option Nat → List String → Prop where
  | nil : Interleaved [] false none []
  | input {xs : List String} {strict : Bool} {depth : Option Nat} {arguments : List String} {x : String}
    (hx : x.startsWith "-" = true → x = "-") (h : Interleaved xs strict depth arguments) :
    Interleaved (x :: xs) strict depth (x :: arguments)
  | strict {xs : List String} {depth : Option Nat} {arguments : List String}
    (h : Interleaved xs false depth arguments) :
    Interleaved xs true depth ("--strict" :: arguments)
  | maxDepth {xs : List String} {strict : Bool} {arguments : List String} {value : String} {n : Nat}
    (hvalue : IsCount value n) (h : Interleaved xs strict none arguments) :
    Interleaved xs strict (some n) ("--max-depth" :: value :: arguments)
  | attachedDepth {xs : List String} {strict : Bool} {arguments : List String} {value : String}
    {n : Nat} (hvalue : IsCount value n) (h : Interleaved xs strict none arguments) :
    Interleaved xs strict (some n) (("--max-depth=" ++ value) :: arguments)

namespace Invocation

variable {a : Arguments} {rest : List String}

theorem attachedDepth_eq_some_iff : attachedDepth x = some value ↔ x = "--max-depth=" ++ value := by
  rw [attachedDepth, Option.map_eq_some_iff, ← String.toList_inj, String.toList_append]
  constructor
  · rintro ⟨cs, hcs, rfl⟩
    have hback : (String.ofList cs).toList = cs := String.toList_ofList
    rw [hback, List.append_eq_of_isPrefixOf?_eq_some hcs]
  · intro h
    exact ⟨value.toList, List.isPrefixOf?_eq_some_iff_append_eq.2 h.symm, String.ofList_toList⟩

/-- An argument that is not a whole option is one with its value, or an input. -/
theorem readFrom_other (hx : x ∉ ["--", "--strict", "--max-depth", "--version"])
    (hversion : x.startsWith "-V" = false) :
    readFrom a (x :: rest) = match attachedDepth x with
      | some value => do readFrom (← a.setMaxDepth value) rest
      | none =>
        if isOption x then .error (.unknownOption x) else readFrom (a.add [x]) rest := by
  simp only [List.mem_cons, List.not_mem_nil, or_false, not_or] at hx
  obtain ⟨hend, hstrict, hdepth, hlong⟩ := hx
  rw [readFrom, hversion, if_neg hdepth]
  · rfl
  · exact hend
  · exact hstrict
  · exact fun _ _ h _ => hdepth h
  · exact hlong

/-- An input begins like an option only as far as its hyphen. -/
theorem not_isPrefix_of_input (hx : x.startsWith "-" = true → x = "-") {p : String}
    (hp : "-".toList <+: p.toList) (hlen : 1 < p.toList.length) : ¬ p.toList <+: x.toList := by
  intro h
  obtain rfl := hx (String.startsWith_string_iff.2 (hp.trans h))
  exact Nat.not_lt.2 h.length_le hlen

theorem readFrom_input (hx : x.startsWith "-" = true → x = "-") :
    readFrom a (x :: rest) = readFrom (a.add [x]) rest := by
  have hversion : x.startsWith "-V" = false :=
    String.startsWith_string_eq_false_iff.2 (not_isPrefix_of_input hx (by decide) (by decide))
  have hlong : ¬ "--".toList <+: x.toList := not_isPrefix_of_input hx (by decide) (by decide)
  have hoptions : ∀ y ∈ ["--", "--strict", "--max-depth", "--version"], "--".toList <+: y.toList := by
    decide
  have hdepth : attachedDepth x = none := by
    refine Option.eq_none_iff_forall_ne_some.2 fun value h => hlong ?_
    rw [attachedDepth_eq_some_iff.1 h, String.toList_append]
    exact List.IsPrefix.trans (by decide) (List.prefix_append _ _)
  have hoption : isOption x = false := by
    cases h : x.startsWith "-" with
    | false => rw [isOption, h, Bool.false_and]
    | true => rw [isOption, decide_eq_false (not_not_intro (hx h)), Bool.and_false]
  rw [readFrom_other (fun hmem => hlong (hoptions x hmem)) hversion, hdepth, hoption]
  rfl

theorem readFrom_strict (h : a.strict = false) :
    readFrom a ("--strict" :: rest) = readFrom { a with strict := true } rest := by
  rw [readFrom, Arguments.setStrict, h]
  rfl

theorem setMaxDepth_eq (h : a.maxDepth = none) (hvalue : IsCount value n) :
    a.setMaxDepth value = .ok { a with maxDepth := some n } := by
  rw [Arguments.setMaxDepth, h, hvalue.readCount_eq]
  rfl

theorem readFrom_maxDepth (h : a.maxDepth = none) (hvalue : IsCount value n) :
    readFrom a ("--max-depth" :: value :: rest) = readFrom { a with maxDepth := some n } rest := by
  rw [readFrom, hvalue.isOption_eq, setMaxDepth_eq h hvalue]
  rfl

theorem readFrom_attachedDepth (h : a.maxDepth = none) (hvalue : IsCount value n) :
    readFrom a (("--max-depth=" ++ value) :: rest) =
      readFrom { a with maxDepth := some n } rest := by
  have hstart : "--max-depth=".toList <+: ("--max-depth=" ++ value).toList := by
    rw [String.toList_append]
    exact List.prefix_append _ _
  have hversion : ("--max-depth=" ++ value).startsWith "-V" = false := by
    rw [String.startsWith_string_eq_false_iff]
    exact fun h => absurd (List.prefix_of_prefix_length_le h hstart (by decide)) (by decide)
  have hoptions : ∀ y ∈ ["--", "--strict", "--max-depth", "--version"],
      ¬ "--max-depth=".toList <+: y.toList := by
    decide
  rw [readFrom_other (fun hmem => hoptions _ hmem hstart) hversion, attachedDepth_eq_some_iff.2 rfl]
  dsimp only
  rw [setMaxDepth_eq h hvalue]
  rfl

end Invocation

/-- However they are interleaved, the inputs and the options are read as what they are, behind
arguments `a` that have set none of these options yet. -/
theorem Interleaved.readFrom_eq {xs arguments : List String} {strict : Bool} {depth : Option Nat}
    (h : Interleaved xs strict depth arguments) (a : Arguments)
    (hstrict : strict = true → a.strict = false) (hdepth : depth ≠ none → a.maxDepth = none) :
    Invocation.readFrom a arguments = .ok (.parse
      { inputs := a.inputs ++ xs, strict := a.strict || strict, maxDepth := a.maxDepth.or depth }) := by
  induction h generalizing a with
  | nil => simp [Invocation.readFrom]
  | @input xs strict depth arguments x hx h ih =>
    rw [Invocation.readFrom_input hx, ih (a.add [x]) hstrict hdepth]
    simp [Arguments.add]
  | strict h ih =>
    -- the option is set now, and does not stand in the rest once more
    rw [Invocation.readFrom_strict (hstrict rfl),
      ih { a with strict := true } (fun h => nomatch h) hdepth]
    simp
  | @maxDepth xs strict arguments value n hvalue h ih =>
    have hnone := hdepth (fun h => nomatch h)
    rw [Invocation.readFrom_maxDepth hnone hvalue,
      ih { a with maxDepth := some n } hstrict (fun h => absurd rfl h), hnone]
    rfl
  | @attachedDepth xs strict arguments value n hvalue h ih =>
    have hnone := hdepth (fun h => nomatch h)
    rw [Invocation.readFrom_attachedDepth hnone hvalue,
      ih { a with maxDepth := some n } hstrict (fun h => absurd rfl h), hnone]
    rfl

/-! ## Runs -/

/-- What is left behind by a run and by another one after it. -/
def Completion.followedBy (first second : Completion) : Completion where
  code := max first.code second.code
  output := first.output ++ second.output
  errors := first.errors ++ second.errors

namespace Invocation

section
variable (options : Options) (input : String)

def accepts : Bool := (parseWith options input).result.isOk

/-- The tree of an accepted input, in a line of its own. -/
def shown : String :=
  match (parseWith options input).result with
  | .ok tree => tree.render ++ "\n"
  | .error _ => ""

/-- The report on a refused input. -/
def reported : String :=
  match (parseWith options input).result with
  | .ok _ => ""
  | .error d => d.report input

/-- What inputs come to, each by itself. -/
def batch (inputs : List String) : Completion where
  code := if inputs.all (accepts options) then 0 else 1
  output := String.join (inputs.map (shown options))
  errors := String.join (inputs.map (reported options))

end

variable {options : Options} {input : String} {xs ys : List String}

theorem accepts_iff :
    accepts options input = true ↔ ∃ tree, (parseWith options input).result = .ok tree := by
  unfold accepts
  cases (parseWith options input).result with
  | ok tree => exact iff_of_true rfl ⟨tree, rfl⟩
  | error d => exact iff_of_false (fun h => nomatch h) (fun ⟨_, h⟩ => nomatch h)

theorem code_batch_le_one : (batch options xs).code ≤ 1 := by
  rw [batch]
  split
  · exact Nat.zero_le 1
  · exact Nat.le_refl 1

theorem code_batch_eq_zero_iff :
    (batch options xs).code = 0 ↔ ∀ x ∈ xs, ∃ tree, (parseWith options x).result = .ok tree := by
  simp only [batch, ← accepts_iff, ← List.all_eq_true]
  split
  · next h => exact iff_of_true rfl h
  · next h => exact iff_of_false Nat.one_ne_zero h

theorem batch_append (options : Options) (xs ys : List String) :
    batch options (xs ++ ys) = (batch options xs).followedBy (batch options ys) := by
  have hcode : (batch options (xs ++ ys)).code =
      max (batch options xs).code (batch options ys).code := by
    simp only [batch, List.all_append]
    cases xs.all (accepts options) <;> cases ys.all (accepts options) <;> rfl
  rw [Completion.followedBy, ← hcode]
  simp only [batch, List.map_append, String.join_append]

/-- One input adds to what is there what it comes to by itself, and one to the refusals if it is
refused. -/
theorem treat_eq (so : Progress) (input : String) :
    treat options so input =
      { failed := so.failed + if accepts options input then 0 else 1
        output := so.output ++ shown options input
        errors := so.errors ++ reported options input } := by
  cases hr : (parseWith options input).result with
  | ok tree =>
    simp [treat, accepts, shown, reported, hr, Except.isOk, Except.toBool, String.append_assoc]
  | error d => simp [treat, accepts, shown, reported, hr, Except.isOk, Except.toBool]

/-- The refusals are counted. -/
theorem foldl_treat (so : Progress) (xs : List String) :
    xs.foldl (treat options) so =
      { failed := so.failed + xs.countP fun x => !accepts options x
        output := so.output ++ String.join (xs.map (shown options))
        errors := so.errors ++ String.join (xs.map (reported options)) } := by
  induction xs generalizing so with
  | nil => simp
  | cons x xs ih =>
    rw [List.foldl_cons, ih, treat_eq]
    cases hx : accepts options x <;>
      simp [hx, String.append_assoc, Nat.add_assoc, Nat.add_comm 1]

/-- A run leaves behind what its inputs come to, each by itself. -/
theorem run_parse {a : Arguments} (hne : a.inputs ≠ []) :
    (Invocation.parse a).run = batch a.options a.inputs := by
  have hempty : a.inputs.isEmpty = false := by simpa using hne
  have hcount : a.inputs.countP (fun x => !accepts a.options x) = 0 ↔
      a.inputs.all (accepts a.options) = true := by
    simp [List.countP_eq_zero]
  rw [run, hempty]
  simp only [Bool.false_eq_true, if_false, foldl_treat, finish, batch, Nat.zero_add, hcount,
    String.empty_append]

/-- What the arguments come to, or what is wrong with them. -/
def outcome (arguments : List String) : Except UsageFault Completion := (read arguments).map run

theorem outcome_of_interleaved {strict : Bool} {depth : Option Nat} {arguments : List String}
    (h : Interleaved xs strict depth arguments) (hne : xs ≠ []) :
    outcome arguments = .ok (batch
      { mode := if strict then .strict else .lenient, maxDepth := depth.getD defaultMaxDepth } xs) := by
  have hread : read arguments = .ok (.parse { inputs := xs, strict, maxDepth := depth }) := by
    rw [read, h.readFrom_eq {} (fun _ => rfl) (fun _ => rfl)]
    simp
  rw [outcome, hread]
  exact congrArg Except.ok (run_parse hne)

/-- **The inputs of a command line come to what each of them comes to by itself under its options,
wherever the options stand. So two batches come to the same in one run as in two.** -/
theorem inputs_independent {strict : Bool} {depth : Option Nat} {arguments : List String}
    (h : Interleaved xs strict depth arguments) (hne : xs ≠ []) :
    let options : Options :=
      { mode := if strict then .strict else .lenient, maxDepth := depth.getD defaultMaxDepth }
    ∃ done, outcome arguments = .ok done ∧
      done.output = String.join (xs.map (shown options)) ∧
      done.errors = String.join (xs.map (reported options)) ∧
      (done.code = 0 ↔ ∀ x ∈ xs, ∃ tree, (parseWith options x).result = .ok tree) ∧ done.code ≤ 1 ∧
      (∀ moved, Interleaved xs strict depth moved → outcome moved = .ok done) ∧
      ∀ ys more both, ys ≠ [] → Interleaved ys strict depth more →
        Interleaved (xs ++ ys) strict depth both →
          ∃ next, outcome more = .ok next ∧ outcome both = .ok
            { code := max done.code next.code
              output := done.output ++ next.output
              errors := done.errors ++ next.errors } := by
  intro options
  refine ⟨batch options xs, outcome_of_interleaved h hne, rfl, rfl, code_batch_eq_zero_iff,
    code_batch_le_one, fun moved hmoved => outcome_of_interleaved hmoved hne, ?_⟩
  intro ys more both hys hmore hboth
  refine ⟨batch options ys, outcome_of_interleaved hmore hys, ?_⟩
  rw [outcome_of_interleaved hboth (List.append_ne_nil_of_left_ne_nil hne ys), batch_append]
  rfl

/-- Two inputs, the second of which is refused, with the options at different places, and each of them
by itself. -/
theorem inputs_independent_moved :
    let both := ["true", "--max-depth=5", "-", "--strict"]
    let moved := ["--strict", "true", "-", "--max-depth", "+5"]
    Interleaved ["true", "-"] true (some 5) both ∧ Interleaved ["true", "-"] true (some 5) moved ∧
      ∃ done, outcome both = .ok done ∧ outcome moved = .ok done ∧ done.code = 1 ∧
        done.output = "Boolean(true)\n" ∧
        done.errors =
          "Syntax error at line 1, byte offset 0: expected true\n\n  > 1 | -\n        ^--- here\n" ∧
        ∃ first next, outcome ["true", "--strict", "--max-depth=5"] = .ok first ∧
          outcome ["--strict", "-", "--max-depth", "+5"] = .ok next ∧ outcome both = .ok
            { code := max first.code next.code
              output := first.output ++ next.output
              errors := first.errors ++ next.errors } := by
  intro both moved
  have hfive : IsCount "5" 5 :=
    ⟨⟨['5'], by decide, List.forall_mem_singleton.2 rfl, .inl rfl, rfl⟩, by decide⟩
  have hsigned : IsCount "+5" 5 :=
    ⟨⟨['5'], by decide, List.forall_mem_singleton.2 rfl, .inr rfl, rfl⟩, by decide⟩
  have hword : "true".startsWith "-" = true → "true" = "-" := fun h =>
    absurd (String.startsWith_string_iff.1 h) (by decide)
  have hboth : Interleaved ["true", "-"] true (some 5) both :=
    .input hword (.attachedDepth hfive (.input (fun _ => rfl) (.strict .nil)))
  have hmoved : Interleaved ["true", "-"] true (some 5) moved :=
    .strict (.input hword (.input (fun _ => rfl) (.maxDepth hsigned .nil)))
  have hfirst : Interleaved ["true"] true (some 5) ["true", "--strict", "--max-depth=5"] :=
    .input hword (.strict (.attachedDepth hfive .nil))
  have hnext : Interleaved ["-"] true (some 5) ["--strict", "-", "--max-depth", "+5"] :=
    .strict (.input (fun _ => rfl) (.maxDepth hsigned .nil))
  have htrue : (parseWith { mode := .strict, maxDepth := 5 } "true").result = .ok (.boolean true) :=
    strict_of_derives (Derives.boolean 5 true)
  have hhyphen : (parseWith { mode := .strict, maxDepth := 5 } "-").result =
      .error (.ofFailure "-" { expected := "true", position := 0 }) :=
    parseWith_of_error (by
      rw [expression_eq, expressionOf_of_nothing (by decide) (stops_cons.2 (by decide))]
      rfl)
  obtain ⟨done, hdone, houtput, herrors, hcode, hle, hsame, -⟩ :=
    inputs_independent hboth (List.cons_ne_nil _ _)
  obtain ⟨first, hfirst', -, -, -, -, -, hbatches⟩ :=
    inputs_independent hfirst (List.cons_ne_nil _ _)
  obtain ⟨next, hnext', hall⟩ := hbatches ["-"] _ both (List.cons_ne_nil _ _) hnext hboth
  have hrefused : done.code ≠ 0 := by
    intro hzero
    obtain ⟨tree, htree⟩ := hcode.1 hzero "-" (by decide)
    exact nomatch hhyphen.symm.trans htree
  refine ⟨hboth, hmoved, done, hdone, hsame _ hmoved, by omega, ?_, ?_,
    first, next, hfirst', hnext', hall⟩
  · simp only [houtput, List.map_cons, List.map_nil, shown, if_true, Option.getD_some, htrue,
      hhyphen]
    decide
  · simp only [herrors, List.map_cons, List.map_nil, reported, if_true, Option.getD_some, htrue,
      hhyphen]
    decide

end Invocation

end Descent
