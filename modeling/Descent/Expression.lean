/-!
# Expressions

An expression is a number, a truth value, or a call of a named target with arguments that are
expressions again. `render` writes an expression so that its shape can be read off: every leaf
names its kind, and the arguments of a call stand in one pair of brackets.
-/

namespace Descent

inductive Expression where
  | number (value : Int)
  | boolean (value : Bool)
  | call (target : String) (arguments : List Expression)
  deriving Repr

namespace Expression

/-- The call with the given target and arguments. -/
def ofCall (parts : String × List Expression) : Expression := .call parts.1 parts.2

mutual

def decEq : (e e' : Expression) → Decidable (e = e')
  | .number m, .number n => if h : m = n then isTrue (by rw [h]) else isFalse (by simpa using h)
  | .boolean a, .boolean b => if h : a = b then isTrue (by rw [h]) else isFalse (by simpa using h)
  | .call s es, .call t es' =>
    if h : s = t then
      match decEqList es es' with
      | isTrue h' => isTrue (by rw [h, h'])
      | isFalse h' => isFalse (by simp [h'])
    else isFalse (by simp [h])
  | .number _, .boolean _ | .number _, .call _ _ => isFalse (by simp)
  | .boolean _, .number _ | .boolean _, .call _ _ => isFalse (by simp)
  | .call _ _, .number _ | .call _ _, .boolean _ => isFalse (by simp)

def decEqList : (es es' : List Expression) → Decidable (es = es')
  | [], [] => isTrue rfl
  | e :: es, e' :: es' =>
    match decEq e e', decEqList es es' with
    | isTrue h, isTrue h' => isTrue (by rw [h, h'])
    | isFalse h, _ => isFalse (by simp [h])
    | _, isFalse h' => isFalse (by simp [h'])
  | [], _ :: _ | _ :: _, [] => isFalse (by simp)

end

instance : DecidableEq Expression := decEq

/-! ## Writing -/

mutual

def render : Expression → String
  | .number value => "Number(" ++ toString value ++ ")"
  | .boolean value => "Boolean(" ++ (if value then "true" else "false") ++ ")"
  | .call target arguments => target ++ "([" ++ renderAll arguments ++ "])"

/-- The expressions of a list with a comma and a space between them. -/
def renderAll : List Expression → String
  | [] => ""
  | [e] => e.render
  | e :: es => e.render ++ ", " ++ renderAll es

end

end Expression

end Descent
