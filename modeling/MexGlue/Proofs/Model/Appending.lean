import MexGlue.Proofs.Model.Classes

/-!
# Declarations behind declarations

Declarations are put behind others by putting them there one by one. Their tokens come behind those
in front, and so do their classes; what is wrong with one of their closing names is found at the token
that has moved with it.
-/

namespace MexGlue

/-- The wrong closing, with this many more tokens in front. -/
def WrongClosing.shift (count : Nat) (wrong : WrongClosing) : WrongClosing :=
  { wrong with token := count + wrong.token }

theorem WrongClosing.check_add (count token : Nat) (opened : String) (closing : Option String) :
    check (count + token) opened closing = (check token opened closing).mapError (shift count) := by
  cases closing with
  | none => rfl
  | some closed =>
      by_cases same : closed = opened
      · simp [check, same]
      · simp [check, same, shift]

namespace Declarations

/-- The second declarations, put behind the first. -/
def append (first : Declarations) : Declarations → Declarations
  | .empty => first
  | .withClass before decl => .withClass (first.append before) decl
  | .withNamespace before name body closing =>
      .withNamespace (first.append before) name body closing

theorem tokens_append (first second : Declarations) :
    (first.append second).tokens = first.tokens ++ second.tokens := by
  induction second with
  | empty => simp [append, tokens]
  | withClass before decl ih => simp [append, tokens, ih]
  | withNamespace before name body closing ihBefore _ => simp [append, tokens, ihBefore]

theorem size_append (first second : Declarations) :
    (first.append second).size = first.size + second.size := by
  rw [size, tokens_append, List.length_append]
  rfl

/-- With more tokens in front, only the numbers of wrong closings change. -/
theorem classesFrom_add (decls : Declarations) (count first : Nat) :
    decls.classesFrom (count + first) =
      (decls.classesFrom first).mapError (WrongClosing.shift count) := by
  induction decls generalizing first with
  | empty => rfl
  | withClass before decl ih =>
      simp only [classesFrom, ih]
      cases before.classesFrom first <;> rfl
  | withNamespace before name body closing ihBefore ihBody =>
      simp only [classesFrom, ihBefore, Nat.add_assoc, ihBody, WrongClosing.check_add]
      cases before.classesFrom first with
      | error wrong => rfl
      | ok earlier =>
          simp only [mapError_ok, bind, Except.bind]
          cases body.classesFrom _ with
          | error wrong => rfl
          | ok inner =>
              simp only
              cases WrongClosing.check _ name closing <;> rfl

/-- The classes of both are those of the first with those of the second behind them. -/
theorem classesFrom_append (first second : Declarations) (start : Nat) :
    (first.append second).classesFrom start =
      match first.classesFrom start with
      | .error wrong => .error wrong
      | .ok earlier => (second.classesFrom (start + first.size)).map (earlier ++ ·) := by
  induction second generalizing start with
  | empty =>
      rw [append, classesFrom]
      cases first.classesFrom start <;> simp [Except.map]
  | withClass before decl ih =>
      simp only [append, classesFrom, ih]
      cases first.classesFrom start with
      | error wrong => rfl
      | ok earlier =>
          simp only [bind, Except.bind, pure, Except.pure]
          cases before.classesFrom (start + first.size) <;> simp [Except.map]
  | withNamespace before name body closing ihBefore ihBody =>
      simp only [append, classesFrom, ihBefore, size_append, ← Nat.add_assoc]
      cases first.classesFrom start with
      | error wrong => rfl
      | ok earlier =>
          simp only [bind, Except.bind, pure, Except.pure]
          cases before.classesFrom (start + first.size) with
          | error wrong => rfl
          | ok middle =>
              simp only [Except.map]
              cases body.classesFrom _ with
              | error wrong => rfl
              | ok inner =>
                  simp only
                  cases WrongClosing.check _ name closing <;> simp

end Declarations

end MexGlue
