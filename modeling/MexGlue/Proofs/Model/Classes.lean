import MexGlue.Interface.Meaning

/-!
# The classes of declarations, one declaration at a time

Declarations have classes if what is written before the last one has, and then the last one adds its
own behind them: a class itself, and a namespace those of its body with its name put around them.
-/

namespace MexGlue

/-- The class, with namespaces put around all of its own. -/
def Class.under (outer : List String) (cls : Class) : Class :=
  { cls with namespaces := outer ++ cls.namespaces }

theorem WrongClosing.check_eq_ok_iff {token : Nat} {opened : String} {closing : Option String} :
    check token opened closing = .ok () ↔ ∀ closed ∈ closing, closed = opened := by
  cases closing with
  | none => simp [check]
  | some closed =>
      by_cases same : closed = opened
      · simp [check, same]
      · simp [check, same]

theorem bind_eq_ok_iff {ε α β : Type} {x : Except ε α} {f : α → Except ε β} {result : β} :
    x >>= f = .ok result ↔ ∃ value, x = .ok value ∧ f value = .ok result := by
  cases x with
  | error fault => simp [bind, Except.bind]
  | ok value => simp [bind, Except.bind]

@[simp] theorem mapError_ok {ε ε' α : Type} (f : ε → ε') (value : α) :
    (Except.ok value).mapError f = .ok value := rfl

@[simp] theorem mapError_error {ε ε' α : Type} (f : ε → ε') (fault : ε) :
    (Except.error fault : Except ε α).mapError f = .error (f fault) := rfl

namespace Declarations

theorem classesFrom_withClass {first : Nat} {before : Declarations} {decl : ClassDecl}
    {classes : List Class} : (withClass before decl).classesFrom first = .ok classes ↔
      ∃ earlier, before.classesFrom first = .ok earlier ∧ earlier ++ [decl.toClass] = classes := by
  rw [classesFrom, bind_eq_ok_iff]
  simp only [pure, Except.pure, Except.ok.injEq]

/-- The number of a namespace's first token behind its opening. -/
def bodyStart (first : Nat) (before : Declarations) (name : String) : Nat :=
  first + before.size + (namespaceOpening name).length

theorem classesFrom_withNamespace {first : Nat} {before body : Declarations} {name : String}
    {closing : Option String} {classes : List Class} :
    (withNamespace before name body closing).classesFrom first = .ok classes ↔
      ∃ earlier inner, before.classesFrom first = .ok earlier ∧
        body.classesFrom (bodyStart first before name) = .ok inner ∧
        (∀ closed ∈ closing, closed = name) ∧
        earlier ++ inner.map (Class.within name) = classes := by
  simp only [classesFrom, bind_eq_ok_iff, pure, Except.pure, Except.ok.injEq]
  constructor
  · intro h
    rcases h with ⟨earlier, beforeOk, inner, bodyOk, _, checked, same⟩
    exact ⟨earlier, inner, beforeOk, bodyOk, WrongClosing.check_eq_ok_iff.mp checked, same⟩
  · intro h
    rcases h with ⟨earlier, inner, beforeOk, bodyOk, agree, same⟩
    exact ⟨earlier, beforeOk, inner, bodyOk, (), WrongClosing.check_eq_ok_iff.mpr agree, same⟩

end Declarations

end MexGlue
