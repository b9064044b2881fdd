import MexGlue.Proofs.Model.Appending
import MexGlue.Proofs.ReadingState.Written

/-!
# Reading behind complete declarations

A reader never looks back at complete declarations, so it reads on behind them as it would from the
start. The one exception is a namespace without a closing name at the end of what was read: a name
right behind it closes it, and from the start nothing begins with a name.
-/

namespace MexGlue

namespace ReadingState

/-- The open namespaces and the declarations of the innermost one, with declarations put in front of
all of them. -/
def putInFront (first : Declarations) :
    List OpenNamespace → Declarations → List OpenNamespace × Declarations
  | [], before => ([], first.append before)
  | innermost :: outer, before =>
      let moved := putInFront first outer innermost.before
      (⟨moved.2, innermost.name⟩ :: moved.1, before)

/-- The state of a reader that has read these declarations before all else. -/
def inFront (first : Declarations) (state : ReadingState) : ReadingState :=
  let moved := putInFront first state.enclosing state.before
  ⟨moved.1, moved.2, state.place⟩

variable {first : Declarations} {enclosing : List OpenNamespace} {before : Declarations}

theorem inFront_withClass (decl : ClassDecl) (place : Place) :
    inFront first ⟨enclosing, .withClass before decl, place⟩ =
      ⟨(putInFront first enclosing before).1,
        .withClass (putInFront first enclosing before).2 decl, place⟩ := by
  cases enclosing <;> rfl

theorem inFront_withNamespace (name : String) (body : Declarations) (closing : Option String)
    (place : Place) :
    inFront first ⟨enclosing, .withNamespace before name body closing, place⟩ =
      ⟨(putInFront first enclosing before).1,
        .withNamespace (putInFront first enclosing before).2 name body closing, place⟩ := by
  cases enclosing <;> rfl

/-! ## One step -/

theorem stepBetween?_inFront (token : Token) :
    stepBetween? (putInFront first enclosing before).1 (putInFront first enclosing before).2 token =
      (stepBetween? enclosing before token).map (inFront first) := by
  cases token with
  | keyword word => cases word <;> rfl
  | symbol s =>
      cases s with
      | endNamespace => cases enclosing <;> rfl
      | _ => rfl
  | _ => rfl

/-- What has been read in front changes no step. -/
theorem step?_inFront (state : ReadingState) (token : Token) :
    (state.inFront first).step? token = (state.step? token).map (inFront first) := by
  obtain ⟨enclosing, before, place⟩ := state
  cases place with
  | between => exact stepBetween?_inFront token
  | ended name body =>
      have unnamed :=
        @stepBetween?_inFront first enclosing (.withNamespace before name body none) token
      have next := fun closing =>
        @inFront_withNamespace first enclosing before name body closing .between
      injection next none with outer inner
      rw [outer, inner] at unnamed
      cases token with
      | lower closing => exact (congrArg some (next (some closing))).symm
      | _ => exact unnamed
  | namespaceWord => cases token <;> rfl
  | namespaceName name =>
      cases token with
      | symbol s => cases s <;> rfl
      | _ => rfl
  | classWord => cases token <;> rfl
  | className name =>
      cases token with
      | symbol s => cases s <;> rfl
      | _ => rfl
  | inClass name members phase =>
      simp only [inFront, step?, Option.map_map]
      cases stepInClass? name members phase token with
      | none => rfl
      | some result =>
          cases result with
          | inl place => rfl
          | inr decl => exact congrArg some (inFront_withClass decl .between).symm

/-! ## A whole run -/

theorem run_inFront (state : ReadingState) (tokens : List Token) :
    (state.inFront first).run tokens = (state.run tokens).map (inFront first) := by
  induction tokens generalizing state with
  | nil => rfl
  | cons token tokens ih =>
      rw [run, run, step?_inFront]
      cases state.step? token with
      | none => rfl
      | some next =>
          simp only [Option.map_some, ih]
          cases next.run tokens <;> rfl

theorem run_append {state middle : ReadingState} {tokens : List Token}
    (h : state.run tokens = .ok middle) (more : List Token) :
    state.run (tokens ++ more) = (middle.run more).mapError (tokens.length + ·) := by
  induction tokens generalizing state with
  | nil =>
      cases h
      rw [List.nil_append, List.length_nil]
      cases middle.run more <;> simp
  | cons token tokens ih =>
      rw [run] at h
      rw [List.cons_append, run]
      cases stepped : state.step? token with
      | none => rw [stepped] at h; cases h
      | some next =>
          rw [stepped] at h
          cases ran : next.run tokens with
          | error i => simp only [ran] at h; cases h
          | ok final =>
              simp only [ran] at h
              cases h
              simp only [ih ran, List.length_cons]
              cases middle.run more with
              | error i => simp only [mapError_error, Except.error.injEq]; omega
              | ok final => rfl

theorem declarations?_inFront (state : ReadingState) :
    (state.inFront first).declarations? = state.declarations?.map first.append := by
  obtain ⟨enclosing, before, place⟩ := state
  cases enclosing with
  | nil => cases place <;> rfl
  | cons innermost outer => rfl

end ReadingState

/-- Whether the tokens can stand behind the declarations without giving a name to the end of a
namespace that has none. -/
def Declarations.PartedFrom (first : Declarations) (tokens : List Token) : Prop :=
  first.tokens.getLast? ≠ some (.symbol .endNamespace) ∨
    ∀ name, tokens.head? ≠ some (.lower name)

namespace ReadingState

/-- A reader goes on behind declarations as if they were in front of what it reads. -/
theorem run_behind {first : Declarations} {token : Token} {tokens : List Token}
    (parted : first.PartedFrom (token :: tokens)) :
    (behind [] first).run (token :: tokens) = (start.inFront first).run (token :: tokens) := by
  have same : (behind [] first).step? token = (start.inFront first).step? token := by
    rcases parted with named | noName
    · cases first with
      | withNamespace before name body closing =>
          cases closing with
          | none => simp [Declarations.tokens, namespaceEnd] at named
          | some closed => rfl
      | _ => rfl
    · exact step?_behind first fun name isName => noName name (congrArg some isName)
  rw [run, run, same]

end ReadingState

namespace Declarations

/-- Tokens behind those of declarations are read as they are alone. -/
theorem ofTokens_append {first : Declarations} {tokens : List Token}
    (parted : first.PartedFrom tokens) :
    ofTokens (first.tokens ++ tokens) =
      match ofTokens tokens with
      | .error i => .error (first.size + i)
      | .ok decls => .ok (first.append decls) := by
  have read := ReadingState.run_eq_ok_iff.mpr (ReadingState.foldlM_declarations [] first)
  cases tokens with
  | nil => rw [List.append_nil, ofTokens_tokens]; rfl
  | cons token tokens =>
      have whole := ReadingState.run_append read (token :: tokens)
      rw [ReadingState.run_behind parted, ReadingState.run_inFront] at whole
      rw [← ReadingState.start] at whole
      rw [ofTokens, ofTokens, whole]
      cases ReadingState.start.run (token :: tokens) with
      | error i => rfl
      | ok final =>
          simp only [Except.map, mapError_ok, ReadingState.declarations?_inFront]
          cases final.declarations? with
          | none => simp [size]
          | some decls => rfl

end Declarations

end MexGlue
