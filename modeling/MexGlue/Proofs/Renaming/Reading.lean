import MexGlue.Proofs.ReadingState.Completion

/-!
# Reading is parametric in names

The grammar sees the kind of a name and nothing else of it, so names may be replaced by any others:
a reader takes one step more over the replaced token exactly where it did over the original one, and
what it has read then holds the replaced names.
-/

namespace MexGlue

variable (f : String → String)

/-! ## Replacing names -/

def Token.mapNames : Token → Token
  | .lower name => .lower (f name)
  | .upper name => .upper (f name)
  | token => token

def Identifier.mapNames : Identifier → Identifier
  | .lower name => .lower (f name)
  | .upper name => .upper (f name)

def QualifiedName.mapNames (q : QualifiedName) : QualifiedName :=
  ⟨q.namespaces.map f, f q.name⟩

def ArgumentForm.mapNames : ArgumentForm → ArgumentForm
  | .classReference isConst q => .classReference isConst (q.mapNames f)
  | .classPointer q => .classPointer (q.mapNames f)
  | form => form

def ArgumentDecl.mapNames (arg : ArgumentDecl) : ArgumentDecl :=
  ⟨arg.form.mapNames f, arg.name.mapNames f⟩

def SlotForm.mapNames : SlotForm → SlotForm
  | .classType q isPointer => .classType (q.mapNames f) isPointer
  | form => form

def ReturnForm.mapNames : ReturnForm → ReturnForm
  | .void => .void
  | .single slot => .single (slot.mapNames f)
  | .pair first second => .pair (first.mapNames f) (second.mapNames f)

def MemberHead.mapNames : MemberHead → MemberHead
  | .constructor written => .constructor (f written)
  | .method returns name => .method (returns.mapNames f) (f name)
  | .staticMethod returns name => .staticMethod (returns.mapNames f) (name.mapNames f)

def MemberDecl.mapNames : MemberDecl → MemberDecl
  | .includeLine path => .includeLine path
  | .constructor written args => .constructor (f written) (args.map (ArgumentDecl.mapNames f))
  | .method returns name args isConst =>
      .method (returns.mapNames f) (f name) (args.map (ArgumentDecl.mapNames f)) isConst
  | .staticMethod returns name args =>
      .staticMethod (returns.mapNames f) (name.mapNames f) (args.map (ArgumentDecl.mapNames f))

def ClassDecl.mapNames (decl : ClassDecl) : ClassDecl :=
  ⟨f decl.name, decl.members.map (MemberDecl.mapNames f)⟩

def Declarations.mapNames : Declarations → Declarations
  | .empty => .empty
  | .withClass before decl => .withClass before.mapNames (decl.mapNames f)
  | .withNamespace before name body closing =>
      .withNamespace before.mapNames (f name) body.mapNames (closing.map f)

def ArgumentPhase.mapNames : ArgumentPhase → ArgumentPhase
  | .namespaceName isConst outer last => .namespaceName isConst (outer.map f) (f last)
  | .scoped isConst namespaces => .scoped isConst (namespaces.map f)
  | .classType isConst q => .classType isConst (q.mapNames f)
  | .typed form => .typed (form.mapNames f)
  | .complete arg => .complete (arg.mapNames f)
  | phase => phase

def SlotPhase.mapNames : SlotPhase → SlotPhase
  | .start => .start
  | .namespaceName outer last => .namespaceName (outer.map f) (f last)
  | .scoped namespaces => .scoped (namespaces.map f)
  | .classType q => .classType (q.mapNames f)
  | .complete slot => .complete (slot.mapNames f)

def ReturnPhase.mapNames : ReturnPhase → ReturnPhase
  | .start => .start
  | .single slot => .single (slot.mapNames f)
  | .pairWord => .pairWord
  | .pairFirst slot => .pairFirst (slot.mapNames f)
  | .pairSecond first slot => .pairSecond (first.mapNames f) (slot.mapNames f)
  | .complete returns => .complete (returns.mapNames f)

def MemberPhase.mapNames : MemberPhase → MemberPhase
  | .start => .start
  | .returning isStatic returns => .returning isStatic (returns.mapNames f)
  | .headed head => .headed (head.mapNames f)
  | .arguments head before phase =>
      .arguments (head.mapNames f) (before.map (ArgumentDecl.mapNames f)) (phase.mapNames f)
  | .closed head args => .closed (head.mapNames f) (args.map (ArgumentDecl.mapNames f))
  | .constMarked returns name args =>
      .constMarked (returns.mapNames f) (f name) (args.map (ArgumentDecl.mapNames f))

def Place.mapNames : Place → Place
  | .between => .between
  | .ended name body => .ended (f name) (body.mapNames f)
  | .namespaceWord => .namespaceWord
  | .namespaceName name => .namespaceName (f name)
  | .classWord => .classWord
  | .className name => .className (f name)
  | .inClass name members phase =>
      .inClass (f name) (members.map (MemberDecl.mapNames f)) (phase.mapNames f)

def OpenNamespace.mapNames (outer : OpenNamespace) : OpenNamespace :=
  ⟨outer.before.mapNames f, f outer.name⟩

def ReadingState.mapNames (state : ReadingState) : ReadingState :=
  ⟨state.enclosing.map (OpenNamespace.mapNames f), state.before.mapNames f, state.place.mapNames f⟩

/-! ## One step -/

namespace ArgumentPhase

theorem ofTypeToken?_mapNames (isConst : Bool) (token : Token) :
    ofTypeToken? isConst (token.mapNames f) =
      (ofTypeToken? isConst token).map (ArgumentPhase.mapNames f) := by
  cases token <;> rfl

theorem ofFirstToken?_mapNames (token : Token) :
    ofFirstToken? (token.mapNames f) = (ofFirstToken? token).map (ArgumentPhase.mapNames f) := by
  cases token with
  | keyword word => cases word <;> rfl
  | _ => rfl

theorem ofNameToken?_mapNames (form : ArgumentForm) (token : Token) :
    ofNameToken? (form.mapNames f) (token.mapNames f) =
      (ofNameToken? form token).map (ArgumentPhase.mapNames f) := by
  cases token <;> rfl

theorem step?_mapNames (phase : ArgumentPhase) (token : Token) :
    (phase.mapNames f).step? (token.mapNames f) =
      (phase.step? token).map (ArgumentPhase.mapNames f) := by
  cases phase with
  | opened => exact ofFirstToken?_mapNames f token
  | next => exact ofFirstToken?_mapNames f token
  | constMarked => exact ofTypeToken?_mapNames f true token
  | namespaceName isConst outer last =>
      cases token with
      | symbol s => cases s <;> simp [step?, mapNames, Token.mapNames]
      | _ => rfl
  | «scoped» isConst namespaces => cases token <;> rfl
  | classType isConst q =>
      cases token with
      | symbol s => cases s <;> cases isConst <;> rfl
      | _ => rfl
  | container isConst t =>
      cases token with
      | symbol s => cases s <;> cases isConst <;> rfl
      | _ => cases isConst <;> rfl
  | typed form => exact ofNameToken?_mapNames f form token
  | complete arg => rfl

end ArgumentPhase

namespace SlotPhase

theorem step?_mapNames (phase : SlotPhase) (token : Token) :
    (phase.mapNames f).step? (token.mapNames f) =
      (phase.step? token).map (SlotPhase.mapNames f) := by
  cases phase with
  | start => cases token <;> rfl
  | namespaceName outer last =>
      cases token with
      | symbol s => cases s <;> simp [step?, mapNames, Token.mapNames]
      | _ => rfl
  | «scoped» namespaces => cases token <;> rfl
  | classType q =>
      cases token with
      | symbol s => cases s <;> rfl
      | _ => rfl
  | complete slot => rfl

theorem slot?_mapNames (phase : SlotPhase) :
    (phase.mapNames f).slot? = phase.slot?.map (SlotForm.mapNames f) := by
  cases phase <;> rfl

end SlotPhase

namespace ReturnPhase

theorem step?_mapNames (phase : ReturnPhase) (token : Token) :
    (phase.mapNames f).step? (token.mapNames f) =
      (phase.step? token).map (ReturnPhase.mapNames f) := by
  -- Away from the marks of a pair, a step is one of the slot that is being read.
  have inSlot (around aroundMapped : SlotPhase → ReturnPhase)
      (commutes : ∀ slot, (around slot).mapNames f = aroundMapped (slot.mapNames f))
      (slot : SlotPhase) : ((slot.mapNames f).step? (token.mapNames f)).map aroundMapped =
        ((slot.step? token).map around).map (ReturnPhase.mapNames f) := by
    rw [SlotPhase.step?_mapNames]
    cases slot.step? token with
    | none => rfl
    | some next => exact congrArg some (commutes next).symm
  cases phase with
  | start =>
      cases token with
      | keyword word => cases word <;> rfl
      | _ => exact inSlot .single .single (fun _ => rfl) .start
  | single slot => exact inSlot .single .single (fun _ => rfl) slot
  | pairWord =>
      cases token with
      | symbol s => cases s <;> rfl
      | _ => rfl
  | pairFirst slot =>
      cases token with
      | symbol s =>
          cases s with
          | comma =>
              have commutes := slot.slot?_mapNames f
              simp only [mapNames, step?, Token.mapNames, commutes]
              cases slot.slot? <;> rfl
          | _ => exact inSlot .pairFirst .pairFirst (fun _ => rfl) slot
      | _ => exact inSlot .pairFirst .pairFirst (fun _ => rfl) slot
  | pairSecond first slot =>
      cases token with
      | symbol s =>
          cases s with
          | closeAngle =>
              have commutes := slot.slot?_mapNames f
              simp only [mapNames, step?, Token.mapNames, commutes]
              cases slot.slot? <;> rfl
          | _ => exact inSlot (.pairSecond first) (.pairSecond (first.mapNames f)) (fun _ => rfl) slot
      | _ => exact inSlot (.pairSecond first) (.pairSecond (first.mapNames f)) (fun _ => rfl) slot
  | complete returns => rfl

theorem returns?_mapNames (phase : ReturnPhase) :
    (phase.mapNames f).returns? = phase.returns?.map (ReturnForm.mapNames f) := by
  cases phase with
  | single slot =>
      simp only [mapNames, returns?, SlotPhase.slot?_mapNames]
      cases slot.slot? <;> rfl
  | _ => rfl

theorem bareClass?_mapNames (phase : ReturnPhase) :
    (phase.mapNames f).bareClass? = phase.bareClass?.map f := by
  cases phase with
  | single slot =>
      cases slot with
      | classType q =>
          obtain ⟨namespaces, name⟩ := q
          cases namespaces <;> rfl
      | _ => rfl
  | _ => rfl

end ReturnPhase

namespace MemberPhase

theorem headOfName?_mapNames (isStatic : Bool) (returns : ReturnForm) (token : Token) :
    headOfName? isStatic (returns.mapNames f) (token.mapNames f) =
      (headOfName? isStatic returns token).map (MemberHead.mapNames f) := by
  cases isStatic <;> cases token <;> rfl

theorem stepReturning?_mapNames (isStatic : Bool) (returns : ReturnPhase) (token : Token) :
    stepReturning? isStatic (returns.mapNames f) (token.mapNames f) =
      (stepReturning? isStatic returns token).map (MemberPhase.mapNames f) := by
  have named : (((returns.mapNames f).returns?.bind fun form =>
        headOfName? isStatic form (token.mapNames f)).map MemberPhase.headed) =
      ((returns.returns?.bind fun form => headOfName? isStatic form token).map
        MemberPhase.headed).map (MemberPhase.mapNames f) := by
    rw [ReturnPhase.returns?_mapNames]
    cases returns.returns? with
    | none => rfl
    | some form =>
        simp only [Option.map_some, Option.bind_some, headOfName?_mapNames]
        cases headOfName? isStatic form token <;> rfl
  simp only [stepReturning?, ReturnPhase.step?_mapNames]
  cases returns.step? token with
  | some more => rfl
  | none =>
      cases token with
      | symbol s =>
          cases s with
          | openParen =>
              cases isStatic with
              | true => rfl
              | false =>
                  simp only [Option.map_none, Token.mapNames, ReturnPhase.bareClass?_mapNames]
                  cases returns.bareClass? <;> rfl
          | _ => exact named
      | _ => exact named

theorem stepArguments?_mapNames (head : MemberHead) (before : List ArgumentDecl)
    (phase : ArgumentPhase) (token : Token) :
    stepArguments? (head.mapNames f) (before.map (ArgumentDecl.mapNames f)) (phase.mapNames f)
        (token.mapNames f) =
      (stepArguments? head before phase token).map (MemberPhase.mapNames f) := by
  have inside : (((phase.mapNames f).step? (token.mapNames f)).map
        (MemberPhase.arguments (head.mapNames f) (before.map (ArgumentDecl.mapNames f)))) =
      ((phase.step? token).map (MemberPhase.arguments head before)).map
        (MemberPhase.mapNames f) := by
    rw [ArgumentPhase.step?_mapNames]
    cases phase.step? token <;> rfl
  cases phase with
  | opened =>
      cases token with
      | symbol s =>
          cases s with
          | closeParen => rfl
          | _ => exact inside
      | _ => exact inside
  | complete arg =>
      cases token with
      | symbol s =>
          cases s with
          | closeParen | comma =>
              simp [stepArguments?, ArgumentPhase.mapNames, Token.mapNames, mapNames]
          | _ => exact inside
      | _ => exact inside
  | _ => exact inside

theorem step?_mapNames (phase : MemberPhase) (token : Token) :
    (phase.mapNames f).step? (token.mapNames f) =
      (phase.step? token).map (Sum.map (MemberPhase.mapNames f) (MemberDecl.mapNames f)) := by
  have returning (isStatic : Bool) (returns : ReturnPhase) :
      (stepReturning? isStatic (returns.mapNames f) (token.mapNames f)).map Sum.inl =
        ((stepReturning? isStatic returns token).map Sum.inl).map
          (Sum.map (MemberPhase.mapNames f) (MemberDecl.mapNames f)) := by
    rw [stepReturning?_mapNames]
    cases stepReturning? isStatic returns token <;> rfl
  cases phase with
  | start =>
      cases token with
      | keyword word =>
          cases word with
          | staticWord => rfl
          | _ => exact returning false .start
      | includePath path => rfl
      | _ => exact returning false .start
  | returning isStatic returns => exact returning isStatic returns
  | headed head =>
      cases token with
      | symbol s => cases s <;> rfl
      | _ => rfl
  | arguments head before phase =>
      simp only [mapNames, step?, stepArguments?_mapNames]
      cases stepArguments? head before phase token <;> rfl
  | closed head args =>
      cases token with
      | keyword word => cases head <;> cases word <;> rfl
      | symbol s => cases head <;> cases s <;> rfl
      | _ => cases head <;> rfl
  | constMarked returns name args =>
      cases token with
      | symbol s => cases s <;> rfl
      | _ => rfl

end MemberPhase

namespace ReadingState

theorem stepBetween?_mapNames (enclosing : List OpenNamespace) (before : Declarations)
    (token : Token) :
    stepBetween? (enclosing.map (OpenNamespace.mapNames f)) (before.mapNames f)
        (token.mapNames f) =
      (stepBetween? enclosing before token).map (ReadingState.mapNames f) := by
  cases token with
  | keyword word => cases word <;> rfl
  | symbol s =>
      cases s with
      | endNamespace => cases enclosing <;> rfl
      | _ => rfl
  | _ => rfl

/-- What a step of a member comes to for the class around it. -/
def placeOfStep (name : String) (members : List MemberDecl) :
    MemberPhase ⊕ MemberDecl → Place ⊕ ClassDecl
  | .inl more => .inl (.inClass name members more)
  | .inr member => .inl (.inClass name (members ++ [member]) .start)

theorem stepInClass?_of_not_end (name : String) (members : List MemberDecl) {phase : MemberPhase}
    {token : Token} (notEnd : ¬ (phase = .start ∧ token = .symbol .endClass)) :
    stepInClass? name members phase token = (phase.step? token).map (placeOfStep name members) := by
  unfold stepInClass?
  split
  · exact absurd ⟨rfl, rfl⟩ notEnd
  · rfl

theorem stepInClass?_mapNames (name : String) (members : List MemberDecl) (phase : MemberPhase)
    (token : Token) :
    stepInClass? (f name) (members.map (MemberDecl.mapNames f)) (phase.mapNames f)
        (token.mapNames f) =
      (stepInClass? name members phase token).map
        (Sum.map (Place.mapNames f) (ClassDecl.mapNames f)) := by
  by_cases atEnd : phase = .start ∧ token = .symbol .endClass
  · obtain ⟨rfl, rfl⟩ := atEnd
    rfl
  · have notEnd : ¬ (phase.mapNames f = .start ∧ token.mapNames f = .symbol .endClass) := by
      intro h
      refine atEnd ⟨?_, ?_⟩
      · cases phase <;> first | rfl | cases h.1
      · cases token <;> first | exact h.2 | cases h.2
    rw [stepInClass?_of_not_end _ _ notEnd, stepInClass?_of_not_end _ _ atEnd,
      MemberPhase.step?_mapNames]
    cases phase.step? token with
    | none => rfl
    | some result =>
        cases result with
        | inl more => rfl
        | inr member => simp [placeOfStep, Place.mapNames, MemberPhase.mapNames]

/-- A step over the replaced token is the step over the original one, with the names replaced. -/
theorem step?_mapNames (state : ReadingState) (token : Token) :
    (state.mapNames f).step? (token.mapNames f) =
      (state.step? token).map (ReadingState.mapNames f) := by
  obtain ⟨enclosing, before, place⟩ := state
  cases place with
  | between => exact stepBetween?_mapNames f enclosing before token
  | ended name body =>
      have unnamed := stepBetween?_mapNames f enclosing (.withNamespace before name body none) token
      cases token with
      | lower closing => rfl
      | _ => exact unnamed
  | namespaceWord => cases token <;> rfl
  | namespaceName name =>
      cases token with
      | symbol s => cases s <;> rfl
      | _ => rfl
  | classWord => cases token <;> rfl
  | className name =>
      cases token with
      | symbol s => cases s <;> rfl
      | _ => rfl
  | inClass name members phase =>
      simp only [mapNames, Place.mapNames, step?, stepInClass?_mapNames]
      cases stepInClass? name members phase token with
      | none => rfl
      | some result => cases result <;> rfl

/-! ## A whole run -/

theorem run_mapNames (state : ReadingState) (tokens : List Token) :
    (state.mapNames f).run (tokens.map (Token.mapNames f)) =
      (state.run tokens).map (ReadingState.mapNames f) := by
  induction tokens generalizing state with
  | nil => rfl
  | cons token tokens ih =>
      rw [List.map_cons, run, run, step?_mapNames]
      cases state.step? token with
      | none => rfl
      | some next =>
          simp only [Option.map_some, ih]
          cases next.run tokens <;> rfl

theorem declarations?_mapNames (state : ReadingState) :
    (state.mapNames f).declarations? = state.declarations?.map (Declarations.mapNames f) := by
  obtain ⟨enclosing, before, place⟩ := state
  cases enclosing <;> cases place <;> rfl

end ReadingState

namespace Declarations

/-- Tokens with replaced names are read as declarations with replaced names, or they are refused at
the same number. -/
theorem ofTokens_mapNames (tokens : List Token) :
    ofTokens (tokens.map (Token.mapNames f)) = (ofTokens tokens).map (Declarations.mapNames f) := by
  have ran := ReadingState.start.run_mapNames f tokens
  have start : ReadingState.start.mapNames f = ReadingState.start := rfl
  rw [start] at ran
  rw [ofTokens, ofTokens, ran, List.length_map]
  cases ReadingState.start.run tokens with
  | error i => rfl
  | ok state =>
      simp only [Except.map, ReadingState.declarations?_mapNames]
      cases state.declarations? <;> rfl

theorem tokens_mapNames (decls : Declarations) :
    (decls.mapNames f).tokens = decls.tokens.map (Token.mapNames f) := by
  have read := ofTokens_mapNames f decls.tokens
  rw [ofTokens_tokens] at read
  exact tokens_of_ofTokens read

end Declarations

end MexGlue
