import MexGlue.Interface.ReadingState

/-!
# What a reader has settled

Every phase of a reader determines the tokens that led to it, so nothing that was read is lost or
put in another order. A step adds its token to them, and a reader that may stop has read exactly the
tokens of the declarations that it gives back.
-/

namespace MexGlue

theorem scopeTokens_append (outer inner : List String) :
    scopeTokens (outer ++ inner) = scopeTokens outer ++ scopeTokens inner := by
  simp [scopeTokens]

@[simp] theorem scopeTokens_nil : scopeTokens [] = [] := rfl

@[simp] theorem scopeTokens_singleton (name : String) :
    scopeTokens [name] = [.lower name, .symbol .scope] := rfl

@[simp] theorem optionalToken_true (token : Token) : optionalToken true token = [token] := rfl

@[simp] theorem optionalToken_false (token : Token) : optionalToken false token = [] := rfl

theorem Identifier.token_of_ofToken? {token : Token} {name : Identifier}
    (h : Identifier.ofToken? token = some name) : name.token = token := by
  cases token <;> simp only [Identifier.ofToken?, Option.some.injEq, reduceCtorEq] at h
  all_goals subst h; rfl

/-! ## Arguments -/

namespace ArgumentPhase

def tokens : ArgumentPhase → List Token
  | .opened => []
  | .next => []
  | .constMarked => [.keyword .constWord]
  | .namespaceName isConst outer last =>
      optionalToken isConst (.keyword .constWord) ++ scopeTokens outer ++ [.lower last]
  | .scoped isConst namespaces =>
      optionalToken isConst (.keyword .constWord) ++ scopeTokens namespaces
  | .classType isConst type => optionalToken isConst (.keyword .constWord) ++ type.tokens
  | .container isConst type =>
      optionalToken isConst (.keyword .constWord) ++ [.container type]
  | .typed form => form.tokens
  | .complete arg => arg.tokens

theorem ofTypeToken?_tokens {isConst : Bool} {token : Token} {more : ArgumentPhase}
    (h : ofTypeToken? isConst token = some more) :
    more.tokens = optionalToken isConst (.keyword .constWord) ++ [token] := by
  cases token <;> simp only [ofTypeToken?, Option.some.injEq, reduceCtorEq] at h
  all_goals subst h; simp [tokens, QualifiedName.tokens]

theorem ofFirstToken?_tokens {token : Token} {more : ArgumentPhase}
    (h : ofFirstToken? token = some more) : more.tokens = [token] := by
  unfold ofFirstToken? at h
  split at h
  · cases h; rfl
  · cases h; rfl
  · exact ofTypeToken?_tokens h

theorem ofNameToken?_tokens {form : ArgumentForm} {token : Token} {more : ArgumentPhase}
    (h : ofNameToken? form token = some more) : more.tokens = form.tokens ++ [token] := by
  obtain ⟨name, found, rfl⟩ := Option.map_eq_some_iff.mp h
  simp [tokens, ArgumentDecl.tokens, Identifier.token_of_ofToken? found]

theorem step?_tokens {phase more : ArgumentPhase} {token : Token}
    (h : phase.step? token = some more) : more.tokens = phase.tokens ++ [token] := by
  cases phase with
  | opened => exact ofFirstToken?_tokens h
  | next => exact ofFirstToken?_tokens h
  | constMarked => exact ofTypeToken?_tokens h
  | namespaceName isConst outer last =>
      simp only [step?] at h
      split at h <;> cases h
      simp [tokens, scopeTokens_append]
  | «scoped» isConst namespaces =>
      simp only [step?] at h
      split at h <;> cases h
      all_goals simp [tokens, QualifiedName.tokens]
  | classType isConst type =>
      simp only [step?] at h
      split at h
      · cases h
        simp [tokens, ArgumentForm.tokens]
      · obtain ⟨noMark, same⟩ := Option.ite_none_left_eq_some.mp h
        cases same
        simp [tokens, ArgumentForm.tokens, noMark]
      · cases h
  | container isConst type =>
      simp only [step?] at h
      split at h
      · cases h
        simp [tokens, ArgumentForm.tokens]
      · obtain ⟨noMark, same⟩ := Option.ite_none_left_eq_some.mp h
        cases same
        simp [tokens, ArgumentForm.tokens, noMark]
      · obtain ⟨noMark, named⟩ := Option.ite_none_left_eq_some.mp h
        simpa [tokens, ArgumentForm.tokens, noMark] using ofNameToken?_tokens named
  | typed form => exact ofNameToken?_tokens h
  | complete arg => cases h

end ArgumentPhase

/-! ## Return types -/

namespace SlotPhase

def tokens : SlotPhase → List Token
  | .start => []
  | .namespaceName outer last => scopeTokens outer ++ [.lower last]
  | .scoped namespaces => scopeTokens namespaces
  | .classType type => type.tokens
  | .complete slot => slot.tokens

theorem step?_tokens {phase more : SlotPhase} {token : Token}
    (h : phase.step? token = some more) : more.tokens = phase.tokens ++ [token] := by
  cases phase <;> simp only [step?] at h
  all_goals
    try split at h
    all_goals cases h
    all_goals
      simp [tokens, SlotForm.tokens, QualifiedName.tokens, scopeTokens_append]

theorem tokens_of_slot? {phase : SlotPhase} {slot : SlotForm} (h : phase.slot? = some slot) :
    slot.tokens = phase.tokens := by
  cases phase <;> simp only [slot?, Option.some.injEq, reduceCtorEq] at h
  all_goals subst h; simp [tokens, SlotForm.tokens]

end SlotPhase

namespace ReturnPhase

def tokens : ReturnPhase → List Token
  | .start => []
  | .single slot => slot.tokens
  | .pairWord => [.keyword .pairWord]
  | .pairFirst slot => [.keyword .pairWord, .symbol .openAngle] ++ slot.tokens
  | .pairSecond first slot =>
      [.keyword .pairWord, .symbol .openAngle] ++ first.tokens ++ [.symbol .comma] ++ slot.tokens
  | .complete returns => returns.tokens

theorem step?_tokens {phase more : ReturnPhase} {token : Token}
    (h : phase.step? token = some more) : more.tokens = phase.tokens ++ [token] := by
  cases phase with
  | start =>
      simp only [step?] at h
      split at h
      · cases h; rfl
      · cases h; rfl
      · obtain ⟨slot, stepped, rfl⟩ := Option.map_eq_some_iff.mp h
        exact SlotPhase.step?_tokens stepped
  | single slot =>
      obtain ⟨slotMore, stepped, rfl⟩ := Option.map_eq_some_iff.mp h
      exact SlotPhase.step?_tokens stepped
  | pairWord =>
      simp only [step?] at h
      split at h <;> cases h
      rfl
  | pairFirst slot =>
      simp only [step?] at h
      split at h
      · obtain ⟨first, found, rfl⟩ := Option.map_eq_some_iff.mp h
        simp [tokens, SlotPhase.tokens_of_slot? found, SlotPhase.tokens]
      · obtain ⟨slotMore, stepped, rfl⟩ := Option.map_eq_some_iff.mp h
        simp [tokens, SlotPhase.step?_tokens stepped]
  | pairSecond first slot =>
      simp only [step?] at h
      split at h
      · obtain ⟨second, found, rfl⟩ := Option.map_eq_some_iff.mp h
        simp [tokens, ReturnForm.tokens, SlotPhase.tokens_of_slot? found]
      · obtain ⟨slotMore, stepped, rfl⟩ := Option.map_eq_some_iff.mp h
        simp [tokens, SlotPhase.step?_tokens stepped]
  | complete returns => cases h

theorem tokens_of_returns? {phase : ReturnPhase} {returns : ReturnForm}
    (h : phase.returns? = some returns) : returns.tokens = phase.tokens := by
  cases phase <;> simp only [returns?, Option.some.injEq, reduceCtorEq] at h
  case single slot =>
    obtain ⟨form, found, rfl⟩ := Option.map_eq_some_iff.mp h
    exact SlotPhase.tokens_of_slot? found
  case complete form => subst h; rfl

theorem tokens_of_bareClass? {phase : ReturnPhase} {written : String}
    (h : phase.bareClass? = some written) : phase.tokens = [.upper written] := by
  unfold bareClass? at h
  split at h <;> cases h
  rfl

end ReturnPhase

/-! ## Members -/

/-- Arguments with another one to come, each with its comma behind it. -/
def openArgumentTokens : List ArgumentDecl → List Token
  | [] => []
  | args => argumentTokens args ++ [.symbol .comma]

theorem argumentTokens_append_singleton (args : List ArgumentDecl) (arg : ArgumentDecl) :
    argumentTokens (args ++ [arg]) = openArgumentTokens args ++ arg.tokens := by
  cases args <;> simp [argumentTokens, followingTokens, openArgumentTokens]

theorem openArgumentTokens_append_singleton (args : List ArgumentDecl) (arg : ArgumentDecl) :
    openArgumentTokens (args ++ [arg]) =
      openArgumentTokens args ++ arg.tokens ++ [.symbol .comma] := by
  rw [← argumentTokens_append_singleton]
  cases args <;> rfl

theorem MemberHead.tokens_withArguments (head : MemberHead) (args : List ArgumentDecl) :
    (head.withArguments args).tokens = head.tokensWith args ++ [.symbol .semicolon] := by
  cases head <;> simp [withArguments, MemberDecl.tokens]

namespace MemberPhase

def tokens : MemberPhase → List Token
  | .start => []
  | .returning isStatic returns => optionalToken isStatic (.keyword .staticWord) ++ returns.tokens
  | .headed head => head.tokens
  | .arguments head before phase =>
      head.tokens ++ [.symbol .openParen] ++ openArgumentTokens before ++ phase.tokens
  | .closed head args => head.tokensWith args
  | .constMarked returns name args =>
      (MemberHead.method returns name).tokensWith args ++ [.keyword .constWord]

/-- An argument list that may close at once holds no arguments yet. -/
def Consistent : MemberPhase → Prop
  | .arguments _ before phase => phase = .opened → before = []
  | _ => True

theorem headOfName?_tokens {isStatic : Bool} {returns : ReturnForm} {token : Token}
    {head : MemberHead} (h : headOfName? isStatic returns token = some head) :
    head.tokens = optionalToken isStatic (.keyword .staticWord) ++ returns.tokens ++ [token] := by
  unfold headOfName? at h
  split at h
  · obtain ⟨name, found, rfl⟩ := Option.map_eq_some_iff.mp h
    simp [MemberHead.tokens, Identifier.token_of_ofToken? found]
  · cases h
    simp [MemberHead.tokens]
  · cases h

theorem stepReturning?_settles {isStatic : Bool} {returns : ReturnPhase} {token : Token}
    {more : MemberPhase} (h : stepReturning? isStatic returns token = some more) :
    more.Consistent ∧
      more.tokens =
        optionalToken isStatic (.keyword .staticWord) ++ returns.tokens ++ [token] := by
  unfold stepReturning? at h
  split at h
  · rename_i longer stepped
    cases h
    refine ⟨trivial, ?_⟩
    simp [tokens, ReturnPhase.step?_tokens stepped]
  · split at h
    · obtain ⟨noMark, constructs⟩ := Option.ite_none_left_eq_some.mp h
      obtain ⟨written, found, rfl⟩ := Option.map_eq_some_iff.mp constructs
      refine ⟨fun _ => rfl, ?_⟩
      simp [tokens, MemberHead.tokens, openArgumentTokens, ArgumentPhase.tokens,
        ReturnPhase.tokens_of_bareClass? found, noMark]
    · obtain ⟨head, found, rfl⟩ := Option.map_eq_some_iff.mp h
      obtain ⟨form, settled, named⟩ := Option.bind_eq_some_iff.mp found
      refine ⟨trivial, ?_⟩
      simp only [tokens]
      rw [headOfName?_tokens named, ReturnPhase.tokens_of_returns? settled]

theorem stepArguments?_settles {head : MemberHead} {before : List ArgumentDecl}
    {phase : ArgumentPhase} {token : Token} {more : MemberPhase}
    (consistent : phase = .opened → before = [])
    (h : stepArguments? head before phase token = some more) :
    more.Consistent ∧
      more.tokens = (MemberPhase.arguments head before phase).tokens ++ [token] := by
  unfold stepArguments? at h
  split at h
  · cases h
    refine ⟨trivial, ?_⟩
    simp [tokens, consistent rfl, MemberHead.tokensWith, openArgumentTokens, argumentTokens,
      ArgumentPhase.tokens]
  · cases h
    refine ⟨trivial, ?_⟩
    simp [tokens, MemberHead.tokensWith, argumentTokens_append_singleton, ArgumentPhase.tokens]
  · cases h
    refine ⟨by simp [Consistent], ?_⟩
    simp [tokens, openArgumentTokens_append_singleton, ArgumentPhase.tokens]
  · obtain ⟨longer, stepped, rfl⟩ := Option.map_eq_some_iff.mp h
    have settled := ArgumentPhase.step?_tokens stepped
    refine ⟨?_, by simp [tokens, settled]⟩
    intro opened
    simp [opened, ArgumentPhase.tokens] at settled

theorem step?_settles {phase more : MemberPhase} {token : Token} (consistent : phase.Consistent)
    (h : phase.step? token = some (.inl more)) :
    more.Consistent ∧ more.tokens = phase.tokens ++ [token] := by
  cases phase with
  | start =>
      simp only [step?] at h
      split at h
      · cases h
      · cases h
        exact ⟨trivial, rfl⟩
      · obtain ⟨longer, stepped, same⟩ := Option.map_eq_some_iff.mp h
        cases same
        exact stepReturning?_settles stepped
  | returning isStatic returns =>
      obtain ⟨longer, stepped, same⟩ := Option.map_eq_some_iff.mp h
      cases same
      exact stepReturning?_settles stepped
  | headed head =>
      simp only [step?] at h
      split at h <;> cases h
      refine ⟨fun _ => rfl, ?_⟩
      simp [tokens, openArgumentTokens, ArgumentPhase.tokens]
  | arguments head before argument =>
      obtain ⟨longer, stepped, same⟩ := Option.map_eq_some_iff.mp h
      cases same
      exact stepArguments?_settles consistent stepped
  | closed head args =>
      simp only [step?] at h
      split at h <;> cases h
      exact ⟨trivial, rfl⟩
  | constMarked returns name args =>
      simp only [step?] at h
      split at h <;> cases h

theorem step?_tokens_of_member {phase : MemberPhase} {token : Token} {member : MemberDecl}
    (h : phase.step? token = some (.inr member)) : member.tokens = phase.tokens ++ [token] := by
  cases phase with
  | start =>
      simp only [step?] at h
      split at h
      · cases h
        rfl
      · cases h
      · obtain ⟨_, _, same⟩ := Option.map_eq_some_iff.mp h
        cases same
  | returning isStatic returns =>
      obtain ⟨_, _, same⟩ := Option.map_eq_some_iff.mp h
      cases same
  | headed head =>
      simp only [step?] at h
      split at h <;> cases h
  | arguments head before argument =>
      obtain ⟨_, _, same⟩ := Option.map_eq_some_iff.mp h
      cases same
  | closed head args =>
      simp only [step?] at h
      split at h <;> cases h
      exact head.tokens_withArguments args
  | constMarked returns name args =>
      simp only [step?] at h
      split at h <;> cases h
      simp [tokens, MemberDecl.tokens]

end MemberPhase

/-! ## Declarations -/

namespace Place

def tokens : Place → List Token
  | .between => []
  | .ended name body => namespaceOpening name ++ body.tokens ++ [.symbol .endNamespace]
  | .namespaceWord => [.keyword .namespaceWord]
  | .namespaceName name => [.keyword .namespaceWord, .lower name]
  | .classWord => [.keyword .classWord]
  | .className name => [.keyword .classWord, .upper name]
  | .inClass name members phase =>
      [.keyword .classWord, .upper name, .symbol .openBrace] ++
        members.flatMap MemberDecl.tokens ++ phase.tokens

def Consistent : Place → Prop
  | .inClass _ _ phase => phase.Consistent
  | _ => True

end Place

/-- What stands in front of the innermost of these open namespaces' declarations. -/
def enclosingTokens : List OpenNamespace → List Token
  | [] => []
  | innermost :: outer =>
      enclosingTokens outer ++ innermost.before.tokens ++ namespaceOpening innermost.name

namespace ReadingState

def tokens (state : ReadingState) : List Token :=
  enclosingTokens state.enclosing ++ state.before.tokens ++ state.place.tokens

def Consistent (state : ReadingState) : Prop := state.place.Consistent

theorem consistent_start : start.Consistent := trivial

theorem stepBetween?_settles {enclosing : List OpenNamespace} {before : Declarations}
    {token : Token} {more : ReadingState} (h : stepBetween? enclosing before token = some more) :
    more.Consistent ∧ more.tokens = enclosingTokens enclosing ++ before.tokens ++ [token] := by
  unfold stepBetween? at h
  split at h
  · cases h
    exact ⟨trivial, rfl⟩
  · cases h
    exact ⟨trivial, rfl⟩
  · split at h <;> cases h
    refine ⟨trivial, ?_⟩
    simp [tokens, enclosingTokens, Place.tokens]
  · cases h

theorem stepInClass?_settles {name : String} {members : List MemberDecl} {phase : MemberPhase}
    {token : Token} {place : Place} (consistent : phase.Consistent)
    (h : stepInClass? name members phase token = some (.inl place)) :
    place.Consistent ∧
      place.tokens = (Place.inClass name members phase).tokens ++ [token] := by
  unfold stepInClass? at h
  split at h
  · cases h
  · obtain ⟨found, stepped, same⟩ := Option.map_eq_some_iff.mp h
    cases found with
    | inl more =>
        cases same
        obtain ⟨kept, settled⟩ := MemberPhase.step?_settles consistent stepped
        exact ⟨kept, by simp [Place.tokens, settled]⟩
    | inr member =>
        cases same
        have settled := MemberPhase.step?_tokens_of_member stepped
        exact ⟨trivial, by simp [Place.tokens, settled, MemberPhase.tokens]⟩

theorem stepInClass?_tokens_of_class {name : String} {members : List MemberDecl}
    {phase : MemberPhase} {token : Token} {decl : ClassDecl}
    (h : stepInClass? name members phase token = some (.inr decl)) :
    decl.tokens = (Place.inClass name members phase).tokens ++ [token] := by
  unfold stepInClass? at h
  split at h
  · cases h
    simp [ClassDecl.tokens, Place.tokens, MemberPhase.tokens]
  · obtain ⟨found, _, same⟩ := Option.map_eq_some_iff.mp h
    cases found <;> cases same

/-- A step adds its token to what the reader has settled. -/
theorem step?_settles {state more : ReadingState} {token : Token} (consistent : state.Consistent)
    (h : state.step? token = some more) :
    more.Consistent ∧ more.tokens = state.tokens ++ [token] := by
  obtain ⟨enclosing, before, place⟩ := state
  cases place with
  | between =>
      have settled := stepBetween?_settles h
      simpa [tokens, Place.tokens] using settled
  | ended name body =>
      simp only [step?] at h
      split at h
      · cases h
        refine ⟨trivial, ?_⟩
        simp [tokens, Place.tokens, Declarations.tokens, namespaceEnd]
      · have settled := stepBetween?_settles h
        simpa [tokens, Place.tokens, Declarations.tokens, namespaceEnd] using settled
  | namespaceWord =>
      simp only [step?] at h
      split at h <;> cases h
      exact ⟨trivial, by simp [tokens, Place.tokens]⟩
  | namespaceName name =>
      simp only [step?] at h
      split at h <;> cases h
      refine ⟨trivial, ?_⟩
      simp [tokens, Place.tokens, enclosingTokens, Declarations.tokens, namespaceOpening]
  | classWord =>
      simp only [step?] at h
      split at h <;> cases h
      exact ⟨trivial, by simp [tokens, Place.tokens]⟩
  | className name =>
      simp only [step?] at h
      split at h <;> cases h
      exact ⟨trivial, by simp [tokens, Place.tokens, MemberPhase.tokens]⟩
  | inClass name members phase =>
      simp only [step?] at h
      obtain ⟨found, stepped, same⟩ := Option.map_eq_some_iff.mp h
      cases found with
      | inl place =>
          cases same
          obtain ⟨kept, settled⟩ := stepInClass?_settles consistent stepped
          exact ⟨kept, by simp [tokens, settled]⟩
      | inr decl =>
          cases same
          have settled := stepInClass?_tokens_of_class stepped
          exact ⟨trivial, by simp [tokens, Place.tokens, Declarations.tokens, settled]⟩

/-- A run keeps in its state all tokens that it has taken. -/
theorem run_settles {state final : ReadingState} {tokens : List Token}
    (consistent : state.Consistent) (h : state.run tokens = .ok final) :
    final.tokens = state.tokens ++ tokens := by
  induction tokens generalizing state with
  | nil =>
      cases h
      simp
  | cons token tokens ih =>
      simp only [run] at h
      split at h
      · cases h
      · rename_i more stepped
        obtain ⟨kept, settled⟩ := step?_settles consistent stepped
        split at h <;> cases h
        rename_i ran
        rw [ih kept ran, settled, List.append_assoc, List.singleton_append]

theorem tokens_of_declarations? {state : ReadingState} {decls : Declarations}
    (h : state.declarations? = some decls) : decls.tokens = state.tokens := by
  obtain ⟨enclosing, before, place⟩ := state
  unfold declarations? at h
  split at h
  · rename_i noEnclosing isBetween
    cases h
    simp only at noEnclosing isBetween
    simp [tokens, noEnclosing, isBetween, enclosingTokens, Place.tokens]
  · rename_i noEnclosing isEnded
    cases h
    simp only at noEnclosing isEnded
    simp [tokens, noEnclosing, isEnded, enclosingTokens, Place.tokens, Declarations.tokens,
      namespaceEnd]
  · cases h

end ReadingState

/-- Tokens that are read as declarations are the tokens that these are written with. -/
theorem Declarations.tokens_of_ofTokens {tokens : List Token} {decls : Declarations}
    (h : ofTokens tokens = .ok decls) : decls.tokens = tokens := by
  unfold ofTokens at h
  split at h
  · cases h
  · rename_i state ran
    split at h <;> cases h
    rename_i stopped
    have settled := ReadingState.run_settles ReadingState.consistent_start ran
    rw [ReadingState.tokens_of_declarations? stopped, settled]
    rfl

end MexGlue
