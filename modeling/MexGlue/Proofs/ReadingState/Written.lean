import MexGlue.Proofs.ReadingState.Settled

/-!
# Reading what is written

The tokens of declarations are read as these declarations. Each kind of phase is followed over the
tokens of one whole part; a step of an inner phase is a step of the phase around it, so a run over a
part is lifted from the phase that reads it to the reader.
-/

namespace MexGlue

/-- If every step is one of the outer reader, so is a run over many tokens. -/
theorem foldlM_lift {inner outer : Type} {f : inner → Token → Option inner}
    {g : outer → Token → Option outer} (lift : inner → outer)
    (step : ∀ s token s', f s token = some s' → g (lift s) token = some (lift s'))
    {tokens : List Token} {s final : inner} (h : tokens.foldlM f s = some final) :
    tokens.foldlM g (lift s) = some (lift final) := by
  induction tokens generalizing s with
  | nil =>
      cases h
      rfl
  | cons token tokens ih =>
      rw [List.foldlM_cons] at h ⊢
      obtain ⟨s', stepped, rest⟩ := Option.bind_eq_some_iff.mp h
      rw [step s token s' stepped]
      exact ih rest

/-- The same from a state of the outer reader that none of the inner one is lifted to. -/
theorem foldlM_lift_first {inner outer : Type} {f : inner → Token → Option inner}
    {g : outer → Token → Option outer} (lift : inner → outer) {s : inner} {initial : outer}
    (first : ∀ token s', f s token = some s' → g initial token = some (lift s'))
    (step : ∀ s token s', f s token = some s' → g (lift s) token = some (lift s'))
    {tokens : List Token} {final : inner} (nonempty : tokens ≠ [])
    (h : tokens.foldlM f s = some final) : tokens.foldlM g initial = some (lift final) := by
  cases tokens with
  | nil => exact absurd rfl nonempty
  | cons token tokens =>
      rw [List.foldlM_cons] at h ⊢
      obtain ⟨s', stepped, rest⟩ := Option.bind_eq_some_iff.mp h
      rw [first token s' stepped]
      exact foldlM_lift lift step rest

theorem foldlM_append_of_eq {σ : Type} {f : σ → Token → Option σ} {s middle : σ}
    {front : List Token} (h : front.foldlM f s = some middle) (back : List Token) :
    (front ++ back).foldlM f s = back.foldlM f middle := by
  rw [List.foldlM_append, h]
  rfl

theorem foldlM_cons_of_eq {σ : Type} {f : σ → Token → Option σ} {s middle : σ} {token : Token}
    (h : f s token = some middle) (back : List Token) :
    (token :: back).foldlM f s = back.foldlM f middle := by
  rw [List.foldlM_cons, h]
  rfl

@[simp] theorem Identifier.ofToken?_token (name : Identifier) :
    ofToken? name.token = some name := by
  cases name <;> rfl

/-! ## Arguments -/

namespace ArgumentPhase

theorem foldlM_scoped (isConst : Bool) (outer namespaces : List String) (name : String) :
    (scopeTokens namespaces ++ [Token.upper name]).foldlM step? (.scoped isConst outer) =
      some (.classType isConst ⟨outer ++ namespaces, name⟩) := by
  induction namespaces generalizing outer with
  | nil => simp [step?]
  | cons first namespaces ih =>
      have rest := ih (outer ++ [first])
      rw [List.append_assoc] at rest
      exact rest

/-- A phase that may take a type's first token reads a whole qualified name. -/
theorem foldlM_qualifiedName {phase : ArgumentPhase} {isConst : Bool}
    (first : ∀ token : Token, (∃ name, token = .lower name ∨ token = .upper name) →
      phase.step? token = ofTypeToken? isConst token) (type : QualifiedName) :
    type.tokens.foldlM step? phase = some (.classType isConst type) := by
  obtain ⟨namespaces, name⟩ := type
  cases namespaces with
  | nil =>
      have stepped := first (.upper name) ⟨name, .inr rfl⟩
      rw [QualifiedName.tokens, scopeTokens_nil, List.nil_append, List.foldlM_cons, stepped]
      rfl
  | cons outermost namespaces =>
      have stepped := first (.lower outermost) ⟨outermost, .inl rfl⟩
      change (Token.lower outermost :: .symbol .scope ::
        (scopeTokens namespaces ++ [.upper name])).foldlM step? phase = _
      rw [List.foldlM_cons, stepped]
      exact foldlM_scoped isConst [outermost] namespaces name

/-- A qualified name behind a mark that may be left out. -/
theorem foldlM_marked {phase : ArgumentPhase} (first : phase.step? = ofFirstToken?)
    (isConst : Bool) (type : QualifiedName) :
    (optionalToken isConst (.keyword .constWord) ++ type.tokens).foldlM step? phase =
      some (.classType isConst type) := by
  cases isConst with
  | false =>
      refine foldlM_qualifiedName ?_ type
      intro token starts
      rw [first]
      rcases starts with ⟨name, rfl | rfl⟩ <;> rfl
  | true =>
      change (Token.keyword .constWord :: type.tokens).foldlM step? phase = _
      rw [List.foldlM_cons, first]
      have goesOn (token : Token) (_ : ∃ name, token = .lower name ∨ token = .upper name) :
          constMarked.step? token = ofTypeToken? true token := rfl
      exact foldlM_qualifiedName goesOn type

theorem foldlM_form {phase : ArgumentPhase} (first : phase.step? = ofFirstToken?)
    (form : ArgumentForm) (name : Identifier) :
    (form.tokens ++ [name.token]).foldlM step? phase = some (.complete ⟨form, name⟩) := by
  cases form with
  | basis type =>
      change (Token.basis type :: [name.token]).foldlM step? phase = _
      rw [List.foldlM_cons, first]
      simp [ofFirstToken?, step?, ofNameToken?]
  | container type =>
      change (Token.container type :: [name.token]).foldlM step? phase = _
      rw [List.foldlM_cons, first]
      cases name <;> simp [ofFirstToken?, ofTypeToken?, step?, ofNameToken?, Identifier.token,
        Identifier.ofToken?]
  | containerPointer type =>
      change (Token.container type :: [.symbol .star, name.token]).foldlM step? phase = _
      rw [List.foldlM_cons, first]
      simp [ofFirstToken?, ofTypeToken?, step?, ofNameToken?]
  | containerReference isConst type =>
      cases isConst with
      | false =>
          change (Token.container type :: [.symbol .ampersand, name.token]).foldlM step? phase = _
          rw [List.foldlM_cons, first]
          simp [ofFirstToken?, ofTypeToken?, step?, ofNameToken?]
      | true =>
          change (Token.keyword .constWord ::
            [.container type, .symbol .ampersand, name.token]).foldlM step? phase = _
          rw [List.foldlM_cons, first]
          simp [ofFirstToken?, ofTypeToken?, step?, ofNameToken?]
  | classReference isConst type =>
      rw [ArgumentForm.tokens, List.append_assoc _ [_] [_],
        foldlM_append_of_eq (foldlM_marked first isConst type)]
      simp [step?, ofNameToken?]
  | classPointer type =>
      rw [ArgumentForm.tokens, List.append_assoc _ [_] [_]]
      have named := foldlM_marked first false type
      rw [optionalToken_false, List.nil_append] at named
      rw [foldlM_append_of_eq named]
      simp [step?, ofNameToken?]

end ArgumentPhase

/-! ## Return types -/

theorem SlotForm.tokens_ne_nil (slot : SlotForm) : slot.tokens ≠ [] := by
  cases slot <;> simp [tokens, QualifiedName.tokens]

theorem ReturnForm.tokens_ne_nil (returns : ReturnForm) : returns.tokens ≠ [] := by
  cases returns with
  | single slot => exact slot.tokens_ne_nil
  | _ => simp [tokens]

namespace SlotPhase

theorem foldlM_scoped (outer namespaces : List String) (name : String) :
    (scopeTokens namespaces ++ [Token.upper name]).foldlM step? (.scoped outer) =
      some (.classType ⟨outer ++ namespaces, name⟩) := by
  induction namespaces generalizing outer with
  | nil => simp [step?]
  | cons first namespaces ih =>
      have rest := ih (outer ++ [first])
      rw [List.append_assoc] at rest
      exact rest

theorem foldlM_qualifiedName (type : QualifiedName) :
    type.tokens.foldlM step? .start = some (.classType type) := by
  obtain ⟨namespaces, name⟩ := type
  cases namespaces with
  | nil => rfl
  | cons outermost namespaces => exact foldlM_scoped [outermost] namespaces name

/-- A slot is read up to where it may stand alone. -/
theorem foldlM_slot (slot : SlotForm) :
    ∃ phase, slot.tokens.foldlM step? .start = some phase ∧ phase.slot? = some slot := by
  cases slot with
  | basis type => exact ⟨.complete (.basis type), rfl, rfl⟩
  | container type => exact ⟨.complete (.container type), rfl, rfl⟩
  | classType type isPointer =>
      rw [SlotForm.tokens, foldlM_append_of_eq (foldlM_qualifiedName type)]
      cases isPointer with
      | false => exact ⟨.classType type, rfl, rfl⟩
      | true => exact ⟨.complete (.classType type true), rfl, rfl⟩

end SlotPhase

namespace ReturnPhase

theorem step?_start_of_slot (token : Token) (slot : SlotPhase)
    (h : SlotPhase.start.step? token = some slot) : start.step? token = some (.single slot) := by
  simp only [step?]
  split
  · cases h
  · cases h
  · rw [h]
    rfl

theorem step?_pairFirst_of_slot (slot : SlotPhase) (token : Token) (longer : SlotPhase)
    (h : slot.step? token = some longer) :
    (pairFirst slot).step? token = some (.pairFirst longer) := by
  simp only [step?]
  split
  · cases slot <;> cases h
  · rw [h]
    rfl

theorem step?_pairSecond_of_slot (first : SlotForm) (slot : SlotPhase) (token : Token)
    (longer : SlotPhase) (h : slot.step? token = some longer) :
    (pairSecond first slot).step? token = some (.pairSecond first longer) := by
  simp only [step?]
  split
  · cases slot <;> cases h
  · rw [h]
    rfl

theorem step?_single_of_slot (slot : SlotPhase) (token : Token) (longer : SlotPhase)
    (h : slot.step? token = some longer) :
    (single slot).step? token = some (.single longer) := by
  rw [step?, h]
  rfl

/-- A return type is read up to where it may stand alone. -/
theorem foldlM_returns (returns : ReturnForm) :
    ∃ phase, returns.tokens.foldlM step? .start = some phase ∧
      phase.returns? = some returns := by
  cases returns with
  | void => exact ⟨.complete .void, rfl, rfl⟩
  | single slot =>
      obtain ⟨phase, ran, settled⟩ := SlotPhase.foldlM_slot slot
      have lifted := foldlM_lift_first ReturnPhase.single step?_start_of_slot step?_single_of_slot
        slot.tokens_ne_nil ran
      exact ⟨.single phase, lifted, by simp [returns?, settled]⟩
  | pair first second =>
      obtain ⟨firstPhase, firstRan, firstSettled⟩ := SlotPhase.foldlM_slot first
      obtain ⟨secondPhase, secondRan, secondSettled⟩ := SlotPhase.foldlM_slot second
      refine ⟨.complete (.pair first second), ?_, rfl⟩
      have firstLifted := foldlM_lift pairFirst step?_pairFirst_of_slot firstRan
      have secondLifted := foldlM_lift (pairSecond first) (step?_pairSecond_of_slot first) secondRan
      have comma : (pairFirst firstPhase).step? (.symbol .comma) =
          some (.pairSecond first .start) := by simp [step?, firstSettled]
      have close : (pairSecond first secondPhase).step? (.symbol .closeAngle) =
          some (.complete (.pair first second)) := by simp [step?, secondSettled]
      have opened : [Token.keyword .pairWord, .symbol .openAngle].foldlM step? .start =
          some (.pairFirst .start) := rfl
      simp only [ReturnForm.tokens, List.append_assoc]
      rw [foldlM_append_of_eq opened, foldlM_append_of_eq firstLifted, List.singleton_append,
        foldlM_cons_of_eq comma, foldlM_append_of_eq secondLifted, foldlM_cons_of_eq close]
      rfl

/-- A return type that may stand alone does not go on with a name. -/
theorem step?_name_eq_none {phase : ReturnPhase} {returns : ReturnForm}
    (h : phase.returns? = some returns) (name : Identifier) : phase.step? name.token = none := by
  cases phase with
  | single slot =>
      cases slot with
      | classType type => cases name <;> rfl
      | complete form => rfl
      | _ => cases h
  | complete form => rfl
  | _ => cases h

end ReturnPhase

/-! ## Members -/

namespace MemberPhase

/-- The phase behind one more token that does not complete the member. -/
def more? (phase : MemberPhase) (token : Token) : Option MemberPhase :=
  (phase.step? token).bind Sum.getLeft?

theorem more?_of_step? {phase longer : MemberPhase} {token : Token}
    (h : phase.step? token = some (.inl longer)) : phase.more? token = some longer := by
  simp [more?, h]

theorem step?_of_more? {phase longer : MemberPhase} {token : Token}
    (h : phase.more? token = some longer) : phase.step? token = some (.inl longer) := by
  obtain ⟨found, stepped, left⟩ := Option.bind_eq_some_iff.mp h
  cases found with
  | inl more =>
      cases left
      exact stepped
  | inr member => cases left

/-- These tokens complete the member, with the last of them and not before. -/
def Completes (phase : MemberPhase) (tokens : List Token) (member : MemberDecl) : Prop :=
  ∃ front last final, tokens = front ++ [last] ∧ front.foldlM more? phase = some final ∧
    final.step? last = some (.inr member)

theorem Completes.of_step {phase : MemberPhase} {token : Token} {member : MemberDecl}
    (h : phase.step? token = some (.inr member)) : phase.Completes [token] member :=
  ⟨[], token, phase, rfl, rfl, h⟩

theorem Completes.append {phase middle : MemberPhase} {front tokens : List Token}
    {member : MemberDecl} (h : front.foldlM more? phase = some middle)
    (rest : middle.Completes tokens member) : phase.Completes (front ++ tokens) member := by
  obtain ⟨more, last, final, rfl, ran, stepped⟩ := rest
  refine ⟨front ++ more, last, final, by simp, ?_, stepped⟩
  rw [foldlM_append_of_eq h, ran]

theorem Completes.cons {phase middle : MemberPhase} {token : Token} {tokens : List Token}
    {member : MemberDecl} (h : phase.step? token = some (.inl middle))
    (rest : middle.Completes tokens member) : phase.Completes (token :: tokens) member := by
  have first : [token].foldlM more? phase = some middle := by
    rw [foldlM_cons_of_eq (more?_of_step? h)]
    rfl
  exact Completes.append first rest

theorem more?_returning (isStatic : Bool) (returns : ReturnPhase) (token : Token)
    (longer : ReturnPhase) (h : returns.step? token = some longer) :
    (returning isStatic returns).more? token = some (.returning isStatic longer) := by
  apply more?_of_step?
  simp [step?, stepReturning?, h]

theorem more?_start (token : Token) (returns : ReturnPhase)
    (h : ReturnPhase.start.step? token = some returns) :
    start.more? token = some (.returning false returns) := by
  apply more?_of_step?
  simp only [step?]
  split
  · cases h
  · cases h
  · simp [stepReturning?, h]

theorem more?_arguments (head : MemberHead) (before : List ArgumentDecl) (phase : ArgumentPhase)
    (token : Token) (longer : ArgumentPhase) (h : phase.step? token = some longer) :
    (arguments head before phase).more? token = some (.arguments head before longer) := by
  apply more?_of_step?
  simp only [step?, stepArguments?]
  split
  · cases h
  · cases h
  · cases h
  · rw [h]
    rfl

theorem foldlM_argument (head : MemberHead) (before : List ArgumentDecl) {phase : ArgumentPhase}
    (first : phase.step? = ArgumentPhase.ofFirstToken?) (arg : ArgumentDecl) :
    arg.tokens.foldlM more? (.arguments head before phase) =
      some (.arguments head before (.complete arg)) :=
  foldlM_lift (arguments head before) (more?_arguments head before)
    (ArgumentPhase.foldlM_form first arg.form arg.name)

theorem foldlM_following (head : MemberHead) (before args : List ArgumentDecl)
    (arg : ArgumentDecl) :
    (followingTokens args ++ [Token.symbol .closeParen]).foldlM more?
        (.arguments head before (.complete arg)) = some (.closed head (before ++ arg :: args)) := by
  induction args generalizing before arg with
  | nil => rfl
  | cons second args ih =>
      have first : ArgumentPhase.next.step? = ArgumentPhase.ofFirstToken? := rfl
      have read := foldlM_argument head (before ++ [arg]) first second
      have rest := ih (before ++ [arg]) second
      change (Token.symbol .comma :: (second.tokens ++ followingTokens args) ++ _).foldlM _ _ = _
      rw [List.cons_append, List.append_assoc]
      change (second.tokens ++ _).foldlM more? (.arguments head (before ++ [arg]) .next) = _
      rw [foldlM_append_of_eq read, rest]
      simp

/-- An argument list is read from behind its opening parenthesis to its closing one. -/
theorem foldlM_arguments (head : MemberHead) (args : List ArgumentDecl) :
    (argumentTokens args ++ [Token.symbol .closeParen]).foldlM more?
        (.arguments head [] .opened) = some (.closed head args) := by
  cases args with
  | nil => rfl
  | cons arg args =>
      have first : ArgumentPhase.opened.step? = ArgumentPhase.ofFirstToken? := rfl
      have read := foldlM_argument head [] first arg
      rw [argumentTokens, List.append_assoc, foldlM_append_of_eq read]
      exact foldlM_following head [] args arg

theorem foldlM_returns (returns : ReturnForm) :
    ∃ phase, returns.tokens.foldlM more? .start = some (.returning false phase) ∧
      phase.returns? = some returns := by
  obtain ⟨phase, ran, settled⟩ := ReturnPhase.foldlM_returns returns
  have lifted := foldlM_lift_first (returning false) more?_start (more?_returning false)
    returns.tokens_ne_nil ran
  exact ⟨phase, lifted, settled⟩

theorem more?_name {isStatic : Bool} {phase : ReturnPhase} {returns : ReturnForm}
    {name : Identifier} {head : MemberHead} (settled : phase.returns? = some returns)
    (named : headOfName? isStatic returns name.token = some head) :
    (returning isStatic phase).more? name.token = some (.headed head) := by
  apply more?_of_step?
  have stops := ReturnPhase.step?_name_eq_none settled name
  cases name <;> simp_all [step?, stepReturning?, Identifier.token]

/-- A head that has a return type is read up to its name. -/
theorem foldlM_head (head : MemberHead) :
    (head.tokens ++ [Token.symbol .openParen]).foldlM more? .start =
      some (.arguments head [] .opened) := by
  cases head with
  | constructor written => rfl
  | method returns name =>
      obtain ⟨phase, ran, settled⟩ := foldlM_returns returns
      have headed : headOfName? false returns (Identifier.lower name).token =
          some (.method returns name) := rfl
      have named : (returning false phase).more? (.lower name) =
          some (.headed (.method returns name)) := more?_name settled headed
      rw [MemberHead.tokens, List.append_assoc, foldlM_append_of_eq ran, List.singleton_append,
        foldlM_cons_of_eq named]
      rfl
  | staticMethod returns name =>
      obtain ⟨phase, ran, settled⟩ := ReturnPhase.foldlM_returns returns
      have headed : headOfName? true returns name.token = some (.staticMethod returns name) := by
        simp [headOfName?]
      have named := more?_name settled headed
      have marked : start.more? (.keyword .staticWord) = some (.returning true .start) := rfl
      rw [MemberHead.tokens, List.append_assoc, List.cons_append, foldlM_cons_of_eq marked,
        foldlM_append_of_eq (foldlM_lift (returning true) (more?_returning true) ran),
        List.singleton_append, foldlM_cons_of_eq named]
      rfl

theorem foldlM_tokensWith (head : MemberHead) (args : List ArgumentDecl) :
    (head.tokensWith args).foldlM more? .start = some (.closed head args) := by
  rw [MemberHead.tokensWith, List.append_assoc, foldlM_append_of_eq (foldlM_head head)]
  exact foldlM_arguments head args

/-- A member's tokens complete it. -/
theorem completes_tokens (member : MemberDecl) : start.Completes member.tokens member := by
  cases member with
  | includeLine path => exact .of_step rfl
  | constructor written args =>
      exact .append (foldlM_tokensWith (.constructor written) args) (.of_step rfl)
  | staticMethod returns name args =>
      exact .append (foldlM_tokensWith (.staticMethod returns name) args) (.of_step rfl)
  | method returns name args isConst =>
      rw [MemberDecl.tokens, List.append_assoc]
      refine .append (foldlM_tokensWith (.method returns name) args) ?_
      cases isConst with
      | false => exact .of_step rfl
      | true =>
          have marked : (closed (.method returns name) args).step? (.keyword .constWord) =
              some (.inl (.constMarked returns name args)) := rfl
          exact .cons marked (.of_step rfl)

end MemberPhase

/-! ## Declarations -/

namespace ReadingState

theorem run_eq_ok_iff {state final : ReadingState} {tokens : List Token} :
    state.run tokens = .ok final ↔ tokens.foldlM step? state = some final := by
  induction tokens generalizing state with
  | nil => simp [run]
  | cons token tokens ih =>
      rw [run, List.foldlM_cons]
      cases stepped : state.step? token with
      | none => simp
      | some more =>
          rw [Option.bind_eq_bind, Option.bind_some, ← ih]
          cases ran : more.run tokens <;> simp [ran]

variable {enclosing : List OpenNamespace} {before : Declarations} {name : String}
  {members : List MemberDecl}

theorem step?_inClass {phase longer : MemberPhase} {token : Token}
    (h : phase.step? token = some (.inl longer)) :
    step? ⟨enclosing, before, .inClass name members phase⟩ token =
      some ⟨enclosing, before, .inClass name members longer⟩ := by
  simp only [step?, stepInClass?]
  split
  · cases h
  · rw [h]
    rfl

theorem step?_inClass_of_member {phase : MemberPhase} {token : Token} {member : MemberDecl}
    (h : phase.step? token = some (.inr member)) :
    step? ⟨enclosing, before, .inClass name members phase⟩ token =
      some ⟨enclosing, before, .inClass name (members ++ [member]) .start⟩ := by
  simp only [step?, stepInClass?]
  split
  · cases h
  · rw [h]
    rfl

theorem foldlM_completes {phase : MemberPhase} {tokens : List Token} {member : MemberDecl}
    (h : phase.Completes tokens member) :
    tokens.foldlM step? ⟨enclosing, before, .inClass name members phase⟩ =
      some ⟨enclosing, before, .inClass name (members ++ [member]) .start⟩ := by
  obtain ⟨front, last, final, rfl, ran, stepped⟩ := h
  have lifted := foldlM_lift
    (fun phase => (⟨enclosing, before, .inClass name members phase⟩ : ReadingState))
    (fun _ _ _ more => step?_inClass (MemberPhase.step?_of_more? more)) ran
  rw [foldlM_append_of_eq lifted, foldlM_cons_of_eq (step?_inClass_of_member stepped)]
  rfl

theorem foldlM_members (more : List MemberDecl) :
    (more.flatMap MemberDecl.tokens).foldlM step?
        ⟨enclosing, before, .inClass name members .start⟩ =
      some ⟨enclosing, before, .inClass name (members ++ more) .start⟩ := by
  induction more generalizing members with
  | nil => simp
  | cons member more ih =>
      have completes := MemberPhase.completes_tokens member
      rw [List.flatMap_cons, foldlM_append_of_eq (foldlM_completes completes), ih]
      simp

/-- The state of a reader that has just read these declarations of the innermost namespace. A
namespace closed without a name may still be given one. -/
def behind (enclosing : List OpenNamespace) : Declarations → ReadingState
  | .withNamespace before name body none => ⟨enclosing, before, .ended name body⟩
  | decls => ⟨enclosing, decls, .between⟩

theorem step?_behind (decls : Declarations) {token : Token}
    (notName : ∀ name, token ≠ .lower name) :
    (behind enclosing decls).step? token = stepBetween? enclosing decls token := by
  unfold behind
  split
  · cases token with
    | lower name => exact absurd rfl (notName name)
    | _ => rfl
  · rfl

theorem declarations?_behind (decls : Declarations) :
    (behind [] decls).declarations? = some decls := by
  unfold behind
  split <;> rfl

/-- Declarations are read from the front of a namespace to behind the last of them. -/
theorem foldlM_declarations (enclosing : List OpenNamespace) (decls : Declarations) :
    decls.tokens.foldlM step? ⟨enclosing, .empty, .between⟩ = some (behind enclosing decls) := by
  induction decls generalizing enclosing with
  | empty => rfl
  | withClass before decl ih =>
      have word : (behind enclosing before).step? (.keyword .classWord) =
          some ⟨enclosing, before, .classWord⟩ := step?_behind before (by simp)
      have opened : [Token.keyword .classWord, .upper decl.name, .symbol .openBrace].foldlM step?
          (behind enclosing before) = some ⟨enclosing, before, .inClass decl.name [] .start⟩ := by
        rw [foldlM_cons_of_eq word]
        rfl
      rw [Declarations.tokens, foldlM_append_of_eq (ih enclosing), ClassDecl.tokens,
        List.append_assoc, foldlM_append_of_eq opened,
        foldlM_append_of_eq (foldlM_members decl.members)]
      rfl
  | withNamespace before name body closing ihBefore ihBody =>
      have word : (behind enclosing before).step? (.keyword .namespaceWord) =
          some ⟨enclosing, before, .namespaceWord⟩ := step?_behind before (by simp)
      have opened : (namespaceOpening name).foldlM step? (behind enclosing before) =
          some ⟨⟨before, name⟩ :: enclosing, .empty, .between⟩ := by
        rw [namespaceOpening, foldlM_cons_of_eq word]
        rfl
      have ending : (behind (⟨before, name⟩ :: enclosing) body).step? (.symbol .endNamespace) =
          some ⟨enclosing, before, .ended name body⟩ := step?_behind body (by simp)
      simp only [Declarations.tokens, List.append_assoc]
      rw [foldlM_append_of_eq (ihBefore enclosing), foldlM_append_of_eq opened,
        foldlM_append_of_eq (ihBody _), namespaceEnd, foldlM_cons_of_eq ending]
      cases closing <;> rfl

end ReadingState

/-- Declarations are read from the tokens that they are written with. -/
theorem Declarations.ofTokens_tokens (decls : Declarations) :
    ofTokens decls.tokens = .ok decls := by
  have ran := ReadingState.foldlM_declarations [] decls
  rw [← ReadingState.start, ← ReadingState.run_eq_ok_iff] at ran
  simp [ofTokens, ran, ReadingState.declarations?_behind]

theorem Declarations.ofTokens_eq_ok_iff {tokens : List Token} {decls : Declarations} :
    ofTokens tokens = .ok decls ↔ decls.tokens = tokens :=
  ⟨tokens_of_ofTokens, fun h => h ▸ decls.ofTokens_tokens⟩

/-- No two different declarations are written with the same tokens. -/
theorem Declarations.tokens_injective {first second : Declarations}
    (h : first.tokens = second.tokens) : first = second := by
  have same := first.ofTokens_tokens
  rw [h, second.ofTokens_tokens] at same
  cases same
  rfl

end MexGlue
