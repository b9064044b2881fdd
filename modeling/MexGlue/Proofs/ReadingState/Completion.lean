import MexGlue.Proofs.ReadingState.Written
import MexGlue.Proofs.Tiling.Spelling

/-!
# Completing what has been read

From every state a reader can be led to the end of declarations, so tokens that it has taken are
always the beginning of some declarations. A token that it refuses cannot stand in its place in any
declarations. Together these say that a reader stops exactly behind the longest beginning of
declarations that its tokens have.
-/

namespace MexGlue

theorem isLowerName_a : IsLowerName "a" := ⟨⟨'a', [], rfl, rfl, by simp⟩, by decide⟩

theorem isUpperName_A : IsUpperName "A" := ⟨⟨'A', [], rfl, rfl, by simp⟩, by decide⟩

theorem ArgumentPhase.exists_completion (phase : ArgumentPhase) :
    ∃ suffix arg, WellFormedTokens suffix ∧ suffix.foldlM step? phase = some (.complete arg) := by
  have fromType : WellFormedTokens [.upper "A", .symbol .ampersand, .lower "a"] := by
    simp [isLowerName_a, isUpperName_A]
  have fromMark : WellFormedTokens [.symbol .ampersand, .lower "a"] := by
    simp [isLowerName_a]
  cases phase with
  | opened => exact ⟨_, _, fromType, rfl⟩
  | next => exact ⟨_, _, fromType, rfl⟩
  | constMarked => exact ⟨_, _, fromType, rfl⟩
  | namespaceName isConst outer last =>
      exact ⟨.symbol .scope :: _, _, wellFormedTokens_cons.mpr ⟨trivial, fromType⟩, rfl⟩
  | «scoped» isConst namespaces => exact ⟨_, _, fromType, rfl⟩
  | classType isConst type => exact ⟨_, _, fromMark, rfl⟩
  | container isConst type => exact ⟨_, _, fromMark, rfl⟩
  | typed form => exact ⟨[.lower "a"], _, by simp [isLowerName_a], rfl⟩
  | complete arg => exact ⟨[], arg, wellFormedTokens_nil, rfl⟩

theorem SlotPhase.exists_completion (phase : SlotPhase) :
    ∃ suffix slot final, WellFormedTokens suffix ∧ suffix.foldlM step? phase = some final ∧
      final.slot? = some slot := by
  have bare : WellFormedTokens [.upper "A"] := by simp [isUpperName_A]
  cases phase with
  | start => exact ⟨_, _, _, bare, rfl, rfl⟩
  | namespaceName outer last =>
      exact ⟨.symbol .scope :: _, _, _, wellFormedTokens_cons.mpr ⟨trivial, bare⟩, rfl, rfl⟩
  | «scoped» namespaces => exact ⟨_, _, _, bare, rfl, rfl⟩
  | classType type => exact ⟨[], _, _, wellFormedTokens_nil, rfl, rfl⟩
  | complete slot => exact ⟨[], slot, _, wellFormedTokens_nil, rfl, rfl⟩

theorem ReturnPhase.exists_completion (phase : ReturnPhase) :
    ∃ suffix returns final, WellFormedTokens suffix ∧ suffix.foldlM step? phase = some final ∧
      final.returns? = some returns := by
  have close : WellFormedTokens [.symbol .closeAngle] := by simp
  have second : WellFormedTokens [.symbol .comma, .upper "A", .symbol .closeAngle] := by
    simp [isUpperName_A]
  cases phase with
  | start => exact ⟨[.keyword .voidWord], _, _, by simp, rfl, rfl⟩
  | single slot =>
      obtain ⟨suffix, form, final, wellFormed, ran, settled⟩ := slot.exists_completion
      refine ⟨suffix, .single form, .single final, wellFormed, ?_, by simp [returns?, settled]⟩
      exact foldlM_lift single step?_single_of_slot ran
  | pairWord =>
      let slot : SlotForm := .classType ⟨[], "A"⟩ false
      refine ⟨[.symbol .openAngle, .upper "A"] ++ _, .pair slot slot,
        .complete (.pair slot slot), wellFormedTokens_append.mpr ⟨?_, second⟩, rfl, rfl⟩
      simp [isUpperName_A]
  | pairFirst slot =>
      obtain ⟨suffix, form, final, wellFormed, ran, settled⟩ := slot.exists_completion
      have comma : (pairFirst final).step? (.symbol .comma) = some (.pairSecond form .start) := by
        simp [step?, settled]
      let pair : ReturnForm := .pair form (.classType ⟨[], "A"⟩ false)
      refine ⟨suffix ++ _, pair, .complete pair,
        wellFormedTokens_append.mpr ⟨wellFormed, second⟩, ?_, rfl⟩
      rw [foldlM_append_of_eq (foldlM_lift pairFirst step?_pairFirst_of_slot ran),
        foldlM_cons_of_eq comma]
      rfl
  | pairSecond first slot =>
      obtain ⟨suffix, form, final, wellFormed, ran, settled⟩ := slot.exists_completion
      have closed : (pairSecond first final).step? (.symbol .closeAngle) =
          some (.complete (.pair first form)) := by simp [step?, settled]
      refine ⟨suffix ++ _, .pair first form, .complete (.pair first form),
        wellFormedTokens_append.mpr ⟨wellFormed, close⟩, ?_, rfl⟩
      rw [foldlM_append_of_eq (foldlM_lift (pairSecond first)
        (step?_pairSecond_of_slot first) ran), foldlM_cons_of_eq closed]
      rfl
  | complete returns => exact ⟨[], returns, _, wellFormedTokens_nil, rfl, rfl⟩

theorem MemberPhase.exists_completion (phase : MemberPhase) :
    ∃ suffix member, WellFormedTokens suffix ∧ phase.Completes suffix member := by
  have ending : WellFormedTokens [.symbol .semicolon] := by simp
  have closing : WellFormedTokens [.symbol .closeParen, .symbol .semicolon] := by simp
  have closed (head : MemberHead) (args : List ArgumentDecl) :
      (MemberPhase.closed head args).Completes [.symbol .semicolon] (head.withArguments args) := by
    cases head <;> exact .of_step rfl
  have headed (head : MemberHead) : (MemberPhase.headed head).Completes
      (.symbol .openParen :: [.symbol .closeParen, .symbol .semicolon])
      (head.withArguments []) := by
    have opens : (MemberPhase.headed head).step? (.symbol .openParen) =
        some (.inl (.arguments head [] .opened)) := rfl
    have closes : (MemberPhase.arguments head [] .opened).step? (.symbol .closeParen) =
        some (.inl (.closed head [])) := rfl
    exact .cons opens (.cons closes (closed head []))
  cases phase with
  | start => exact ⟨[.includePath ""], _, by simp, .of_step rfl⟩
  | returning isStatic returns =>
      obtain ⟨suffix, form, final, wellFormed, ran, settled⟩ := returns.exists_completion
      obtain ⟨head, named⟩ : ∃ head,
          headOfName? isStatic form (Identifier.lower "a").token = some head := by
        cases isStatic <;> exact ⟨_, rfl⟩
      have name := more?_name settled named
      refine ⟨suffix ++ (Identifier.lower "a").token :: .symbol .openParen :: _, _, ?_,
        .append (foldlM_lift (returning isStatic) (more?_returning isStatic) ran)
          (.cons (step?_of_more? name) (headed head))⟩
      simpa [wellFormed, Identifier.token] using isLowerName_a
  | headed head =>
      refine ⟨_, _, ?_, headed head⟩
      exact wellFormedTokens_cons.mpr ⟨trivial, closing⟩
  | arguments head before phase =>
      obtain ⟨suffix, arg, wellFormed, ran⟩ := phase.exists_completion
      have closes : (MemberPhase.arguments head before (.complete arg)).step?
          (.symbol .closeParen) = some (.inl (.closed head (before ++ [arg]))) := rfl
      exact ⟨suffix ++ _, _, wellFormedTokens_append.mpr ⟨wellFormed, closing⟩,
        .append (foldlM_lift (arguments head before) (more?_arguments head before) ran)
          (.cons closes (closed head _))⟩
  | closed head args => exact ⟨_, _, ending, closed head args⟩
  | constMarked returns name args => exact ⟨_, _, ending, .of_step rfl⟩

namespace ReadingState

/-- Whether a reader is between the declarations of the innermost namespace. -/
def Rests (state : ReadingState) : Prop :=
  state.place = .between ∨ ∃ name body, state.place = .ended name body

/-- A reader between declarations comes to their end by closing all open namespaces. -/
theorem exists_closing {enclosing : List OpenNamespace} {before : Declarations} {place : Place}
    (rests : Rests ⟨enclosing, before, place⟩) :
    ∃ suffix decls final, WellFormedTokens suffix ∧
      suffix.foldlM step? ⟨enclosing, before, place⟩ = some final ∧
      final.declarations? = some decls := by
  induction enclosing generalizing before place with
  | nil =>
      rcases rests with between | ⟨name, body, ended⟩
      · cases between
        exact ⟨[], _, _, wellFormedTokens_nil, rfl, rfl⟩
      · cases ended
        exact ⟨[], _, _, wellFormedTokens_nil, rfl, rfl⟩
  | cons innermost outer ih =>
      obtain ⟨body, closed⟩ : ∃ body, step? ⟨innermost :: outer, before, place⟩
          (.symbol .endNamespace) = some ⟨outer, innermost.before, .ended innermost.name body⟩ := by
        rcases rests with between | ⟨name, body, ended⟩
        · cases between
          exact ⟨_, rfl⟩
        · cases ended
          exact ⟨_, rfl⟩
      have next : Rests ⟨outer, innermost.before, .ended innermost.name body⟩ :=
        .inr ⟨innermost.name, body, rfl⟩
      obtain ⟨suffix, decls, final, wellFormed, ran, settled⟩ := ih next
      refine ⟨.symbol .endNamespace :: suffix, decls, final,
        wellFormedTokens_cons.mpr ⟨trivial, wellFormed⟩, ?_, settled⟩
      rw [foldlM_cons_of_eq closed, ran]

theorem exists_resting (state : ReadingState) :
    ∃ suffix final, WellFormedTokens suffix ∧ suffix.foldlM step? state = some final ∧
      final.Rests := by
  obtain ⟨enclosing, before, place⟩ := state
  cases place with
  | between => exact ⟨[], _, wellFormedTokens_nil, rfl, .inl rfl⟩
  | ended name body => exact ⟨[], _, wellFormedTokens_nil, rfl, .inr ⟨name, body, rfl⟩⟩
  | namespaceWord =>
      exact ⟨[.lower "a", .symbol .openBrace], _, by simp [isLowerName_a], rfl, .inl rfl⟩
  | namespaceName name =>
      exact ⟨[.symbol .openBrace], _, by simp, rfl, .inl rfl⟩
  | classWord =>
      exact ⟨[.upper "A", .symbol .openBrace, .symbol .endClass], _,
        by simp [isUpperName_A], rfl, .inl rfl⟩
  | className name =>
      exact ⟨[.symbol .openBrace, .symbol .endClass], _, by simp, rfl,
        .inl rfl⟩
  | inClass name members phase =>
      obtain ⟨suffix, member, wellFormed, completes⟩ := phase.exists_completion
      refine ⟨suffix ++ [.symbol .endClass],
        ⟨enclosing, .withClass before ⟨name, members ++ [member]⟩, .between⟩,
        by simp [wellFormed], ?_, .inl rfl⟩
      rw [foldlM_append_of_eq (foldlM_completes completes)]
      rfl

/-- From every state some tokens lead to the end of declarations. -/
theorem exists_completion (state : ReadingState) :
    ∃ suffix decls final, WellFormedTokens suffix ∧ suffix.foldlM step? state = some final ∧
      final.declarations? = some decls := by
  obtain ⟨front, middle, frontWellFormed, frontRan, rests⟩ := state.exists_resting
  obtain ⟨back, decls, final, backWellFormed, backRan, settled⟩ := exists_closing rests
  refine ⟨front ++ back, decls, final, ?_, ?_, settled⟩
  · exact wellFormedTokens_append.mpr ⟨frontWellFormed, backWellFormed⟩
  · rw [foldlM_append_of_eq frontRan, backRan]

/-- A run that fails has taken all tokens in front of the one that it refuses. -/
theorem run_eq_error {state : ReadingState} {tokens : List Token} {i : Nat}
    (h : state.run tokens = .error i) :
    ∃ middle token, (tokens.take i).foldlM step? state = some middle ∧
      tokens[i]? = some token ∧ middle.step? token = none := by
  induction tokens generalizing state i with
  | nil => cases h
  | cons token tokens ih =>
      rw [run] at h
      split at h
      · rename_i refused
        cases h
        exact ⟨state, token, rfl, rfl, refused⟩
      · rename_i more stepped
        split at h <;> cases h
        rename_i j failed
        obtain ⟨middle, refusedToken, ran, found, refused⟩ := ih failed
        refine ⟨middle, refusedToken, ?_, found, refused⟩
        rw [List.take_succ_cons, foldlM_cons_of_eq stepped, ran]

end ReadingState

namespace Declarations

theorem ofTokens_eq_ok_of_foldlM {tokens : List Token} {final : ReadingState} {decls : Declarations}
    (ran : tokens.foldlM ReadingState.step? .start = some final)
    (settled : final.declarations? = some decls) : ofTokens tokens = .ok decls := by
  rw [← ReadingState.run_eq_ok_iff] at ran
  simp [ofTokens, ran, settled]

/-- Tokens that were all taken are the beginning of some declarations. -/
theorem exists_tokens_eq_append {tokens : List Token} {state : ReadingState}
    (ran : tokens.foldlM ReadingState.step? .start = some state) :
    ∃ suffix decls, WellFormedTokens suffix ∧ Declarations.tokens decls = tokens ++ suffix := by
  obtain ⟨suffix, decls, final, wellFormed, more, settled⟩ := state.exists_completion
  have whole : (tokens ++ suffix).foldlM ReadingState.step? .start = some final := by
    rw [foldlM_append_of_eq ran, more]
  exact ⟨suffix, decls, wellFormed, tokens_of_ofTokens (ofTokens_eq_ok_of_foldlM whole settled)⟩

/-- No declarations go on with a token that a reader refuses. -/
theorem tokens_ne_of_refused {front : List Token} {token : Token} {state : ReadingState}
    (ran : front.foldlM ReadingState.step? .start = some state)
    (refused : state.step? token = none) (decls : Declarations) (back : List Token) :
    decls.tokens ≠ front ++ token :: back := by
  intro same
  have read := ReadingState.foldlM_declarations [] decls
  rw [same, ← ReadingState.start, foldlM_append_of_eq ran, List.foldlM_cons, refused] at read
  cases read

/-- The tokens in front of a number begin some declarations, and with the token of this number, if
there is one, they begin none. -/
structure StopAt (tokens : List Token) (i : Nat) : Prop where
  bound : i ≤ tokens.length
  completable : ∃ suffix decls, WellFormedTokens suffix ∧
    Declarations.tokens decls = tokens.take i ++ suffix
  refused : ∀ token, tokens[i]? = some token → ∀ decls back,
    Declarations.tokens decls ≠ tokens.take i ++ token :: back

theorem StopAt.length {tokens : List Token} (h : ∃ suffix decls, WellFormedTokens suffix ∧
    Declarations.tokens decls = tokens ++ suffix) : StopAt tokens tokens.length where
  bound := Nat.le_refl _
  completable := by
    rw [List.take_length]
    exact h
  refused := by
    intro token found
    rw [List.getElem?_eq_none (Nat.le_refl _)] at found
    cases found

/-- The number of a failure is that of the first token that no declarations have in its place, or
of the tokens, which then are the beginning of declarations without being declarations. -/
theorem ofTokens_eq_error {tokens : List Token} {i : Nat} (h : ofTokens tokens = .error i) :
    StopAt tokens i ∧ ∀ decls, Declarations.tokens decls ≠ tokens := by
  have unread : ∀ decls, Declarations.tokens decls ≠ tokens := by
    intro decls same
    rw [← same, ofTokens_tokens] at h
    cases h
  unfold ofTokens at h
  split at h
  · rename_i failed
    cases h
    obtain ⟨middle, token, ran, found, refused⟩ := ReadingState.run_eq_error failed
    have bound := (List.getElem?_eq_some_iff.mp found).choose
    refine ⟨⟨Nat.le_of_lt bound, exists_tokens_eq_append ran, ?_⟩, unread⟩
    intro other same decls back
    rw [found] at same
    cases same
    exact tokens_ne_of_refused ran refused decls back
  · rename_i state ran
    split at h <;> cases h
    rw [ReadingState.run_eq_ok_iff] at ran
    exact ⟨.length (exists_tokens_eq_append ran), unread⟩

end Declarations

end MexGlue
