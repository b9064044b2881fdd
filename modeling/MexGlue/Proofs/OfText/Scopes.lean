import MexGlue.Proofs.Grammar.Derivation
import MexGlue.Proofs.OfText.Stages
import MexGlue.Proofs.Tiling.Offset
import MexGlue.Proofs.Tiling.Spelling

/-!
# Namespaces from left to right

The namespaces around each class can be found in one pass over the tokens, with a stack of the open
ones. The classes of declarations, which are built from the inside to the outside, have the names
that this pass records, and the first closing name that it finds wrong is the one that is reported.
-/

namespace MexGlue

open Grammar

/-- One pass over tokens, the first of which has this number, with the open namespaces, innermost
first. It records each class name with the namespaces around it, outermost first, and stops at the
first closing name that is not the one it closes. -/
def scanScopes (stack : List String) (number : Nat) :
    List Token → Except WrongClosing (List (List String × String))
  | [] => .ok []
  | .keyword .namespaceWord :: .lower name :: rest => scanScopes (name :: stack) (number + 2) rest
  | .symbol .endNamespace :: .lower closed :: rest =>
      match stack with
      | [] => scanScopes [] (number + 2) rest
      | opened :: outer =>
          if closed = opened then scanScopes outer (number + 2) rest
          else .error ⟨number + 1, opened, closed⟩
  | .symbol .endNamespace :: rest => scanScopes stack.tail (number + 1) rest
  | .keyword .classWord :: .upper name :: rest =>
      (scanScopes stack (number + 2) rest).map fun later => (stack.reverse, name) :: later
  | _ :: rest => scanScopes stack (number + 1) rest

/-- Whether a pass goes on from the token without looking at it. -/
def Token.isPlain : Token → Bool
  | .keyword word => word != .namespaceWord && word != .classWord
  | .basis _ => true
  | .container _ => true
  | .lower _ => true
  | .upper _ => true
  | .includePath _ => true
  | .symbol s => s != .endNamespace

/-! ## One step -/

section Steps

variable {stack : List String} {number : Nat} {rest : List Token}

theorem scanScopes_opening (name : String) :
    scanScopes stack number (namespaceOpening name ++ rest) =
      scanScopes (name :: stack) (number + (namespaceOpening name).length) rest := rfl

theorem scanScopes_class (name : String) :
    scanScopes stack number (.keyword .classWord :: .upper name :: rest) =
      (scanScopes stack (number + 2) rest).map fun later => (stack.reverse, name) :: later := by
  rw [scanScopes]

theorem scanScopes_plain {token : Token} (plain : token.isPlain = true) :
    scanScopes stack number (token :: rest) = scanScopes stack (number + 1) rest := by
  rw [scanScopes] <;>
  · intros
    subst_vars
    simp [Token.isPlain] at plain

theorem scanScopes_plain_append {tokens : List Token}
    (plain : ∀ token ∈ tokens, token.isPlain = true) :
    scanScopes stack number (tokens ++ rest) = scanScopes stack (number + tokens.length) rest := by
  induction tokens generalizing number with
  | nil => rfl
  | cons token tokens ih =>
      have later : ∀ other ∈ tokens, other.isPlain = true :=
        fun other member => plain other (List.mem_cons_of_mem token member)
      rw [List.cons_append, scanScopes_plain (plain token List.mem_cons_self), ih later]
      simp only [List.length_cons]
      congr 1
      omega

/-- A namespace ends with the innermost open one, unless it is closed under another name. -/
theorem scanScopes_end {opened : String} {closing : Option String}
    (noName : ∀ name, rest.head? ≠ some (.lower name)) :
    scanScopes (opened :: stack) number (namespaceEnd closing ++ rest) =
      match WrongClosing.check (number + 1) opened closing with
      | .error wrong => .error wrong
      | .ok _ => scanScopes stack (number + (namespaceEnd closing).length) rest := by
  cases closing with
  | none =>
      cases rest with
      | nil => rfl
      | cons token rest =>
          have notLower : ∀ name, token ≠ .lower name :=
            fun name same => noName name (by simp [same])
          show scanScopes (opened :: stack) number (.symbol .endNamespace :: token :: rest) =
            scanScopes stack (number + 1) (token :: rest)
          rw [scanScopes]
          · rfl
          · intro name tail same
            exact notLower name (List.cons.inj same).1
  | some closed =>
      by_cases same : closed = opened
      · simp [namespaceEnd, scanScopes, WrongClosing.check, same]
      · simp [namespaceEnd, scanScopes, WrongClosing.check, same]

end Steps

/-! ## Classes are plain behind their name -/

def PlainTokens (tokens : List Token) : Prop := ∀ token ∈ tokens, token.isPlain = true

section Plain

@[simp] theorem Token.isPlain_keyword (word : Keyword) : (keyword word).isPlain =
    (word != .namespaceWord && word != .classWord) := rfl

@[simp] theorem Token.isPlain_basis (t : BasisType) : (basis t).isPlain = true := rfl

@[simp] theorem Token.isPlain_container (t : ContainerType) : (container t).isPlain = true := rfl

@[simp] theorem Token.isPlain_lower (name : String) : (lower name).isPlain = true := rfl

@[simp] theorem Token.isPlain_upper (name : String) : (upper name).isPlain = true := rfl

@[simp] theorem Token.isPlain_includePath (path : String) :
    (includePath path).isPlain = true := rfl

@[simp] theorem Token.isPlain_symbol (s : Symbol) :
    (symbol s).isPlain = (s != .endNamespace) := rfl

@[simp] theorem plainTokens_nil : PlainTokens [] :=
  List.forall_mem_nil _

@[simp] theorem plainTokens_cons {token : Token} {tokens : List Token} :
    PlainTokens (token :: tokens) ↔ token.isPlain = true ∧ PlainTokens tokens :=
  List.forall_mem_cons

@[simp] theorem plainTokens_append {front back : List Token} :
    PlainTokens (front ++ back) ↔ PlainTokens front ∧ PlainTokens back :=
  List.forall_mem_append

theorem plainTokens_flatMap {α : Type} {f : α → List Token} {xs : List α}
    (each : ∀ x ∈ xs, PlainTokens (f x)) : PlainTokens (xs.flatMap f) := by
  intro token member
  obtain ⟨x, inside, inTokens⟩ := List.mem_flatMap.mp member
  exact each x inside token inTokens

@[simp] theorem plainTokens_optionalToken {token : Token} {written : Bool} :
    PlainTokens (optionalToken written token) ↔ (written = true → token.isPlain = true) := by
  cases written <;> simp

@[simp] theorem Identifier.isPlain_token (name : Identifier) : name.token.isPlain = true := by
  cases name <;> rfl

@[simp] theorem QualifiedName.plainTokens (q : QualifiedName) : PlainTokens q.tokens := by
  have scopes : PlainTokens (scopeTokens q.namespaces) :=
    plainTokens_flatMap fun name _ => by simp
  simp [tokens, scopes]

@[simp] theorem ArgumentDecl.plainTokens (arg : ArgumentDecl) : PlainTokens arg.tokens := by
  rcases arg with ⟨form, name⟩
  cases form <;> simp [tokens, ArgumentForm.tokens]

@[simp] theorem plainTokens_arguments (args : List ArgumentDecl) :
    PlainTokens (argumentTokens args) := by
  cases args with
  | nil => simp [argumentTokens]
  | cons arg args =>
      have following : PlainTokens (followingTokens args) :=
        plainTokens_flatMap fun later _ => by simp
      simp [argumentTokens, following]

@[simp] theorem SlotForm.plainTokens (slot : SlotForm) : PlainTokens slot.tokens := by
  cases slot <;> simp [tokens]

@[simp] theorem ReturnForm.plainTokens (form : ReturnForm) : PlainTokens form.tokens := by
  cases form <;> simp [tokens]

@[simp] theorem MemberHead.plainTokens (head : MemberHead) (args : List ArgumentDecl) :
    PlainTokens (head.tokensWith args) := by
  cases head <;> simp [tokensWith, tokens]

@[simp] theorem MemberDecl.plainTokens (decl : MemberDecl) : PlainTokens decl.tokens := by
  cases decl <;> simp [tokens]

end Plain

theorem scanScopes_classDecl {stack : List String} {number : Nat} {rest : List Token}
    (decl : ClassDecl) : scanScopes stack number (decl.tokens ++ rest) =
      (scanScopes stack (number + decl.tokens.length) rest).map
        fun later => (stack.reverse, decl.name) :: later := by
  have plain : PlainTokens (.symbol .openBrace ::
      (decl.members.flatMap MemberDecl.tokens ++ [.symbol .endClass])) := by
    have members : PlainTokens (decl.members.flatMap MemberDecl.tokens) :=
      plainTokens_flatMap fun member _ => member.plainTokens
    simp [members]
  have split : decl.tokens = .keyword .classWord :: .upper decl.name :: .symbol .openBrace ::
      (decl.members.flatMap MemberDecl.tokens ++ [.symbol .endClass]) := rfl
  rw [split, List.cons_append, List.cons_append, scanScopes_class, scanScopes_plain_append plain]
  simp only [List.length_cons, Nat.add_assoc, Nat.add_comm 2]

/-! ## A whole run -/

/-- A class of declarations, as a pass with these open namespaces records it. -/
def Class.scopedName (stack : List String) (cls : Class) : List String × String :=
  (stack.reverse ++ cls.namespaces, cls.name)

theorem Class.scopedName_within (stack : List String) (name : String) :
    Class.scopedName stack ∘ Class.within name = Class.scopedName (name :: stack) := by
  funext cls
  simp [scopedName, within]

/-- A pass over declarations records their classes, or finds what is wrong with them first, and then
goes on behind them with the namespaces that were open in front. -/
theorem scanScopes_tokens (decls : Declarations) {stack : List String} {number : Nat}
    {rest : List Token} (noName : ∀ name, rest.head? ≠ some (.lower name)) :
    scanScopes stack number (decls.tokens ++ rest) =
      match decls.classesFrom number with
      | .error wrong => .error wrong
      | .ok classes => (scanScopes stack (number + decls.size) rest).map
          fun later => classes.map (Class.scopedName stack) ++ later := by
  induction decls generalizing stack number rest with
  | empty =>
      rw [Declarations.tokens, Declarations.classesFrom]
      cases scan : scanScopes stack number rest <;> simp [Declarations.size, Declarations.tokens,
        scan, Except.map]
  | withClass before decl ih =>
      rw [Declarations.tokens, List.append_assoc, ih (fun name same => by cases same),
        Declarations.classesFrom]
      cases earlier : before.classesFrom number with
      | error wrong => rfl
      | ok classes =>
          have size : (before.withClass decl).size = before.size + decl.tokens.length := by
            simp [Declarations.size, Declarations.tokens]
          have name : Class.scopedName stack decl.toClass = (stack.reverse, decl.name) := by
            simp [Class.scopedName, ClassDecl.toClass]
          simp only [scanScopes_classDecl, size, ← Nat.add_assoc, bind, Except.bind, pure,
            Except.pure]
          cases scanScopes stack (number + before.size + decl.tokens.length) rest <;>
            simp [Except.map, name]
  | withNamespace before name body closing ihBefore ihBody =>
      have size : (before.withNamespace name body closing).size =
          before.size + (namespaceOpening name).length + body.size +
            (namespaceEnd closing).length := by
        simp [Declarations.size, Declarations.tokens, Nat.add_assoc]
      rw [Declarations.tokens, List.append_assoc, List.append_assoc, List.append_assoc,
        ihBefore (fun name same => by cases same), Declarations.classesFrom]
      cases earlier : before.classesFrom number with
      | error wrong => rfl
      | ok classes =>
          simp only [scanScopes_opening, bind, Except.bind]
          rw [ihBody (fun name same => by cases closing <;> cases same)]
          cases inner : body.classesFrom
            (number + before.size + (namespaceOpening name).length) with
          | error wrong => rfl
          | ok innerClasses =>
              simp only [scanScopes_end noName]
              cases WrongClosing.check
                (number + before.size + (namespaceOpening name).length + body.size + 1) name
                closing with
              | error wrong => rfl
              | ok _ =>
                  simp only [size, ← Nat.add_assoc, pure, Except.pure]
                  cases scanScopes stack (number + before.size + (namespaceOpening name).length +
                    body.size + (namespaceEnd closing).length) rest <;>
                    simp [Except.map, Class.scopedName_within]

/-- The classes of declarations have the names that a pass over their tokens records. -/
theorem scanScopes_eq_classes (decls : Declarations) :
    scanScopes [] 0 decls.tokens =
      decls.classes.map fun classes => classes.map fun cls => (cls.namespaces, cls.name) := by
  rw [← List.append_nil decls.tokens, scanScopes_tokens decls (by simp), Declarations.classes]
  cases decls.classesFrom 0 with
  | error wrong => rfl
  | ok classes => simp [Except.map, scanScopes, Class.scopedName]

/-- The number of a wrong closing is that of the token that names it. -/
theorem getElem?_of_scanScopes_eq_error {stack : List String} {number : Nat} {tokens : List Token}
    {wrong : WrongClosing} (h : scanScopes stack number tokens = .error wrong) :
    ∃ k, wrong.token = number + k ∧ tokens[k]? = some (.lower wrong.closed) := by
  fun_induction scanScopes stack number tokens with
  | case1 => cases h
  | case2 stack number name rest ih =>
      obtain ⟨k, token_eq, found⟩ := ih h
      exact ⟨k + 2, by omega, found⟩
  | case3 number closed rest ih =>
      obtain ⟨k, token_eq, found⟩ := ih h
      exact ⟨k + 2, by omega, found⟩
  | case4 number rest opened outer ih =>
      obtain ⟨k, token_eq, found⟩ := ih h
      exact ⟨k + 2, by omega, found⟩
  | case5 number closed rest opened outer differs =>
      cases h
      exact ⟨1, rfl, rfl⟩
  | case6 stack number rest noName ih =>
      obtain ⟨k, token_eq, found⟩ := ih h
      exact ⟨k + 1, by omega, found⟩
  | case7 stack number name rest ih =>
      cases later : scanScopes stack (number + 2) rest with
      | error other =>
          rw [later] at h
          cases h
          obtain ⟨k, token_eq, found⟩ := ih later
          exact ⟨k + 2, by omega, found⟩
      | ok recorded =>
          rw [later] at h
          cases h
  | case8 stack number token rest _ _ _ _ ih =>
      obtain ⟨k, token_eq, found⟩ := ih h
      exact ⟨k + 1, by omega, found⟩

/-! ## Texts -/

/-- Where a name starts, the text is the name. -/
theorem TokenAt.take_drop_lower {s : List Char} {before : List Token} {name : String} {offset : Nat}
    (h : TokenAt s before (.lower name) offset) :
    (s.drop offset).take name.toList.length = name.toList := by
  obtain ⟨front, piece, rest, laid, isToken, -, start⟩ := h
  obtain ⟨p, found⟩ := laid.exists_pattern (List.mem_append_right front List.mem_cons_self)
  have text : piece.text = name.toList := Token.text_of_lower found isToken
  have whole : s = front.flatMap (·.text) ++ (name.toList ++ rest) := by
    rw [laid.text_eq, List.flatMap_append, List.append_assoc]
    simp [text]
  rw [whole, ← start, List.drop_left, List.take_left]

namespace Interface

variable {text : String}

/-- What a text that can be read comes to is settled by a pass over its tokens. -/
theorem ofText_eq_scanScopes (name : String) (verbose : Bool) {decls : Declarations}
    (read : Declarations.ofText text.toList = .ok decls) :
    match scanScopes [] 0 decls.tokens with
    | .ok recorded => ∃ interface, ofText name verbose text = .ok interface ∧
        interface.classes.map (fun cls => (cls.namespaces, cls.name)) = recorded
    | .error wrong => ofText name verbose text =
        .error (.closing ((Tiling.ofText text.toList).offset wrong.token) wrong.opened
          wrong.closed) := by
  rw [scanScopes_eq_classes]
  cases meant : decls.classes with
  | error wrong =>
      have refused := Class.listOfText_eq_error_iff.mpr (.inr ⟨decls, wrong, read, meant, rfl⟩)
      exact ofText_eq_error_iff.mpr refused
  | ok classes =>
      have listed := Class.listOfText_eq_ok_iff.mpr ⟨decls, read, meant⟩
      exact ⟨_, ofText_eq_ok_iff.mpr ⟨classes, listed, rfl⟩, rfl⟩

/-- The classes of a text that the grammar accepts are those that one pass over its tokens records,
and a closing name is reported exactly if the pass finds one wrong, the first one, as it is written.
Of a text that the grammar rejects none is ever reported. -/
theorem ofText_scopes (name : String) (verbose : Bool) (text : String) :
    (∀ pieces, LaidOut text.toList pieces [] → Sentence (pieces.filterMap (·.token)) →
      (∀ recorded, scanScopes [] 0 (pieces.filterMap (·.token)) = .ok recorded →
        ∃ interface, ofText name verbose text = .ok interface ∧
          interface.classes.map (fun cls => (cls.namespaces, cls.name)) = recorded) ∧
      (∀ wrong, scanScopes [] 0 (pieces.filterMap (·.token)) = .error wrong →
        ∃ failure, ofText name verbose text = .error failure ∧
          TokenAt text.toList ((pieces.filterMap (·.token)).take wrong.token)
            (.lower wrong.closed) failure.offset ∧
          failure.excerpt = wrong.closed ∧
          (text.toList.drop failure.offset).take failure.excerpt.toList.length =
            failure.excerpt.toList ∧
          failure.reason =
            "namespace '" ++ wrong.opened ++ "' closed as '" ++ wrong.closed ++ "'")) ∧
    ((∀ pieces, LaidOut text.toList pieces [] → ¬ Sentence (pieces.filterMap (·.token))) →
      ∀ failure, ofText name verbose text = .error failure → failure.reason = "") := by
  constructor
  · intro pieces laid sentence
    obtain ⟨decls, tokens⟩ := sentence_iff.mp sentence
    have read := Declarations.ofText_eq_ok_iff.mpr ⟨pieces, laid, tokens⟩
    have settled := ofText_eq_scanScopes name verbose read
    rw [tokens] at settled
    constructor
    · intro recorded scan
      rw [scan] at settled
      exact settled
    · intro wrong scan
      rw [scan] at settled
      obtain ⟨k, number, found⟩ := getElem?_of_scanScopes_eq_error scan
      rw [Nat.zero_add] at number
      have tiling_eq : (Tiling.ofText text.toList).tokens = pieces.filterMap (·.token) := by
        rw [Tiling.laidOut_nil_iff.mp laid]
        rfl
      have starts : TokenAt text.toList ((pieces.filterMap (·.token)).take wrong.token)
          (.lower wrong.closed) ((Tiling.ofText text.toList).offset wrong.token) :=
        Tiling.tokenAt_iff.mpr ⟨wrong.token, by rw [tiling_eq, number, found], by rw [tiling_eq],
          rfl⟩
      exact ⟨_, settled, starts, rfl, starts.take_drop_lower, rfl⟩
  · intro rejected failure refused
    rcases Class.listOfText_eq_error_iff.mp (ofText_eq_error_iff.mp refused) with grammar | closed
    · obtain ⟨i, -, same⟩ := Declarations.ofText_eq_error_iff.mp grammar
      rw [same]
      rfl
    · obtain ⟨decls, wrong, read, -, -⟩ := closed
      obtain ⟨pieces, laid, tokens⟩ := Declarations.ofText_eq_ok_iff.mp read
      exact absurd (sentence_iff.mpr ⟨decls, tokens⟩) (rejected pieces laid)

end Interface

end MexGlue
