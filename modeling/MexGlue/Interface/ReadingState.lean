import MexGlue.Interface.Declaration

/-!
# Reading declarations from tokens

A reader goes over the tokens once, from left to right, and never goes back. Its state holds all
that the tokens so far have settled; a token that no declaration can have in this place leaves no
state. The grammar needs one token at a time because the ways to write an argument differ only
behind their common beginnings, and because a constructor differs from a method only at its opening
parenthesis.
-/

namespace MexGlue

/-- The name that a token gives to an argument or to a static method. -/
def Identifier.ofToken? : Token → Option Identifier
  | .lower name => some (.lower name)
  | .upper name => some (.upper name)
  | _ => none

/-- How much of an argument has been read. -/
inductive ArgumentPhase where
  | opened
  | next
  | constMarked
  /-- Behind a namespace's name, with those outside it. -/
  | namespaceName (isConst : Bool) (outer : List String) (last : String)
  | scoped (isConst : Bool) (namespaces : List String)
  | classType (isConst : Bool) (type : QualifiedName)
  | container (isConst : Bool) (type : ContainerType)
  /-- The type is complete and the name is missing. -/
  | typed (form : ArgumentForm)
  | complete (arg : ArgumentDecl)
  deriving DecidableEq, Repr

namespace ArgumentPhase

/-- The phase behind the first token of a class's or container's name. -/
def ofTypeToken? (isConst : Bool) : Token → Option ArgumentPhase
  | .lower name => some (.namespaceName isConst [] name)
  | .upper name => some (.classType isConst ⟨[], name⟩)
  | .container t => some (.container isConst t)
  | _ => none

def ofFirstToken? : Token → Option ArgumentPhase
  | .keyword .constWord => some .constMarked
  | .basis t => some (.typed (.basis t))
  | token => ofTypeToken? false token

def ofNameToken? (form : ArgumentForm) (token : Token) : Option ArgumentPhase :=
  (Identifier.ofToken? token).map fun name => .complete ⟨form, name⟩

def step? : ArgumentPhase → Token → Option ArgumentPhase
  | .opened, token => ofFirstToken? token
  | .next, token => ofFirstToken? token
  | .constMarked, token => ofTypeToken? true token
  | .namespaceName isConst outer last, token =>
      match token with
      | .symbol .scope => some (.scoped isConst (outer ++ [last]))
      | _ => none
  | .scoped isConst namespaces, token =>
      match token with
      | .lower name => some (.namespaceName isConst namespaces name)
      | .upper name => some (.classType isConst ⟨namespaces, name⟩)
      | _ => none
  | .classType isConst q, token =>
      match token with
      | .symbol .ampersand => some (.typed (.classReference isConst q))
      | .symbol .star => if isConst then none else some (.typed (.classPointer q))
      | _ => none
  | .container isConst t, token =>
      match token with
      | .symbol .ampersand => some (.typed (.containerReference isConst t))
      | .symbol .star => if isConst then none else some (.typed (.containerPointer t))
      | _ => if isConst then none else ofNameToken? (.container t) token
  | .typed form, token => ofNameToken? form token
  | .complete _, _ => none

end ArgumentPhase

inductive SlotPhase where
  | start
  | namespaceName (outer : List String) (last : String)
  | scoped (namespaces : List String)
  /-- Behind a class's name, where a pointer mark may follow. -/
  | classType (type : QualifiedName)
  | complete (slot : SlotForm)
  deriving DecidableEq, Repr

namespace SlotPhase

def step? : SlotPhase → Token → Option SlotPhase
  | .start, token =>
      match token with
      | .basis t => some (.complete (.basis t))
      | .container t => some (.complete (.container t))
      | .lower name => some (.namespaceName [] name)
      | .upper name => some (.classType ⟨[], name⟩)
      | _ => none
  | .namespaceName outer last, token =>
      match token with
      | .symbol .scope => some (.scoped (outer ++ [last]))
      | _ => none
  | .scoped namespaces, token =>
      match token with
      | .lower name => some (.namespaceName namespaces name)
      | .upper name => some (.classType ⟨namespaces, name⟩)
      | _ => none
  | .classType q, token =>
      match token with
      | .symbol .star => some (.complete (.classType q true))
      | _ => none
  | .complete _, _ => none

/-- The slot, if what has been read can stand alone. -/
def slot? : SlotPhase → Option SlotForm
  | .classType q => some (.classType q false)
  | .complete slot => some slot
  | _ => none

end SlotPhase

inductive ReturnPhase where
  | start
  | single (slot : SlotPhase)
  /-- Behind the word that opens a pair. -/
  | pairWord
  | pairFirst (slot : SlotPhase)
  | pairSecond (first : SlotForm) (slot : SlotPhase)
  | complete (returns : ReturnForm)
  deriving DecidableEq, Repr

namespace ReturnPhase

def step? : ReturnPhase → Token → Option ReturnPhase
  | .start, token =>
      match token with
      | .keyword .voidWord => some (.complete .void)
      | .keyword .pairWord => some .pairWord
      | _ => (SlotPhase.start.step? token).map .single
  | .single slot, token => (slot.step? token).map .single
  | .pairWord, token =>
      match token with
      | .symbol .openAngle => some (.pairFirst .start)
      | _ => none
  | .pairFirst slot, token =>
      match token with
      | .symbol .comma => slot.slot?.map fun first => .pairSecond first .start
      | _ => (slot.step? token).map .pairFirst
  | .pairSecond first slot, token =>
      match token with
      | .symbol .closeAngle => slot.slot?.map fun second => .complete (.pair first second)
      | _ => (slot.step? token).map (.pairSecond first)
  | .complete _, _ => none

/-- The return type, if what has been read can stand alone. -/
def returns? : ReturnPhase → Option ReturnForm
  | .single slot => slot.slot?.map .single
  | .complete returns => some returns
  | _ => none

/-- The class that a constructor is written with, if what has been read is one bare class name. -/
def bareClass? : ReturnPhase → Option String
  | .single (.classType ⟨[], name⟩) => some name
  | _ => none

end ReturnPhase

inductive MemberPhase where
  | start
  | returning (isStatic : Bool) (returns : ReturnPhase)
  | headed (head : MemberHead)
  | arguments (head : MemberHead) (before : List ArgumentDecl) (phase : ArgumentPhase)
  | closed (head : MemberHead) (args : List ArgumentDecl)
  /-- Behind the mark of a method that leaves its object alone. -/
  | constMarked (returns : ReturnForm) (name : String) (args : List ArgumentDecl)
  deriving DecidableEq, Repr

/-- The member with this head and these arguments and no mark behind them. -/
def MemberHead.withArguments (args : List ArgumentDecl) : MemberHead → MemberDecl
  | .constructor written => .constructor written args
  | .method returns name => .method returns name args false
  | .staticMethod returns name => .staticMethod returns name args

namespace MemberPhase

def headOfName? (isStatic : Bool) (returns : ReturnForm) (token : Token) : Option MemberHead :=
  match isStatic, token with
  | true, _ => (Identifier.ofToken? token).map (.staticMethod returns)
  | false, .lower name => some (.method returns name)
  | false, _ => none

/-- What one more token makes of a return type: more of it, a head, or a constructor's
argument list. -/
def stepReturning? (isStatic : Bool) (returns : ReturnPhase) (token : Token) :
    Option MemberPhase :=
  match returns.step? token with
  | some more => some (.returning isStatic more)
  | none =>
      match token with
      | .symbol .openParen =>
          if isStatic then none
          else returns.bareClass?.map fun written => .arguments (.constructor written) [] .opened
      | _ => (returns.returns?.bind fun form => headOfName? isStatic form token).map .headed

def stepArguments? (head : MemberHead) (before : List ArgumentDecl) (phase : ArgumentPhase)
    (token : Token) : Option MemberPhase :=
  match phase, token with
  | .opened, .symbol .closeParen => some (.closed head before)
  | .complete arg, .symbol .closeParen => some (.closed head (before ++ [arg]))
  | .complete arg, .symbol .comma => some (.arguments head (before ++ [arg]) .next)
  | _, _ => (phase.step? token).map (.arguments head before)

/-- The phase behind one more token of a member, or the member that this token completes. -/
def step? : MemberPhase → Token → Option (MemberPhase ⊕ MemberDecl)
  | .start, token =>
      match token with
      | .includePath path => some (.inr (.includeLine path))
      | .keyword .staticWord => some (.inl (.returning true .start))
      | _ => (stepReturning? false .start token).map .inl
  | .returning isStatic returns, token => (stepReturning? isStatic returns token).map .inl
  | .headed head, token =>
      match token with
      | .symbol .openParen => some (.inl (.arguments head [] .opened))
      | _ => none
  | .arguments head before phase, token =>
      (stepArguments? head before phase token).map .inl
  | .closed head args, token =>
      match head, token with
      | _, .symbol .semicolon => some (.inr (head.withArguments args))
      | .method returns name, .keyword .constWord => some (.inl (.constMarked returns name args))
      | _, _ => none
  | .constMarked returns name args, token =>
      match token with
      | .symbol .semicolon => some (.inr (.method returns name args true))
      | _ => none

end MemberPhase

/-- Where a reader stands in the innermost open namespace. -/
inductive Place where
  | between
  /-- Behind the end of a namespace, whose name may follow. -/
  | ended (name : String) (body : Declarations)
  | namespaceWord
  | namespaceName (name : String)
  | classWord
  | className (name : String)
  | inClass (name : String) (members : List MemberDecl) (phase : MemberPhase)
  deriving DecidableEq, Repr

/-- An open namespace, with the declarations in front of it. -/
structure OpenNamespace where
  before : Declarations
  name : String
  deriving DecidableEq, Repr

/-- All that the tokens so far have settled: the namespaces around the place, innermost first, and
the complete declarations of the innermost one. -/
structure ReadingState where
  enclosing : List OpenNamespace
  before : Declarations
  place : Place
  deriving DecidableEq, Repr

namespace ReadingState

def start : ReadingState := ⟨[], .empty, .between⟩

def stepBetween? (enclosing : List OpenNamespace) (before : Declarations) :
    Token → Option ReadingState
  | .keyword .namespaceWord => some ⟨enclosing, before, .namespaceWord⟩
  | .keyword .classWord => some ⟨enclosing, before, .classWord⟩
  | .symbol .endNamespace =>
      match enclosing with
      | [] => none
      | innermost :: outer => some ⟨outer, innermost.before, .ended innermost.name before⟩
  | _ => none

def stepInClass? (name : String) (members : List MemberDecl) (phase : MemberPhase)
    (token : Token) : Option (Place ⊕ ClassDecl) :=
  match phase, token with
  | .start, .symbol .endClass => some (.inr ⟨name, members⟩)
  | _, _ =>
      (phase.step? token).map fun
        | .inl more => .inl (.inClass name members more)
        | .inr member => .inl (.inClass name (members ++ [member]) .start)

/-- The state behind one more token, or none where no declaration can go on with it. -/
def step? (state : ReadingState) (token : Token) : Option ReadingState :=
  match state.place with
  | .between => stepBetween? state.enclosing state.before token
  | .ended name body =>
      match token with
      | .lower closing =>
          some ⟨state.enclosing, .withNamespace state.before name body (some closing), .between⟩
      | _ =>
          stepBetween? state.enclosing (.withNamespace state.before name body none) token
  | .namespaceWord =>
      match token with
      | .lower name => some { state with place := .namespaceName name }
      | _ => none
  | .namespaceName name =>
      match token with
      | .symbol .openBrace => some ⟨⟨state.before, name⟩ :: state.enclosing, .empty, .between⟩
      | _ => none
  | .classWord =>
      match token with
      | .upper name => some { state with place := .className name }
      | _ => none
  | .className name =>
      match token with
      | .symbol .openBrace => some { state with place := .inClass name [] .start }
      | _ => none
  | .inClass name members phase =>
      (stepInClass? name members phase token).map fun
        | .inl place => { state with place := place }
        | .inr decl => ⟨state.enclosing, .withClass state.before decl, .between⟩

def declarations? (state : ReadingState) : Option Declarations :=
  match state.enclosing, state.place with
  | [], .between => some state.before
  | [], .ended name body => some (.withNamespace state.before name body none)
  | _, _ => none

/-- The state behind these tokens, or the number of the first one that cannot stand in its place. -/
def run (state : ReadingState) : List Token → Except Nat ReadingState
  | [] => .ok state
  | token :: tokens =>
      match state.step? token with
      | none => .error 0
      | some next =>
          match run next tokens with
          | .error i => .error (i + 1)
          | .ok final => .ok final

end ReadingState

/-- The declarations that these tokens write, or the number of the first token that cannot stand in
its place. Where the tokens only end too early, this is their count. -/
def Declarations.ofTokens (tokens : List Token) : Except Nat Declarations :=
  match ReadingState.start.run tokens with
  | .error i => .error i
  | .ok state =>
      match state.declarations? with
      | none => .error tokens.length
      | some decls => .ok decls

end MexGlue
