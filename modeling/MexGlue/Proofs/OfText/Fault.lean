import MexGlue.Proofs.OfText.FailurePosition
import MexGlue.Proofs.OfText.Scopes

/-!
# The token at which a text fails

What a text comes to is settled by what it is cut into; the layout only decides the offsets. So the
fault of a text is the number of a token, and of a text that is cut completely it is the number of one
of its tokens, or their count where the text ends too early.
-/

namespace MexGlue

/-- Why tokens come to no classes. -/
inductive Fault where
  /-- The token with this number cannot stand in its place, or is missing there. -/
  | grammar (token : Nat)
  | closing (wrong : WrongClosing)
  deriving DecidableEq, Repr

namespace Fault

def token : Fault → Nat
  | .grammar token => token
  | .closing wrong => wrong.token

/-- The failure of a text with this fault. -/
def failure (text : List Char) : Fault → ParseFailure
  | .grammar token => .at text ((Tiling.ofText text).offset token)
  | .closing wrong =>
      .closing ((Tiling.ofText text).offset wrong.token) wrong.opened wrong.closed

theorem offset_failure (text : List Char) (fault : Fault) :
    (fault.failure text).offset = (Tiling.ofText text).offset fault.token := by
  cases fault <;> rfl

theorem reason_failure (text other : List Char) (fault : Fault) :
    (fault.failure text).reason = (fault.failure other).reason := by
  cases fault <;> rfl

end Fault

/-- The classes that declarations say, or what is wrong with a closing name. -/
def Declarations.classesOrFault (decls : Declarations) : Except Fault (List Class) :=
  decls.classes.mapError .closing

/-- The classes that a tiling says, or its fault. -/
def Tiling.classes (tiling : Tiling) : Except Fault (List Class) :=
  match tiling.declarations with
  | .error i => .error (.grammar i)
  | .ok decls => decls.classesOrFault

/-- What a text comes to is what it is cut into comes to. -/
theorem Interface.ofText_eq_classes (name : String) (verbose : Bool) (text : String) :
    ofText name verbose text =
      match (Tiling.ofText text.toList).classes with
      | .error fault => .error (fault.failure text.toList)
      | .ok classes => .ok ⟨name, verbose, classes⟩ := by
  simp only [ofText, Class.listOfText, Declarations.ofText, Tiling.classes]
  cases (Tiling.ofText text.toList).declarations with
  | error i => rfl
  | ok decls =>
      simp only [Declarations.classesOrFault]
      cases decls.classes <;> rfl

theorem Tiling.classes_eq_ok_of_ofText {name : String} {verbose : Bool} {text : String}
    {interface : Interface} (h : Interface.ofText name verbose text = .ok interface) :
    (ofText text.toList).classes = .ok interface.classes := by
  rw [Interface.ofText_eq_classes] at h
  cases found : (ofText text.toList).classes with
  | error fault => rw [found] at h; cases h
  | ok classes => rw [found] at h; cases h; rfl

theorem Tiling.exists_fault_of_ofText {name : String} {verbose : Bool} {text : String}
    {failure : ParseFailure} (h : Interface.ofText name verbose text = .error failure) :
    ∃ fault, (ofText text.toList).classes = .error fault ∧
      failure = fault.failure text.toList := by
  rw [Interface.ofText_eq_classes] at h
  cases found : (ofText text.toList).classes with
  | error fault => rw [found] at h; cases h; exact ⟨fault, rfl, rfl⟩
  | ok classes => rw [found] at h; cases h

/-- What a text comes to that is cut completely hangs on its tokens alone. -/
theorem Tiling.classes_congr {tiling other : Tiling} (tokens : tiling.tokens = other.tokens)
    (rest : tiling.rest = []) (otherRest : other.rest = []) : tiling.classes = other.classes := by
  simp only [classes, declarations, tokens, rest, otherRest]

/-- The number of a fault is that of a token, or the count of the tokens. -/
theorem Tiling.fault_le {tiling : Tiling} {fault : Fault} (h : tiling.classes = .error fault) :
    fault.token ≤ tiling.tokens.length := by
  unfold classes at h
  cases read : tiling.declarations with
  | error i =>
      rw [read] at h
      cases h
      exact (declarations_eq_error read).1.bound
  | ok decls =>
      rw [read] at h
      cases meant : decls.classes with
      | ok classes => simp [Declarations.classesOrFault, meant] at h
      | error wrong =>
          simp only [Declarations.classesOrFault, meant, mapError_error, Except.error.injEq] at h
          subst h
          have scan := scanScopes_eq_classes decls
          rw [meant] at scan
          obtain ⟨k, number, found⟩ := getElem?_of_scanScopes_eq_error scan
          have inside := (List.getElem?_eq_some_iff.mp found).choose
          rw [(declarations_eq_ok_iff.mp read).1] at inside
          simp only [Fault.token]
          omega

/-! ## Where a failure stands -/

/-- Whether the failure stands at the token of the text with this number, or at the end of a text
that has as many tokens. -/
def ParseFailure.StandsAt (failure : ParseFailure) (text : List Char) (i : Nat) : Prop :=
  (∃ before token, TokenAt text before token failure.offset ∧ before.length = i) ∨
    failure.offset = text.length ∧
      ∃ pieces, LaidOut text pieces [] ∧ (pieces.filterMap (·.token)).length = i

section StandsAt

variable {text : List Char} {failure : ParseFailure} {i j : Nat}

theorem ParseFailure.standsAt_iff (complete : (Tiling.ofText text).rest = []) :
    failure.StandsAt text i ↔
      i ≤ (Tiling.ofText text).tokens.length ∧ failure.offset = (Tiling.ofText text).offset i := by
  constructor
  · intro h
    rcases h with ⟨before, token, starts, count⟩ | ⟨atEnd, pieces, laid, count⟩
    · obtain ⟨k, found, tokens, offset⟩ := Tiling.tokenAt_iff.mp starts
      have inside := (List.getElem?_eq_some_iff.mp found).choose
      have same : k = i := by
        rw [← count, ← tokens, List.length_take_of_le (Nat.le_of_lt inside)]
      rw [← same]
      exact ⟨Nat.le_of_lt inside, offset.symm⟩
    · have tiling := Tiling.laidOut_nil_iff.mp laid
      have all : (Tiling.ofText text).tokens.length = i := by
        rw [tiling]
        exact count
      refine ⟨Nat.le_of_eq all.symm, atEnd.trans ?_⟩
      exact ((Tiling.offset_eq_length_iff (Nat.le_of_eq all.symm)).mpr ⟨all.symm, complete⟩).symm
  · intro h
    rcases h with ⟨bound, offset⟩
    rcases Nat.lt_or_eq_of_le bound with inside | last
    · refine .inl ⟨(Tiling.ofText text).tokens.take i, _, Tiling.tokenAt_iff.mpr
        ⟨i, List.getElem?_eq_getElem inside, rfl, offset.symm⟩, ?_⟩
      exact List.length_take_of_le bound
    · have laid := Tiling.laidOut text
      rw [complete] at laid
      refine .inr ⟨offset.trans ?_, _, laid, last.symm⟩
      exact (Tiling.offset_eq_length_iff bound).mpr ⟨last, complete⟩

/-- A failure stands at one token only. -/
theorem ParseFailure.StandsAt.unique (complete : (Tiling.ofText text).rest = [])
    (h : failure.StandsAt text i) (h' : failure.StandsAt text j) : i = j := by
  obtain ⟨bound, offset⟩ := (standsAt_iff complete).mp h
  obtain ⟨bound', offset'⟩ := (standsAt_iff complete).mp h'
  rcases Nat.lt_trichotomy i j with less | same | more
  · have further := Tiling.offset_lt (s := text) less (by omega)
    omega
  · exact same
  · have further := Tiling.offset_lt (s := text) more (by omega)
    omega

/-- A text that is cut completely fails at the token of its fault. -/
theorem Tiling.standsAt_of_fault {fault : Fault} (complete : (ofText text).rest = [])
    (h : (ofText text).classes = .error fault) :
    (fault.failure text).StandsAt text fault.token :=
  (ParseFailure.standsAt_iff complete).mpr ⟨fault_le h, fault.offset_failure text⟩

end StandsAt

end MexGlue
