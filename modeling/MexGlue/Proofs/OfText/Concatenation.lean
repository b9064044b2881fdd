import MexGlue.Proofs.OfText.Fault
import MexGlue.Proofs.ReadingState.InFront

/-!
# Texts put together

An interface text may be written behind another one, with a line feed between the two: then its
classes come behind those of the first, and where it fails the whole fails, as many characters further
to the back. Only a name at the start of the second text could belong to the first one. An interface
text may also be the body of a namespace, which goes around all of its classes.
-/

namespace MexGlue

/-! ## Faults that move -/

namespace Fault

/-- The fault, with this many more tokens in front. -/
def shift (count : Nat) : Fault → Fault
  | .grammar token => .grammar (count + token)
  | .closing wrong => .closing (wrong.shift count)

variable {front back : List Char} {before : List Token}

/-- A fault that moves with its text is the same failure further to the back. -/
theorem failure_shift
    (h : (Tiling.ofText (front ++ back)).GoesOn before front.length (Tiling.ofText back))
    (fault : Fault) :
    ((fault.shift before.length).failure (front ++ back)).reason = (fault.failure back).reason ∧
    ((fault.shift before.length).failure (front ++ back)).excerpt = (fault.failure back).excerpt ∧
    ((fault.shift before.length).failure (front ++ back)).offset =
      (fault.failure back).offset + front.length := by
  cases fault with
  | grammar token =>
      have moved : (Tiling.ofText (front ++ back)).offset (before.length + token) =
          (Tiling.ofText back).offset token + front.length := by
        rw [h.offset, Nat.add_comm]
      refine ⟨rfl, ?_, moved⟩
      simp only [shift, failure, ParseFailure.at, ParseFailure.excerpt, h.offset,
        List.drop_length_add_append]
  | closing wrong => exact ⟨rfl, rfl, (h.offset wrong.token).trans (Nat.add_comm _ _)⟩

end Fault

/-! ## Tilings that go on -/

namespace Tiling

variable {whole back : Tiling} {first : Declarations} {length : Nat} {earlier : List Class}

theorem declarations_of_goesOn (h : whole.GoesOn first.tokens length back)
    (parted : first.PartedFrom back.tokens) :
    whole.declarations = (back.declarations.map first.append).mapError (first.size + ·) := by
  rw [declarations, declarations, h.tokens, Declarations.ofTokens_append parted, h.rest]
  cases Declarations.ofTokens back.tokens with
  | error i => rfl
  | ok decls =>
      by_cases complete : back.rest = []
      · simp [complete, Except.map]
      · simp [complete, Except.map, Declarations.size]

/-- Behind the tokens of declarations that say classes, a tiling says what it goes on with. -/
theorem classes_of_goesOn (h : whole.GoesOn first.tokens length back)
    (parted : first.PartedFrom back.tokens) (meant : first.classes = .ok earlier) :
    whole.classes = (back.classes.map (earlier ++ ·)).mapError (Fault.shift first.size) := by
  rw [classes, classes, declarations_of_goesOn h parted]
  cases back.declarations with
  | error i => rfl
  | ok decls =>
      have all := Declarations.classesFrom_append first decls 0
      rw [← Declarations.classes, ← Declarations.classes, meant, Nat.add_comm,
        Declarations.classesFrom_add, ← Declarations.classes] at all
      simp only [Except.map, mapError_ok, Declarations.classesOrFault, all]
      cases decls.classes <;> rfl

theorem exists_declarations_of_classes {tiling : Tiling} {classes : List Class}
    (h : tiling.classes = .ok classes) :
    ∃ decls : Declarations, decls.tokens = tiling.tokens ∧ tiling.rest = [] ∧
      decls.classes = .ok classes := by
  rw [Tiling.classes] at h
  cases read : tiling.declarations with
  | error i => rw [read] at h; cases h
  | ok decls =>
      obtain ⟨tokens, rest⟩ := declarations_eq_ok_iff.mp read
      refine ⟨decls, tokens, rest, ?_⟩
      rw [read] at h
      cases meant : decls.classes with
      | error wrong => simp [Declarations.classesOrFault, meant] at h
      | ok found => simpa [Declarations.classesOrFault, meant] using h

theorem classes_of_declarations {tiling : Tiling} {decls : Declarations} {classes : List Class}
    (tokens : decls.tokens = tiling.tokens) (rest : tiling.rest = [])
    (meant : decls.classes = .ok classes) : tiling.classes = .ok classes := by
  rw [Tiling.classes, declarations_eq_ok_iff.mpr ⟨tokens, rest⟩]
  simp only [Declarations.classesOrFault, meant]
  rfl

end Tiling

/-! ## The body of a namespace -/

section Namespace

variable {outer : String}

theorem hasPiece_blank : Pattern.layout.HasPiece ⟨[' '], none⟩ :=
  .layout (by simp) (List.all_eq_true.mp rfl)

/-- A blank may stand in front of a name. -/
theorem IsLowerName.endsAt_layout (h : IsLowerName outer) (s : List Char) :
    Pattern.layout.EndsAt (outer.toList ++ s) := by
  obtain ⟨⟨first, run, spelled, kind, -⟩, -⟩ := h
  rw [spelled]
  intro c member
  cases member
  have isWordChar := Pattern.isWordChar_of_isLower kind
  simp [Pattern.endsBefore, Pattern.not_isLayoutChar_of_isWordChar isWordChar]

theorem IsLowerName.hasPiece (h : IsLowerName outer) :
    Pattern.lowerWord.HasPiece ⟨outer.toList, some (.lower outer)⟩ :=
  Token.lowerWord_hasPiece h.1 (Token.ofLowerWord_of_isLowerName h)

theorem ofText_namespaceOpening (h : IsLowerName outer) (s : List Char) :
    (Tiling.ofText ("namespace ".toList ++ outer.toList ++ " \x7b".toList ++ s)).tokens =
      namespaceOpening outer ++ (Tiling.ofText s).tokens ∧
    (Tiling.ofText ("namespace ".toList ++ outer.toList ++ " \x7b".toList ++ s)).rest =
      (Tiling.ofText s).rest := by
  have isWord : IsWord Char.isLower "namespace".toList :=
    ⟨'n', _, rfl, rfl, List.all_eq_true.mp rfl⟩
  have word : Pattern.lowerWord.HasPiece ⟨"namespace".toList, some (.keyword .namespaceWord)⟩ :=
    Token.lowerWord_hasPiece isWord rfl
  have brace : (Pattern.symbol .openBrace).HasPiece ⟨['\x7b'], some (.symbol .openBrace)⟩ :=
    .symbol .openBrace
  have atBlank (rest : List Char) : Pattern.lowerWord.EndsAt ([' '] ++ rest) := by
    intro c member
    cases member
    rfl
  have atBrace : Pattern.layout.EndsAt (['\x7b'] ++ s) := by
    intro c member
    cases member
    rfl
  have laid := LaidOut.cons word (atBlank _) (.cons hasPiece_blank (h.endsAt_layout _)
    (.cons h.hasPiece (atBlank _) (.cons hasPiece_blank atBrace
      (.cons brace (fun _ _ => rfl) (.nil s)))))
  have both := Tiling.goesOn_laidOut laid
  have whole : "namespace ".toList ++ outer.toList ++ " \x7b".toList ++ s =
      "namespace".toList ++ ([' '] ++ (outer.toList ++ ([' '] ++ (['\x7b'] ++ s)))) := by simp
  rw [whole]
  exact ⟨both.tokens, both.rest⟩

theorem ofText_namespaceEnd (h : IsLowerName outer) :
    (Tiling.ofText ("\x7d///\\namespace ".toList ++ outer.toList)).tokens =
      namespaceEnd (some outer) ∧
    (Tiling.ofText ("\x7d///\\namespace ".toList ++ outer.toList)).rest = [] := by
  have mark : (Pattern.symbol .endNamespace).HasPiece
      ⟨Symbol.endNamespace.spelling, some (.symbol .endNamespace)⟩ := .symbol .endNamespace
  have laid := LaidOut.cons mark (fun _ _ => rfl) (.cons hasPiece_blank (h.endsAt_layout [])
    (.cons h.hasPiece (Pattern.endsAt_nil _) (.nil [])))
  have both := Tiling.goesOn_laidOut laid
  rw [Tiling.ofText_nil] at both
  have whole : "\x7d///\\namespace ".toList ++ outer.toList =
      Symbol.endNamespace.spelling ++ ([' '] ++ (outer.toList ++ [])) := by
    simp [Symbol.spelling]
  rw [whole]
  exact ⟨both.tokens, both.rest⟩

/-- A namespace around declarations that say classes says them with its name in front. -/
theorem Declarations.classes_within {decls : Declarations} {classes : List Class}
    (meant : decls.classes = .ok classes) (outer : String) :
    (withNamespace .empty outer decls (some outer)).classes =
      .ok (classes.map (Class.within outer)) := by
  have body := decls.classesFrom_add (bodyStart 0 .empty outer) 0
  rw [← Declarations.classes, meant, Nat.add_zero] at body
  exact classesFrom_withNamespace.mpr ⟨[], _, rfl, body, by simp, by simp⟩

end Namespace

/-! ## Texts -/

namespace Interface

variable {name : String} {verbose : Bool} {first : String} {interface : Interface}

/-- An interface text in front of another text only moves what that text comes to. -/
theorem ofText_behind {second : String} (read : ofText name verbose first = .ok interface)
    (parted : (Tiling.ofText first.toList).tokens.getLast? ≠ some (.symbol .endNamespace) ∨
      ∀ word, (Tiling.ofText second.toList).tokens.head? ≠ some (.lower word)) :
    ∃ before, (Tiling.ofText (first ++ "\n" ++ second).toList).GoesOn before
        (first.toList ++ ['\n']).length (Tiling.ofText second.toList) ∧
      (Tiling.ofText (first ++ "\n" ++ second).toList).classes =
        ((Tiling.ofText second.toList).classes.map (interface.classes ++ ·)).mapError
          (Fault.shift before.length) := by
  obtain ⟨decls, tokens, rest, meant⟩ :=
    Tiling.exists_declarations_of_classes (Tiling.classes_eq_ok_of_ofText read)
  have laid := Tiling.laidOut first.toList
  rw [rest] at laid
  have goesOn := Tiling.ofText_append_lineFeed laid second.toList
  have whole : (first ++ "\n" ++ second).toList = first.toList ++ '\n' :: second.toList := by simp
  have count : (first.toList ++ ['\n']).length = first.toList.length + 1 := by simp
  rw [whole, count]
  refine ⟨_, goesOn, ?_⟩
  change (Tiling.ofText _).GoesOn (Tiling.ofText first.toList).tokens _ _ at goesOn
  rw [← tokens] at goesOn parted
  have moved := Tiling.classes_of_goesOn goesOn parted meant
  rw [Declarations.size, tokens] at moved
  exact moved

/-- Behind an interface text and a line feed another text adds its classes, or it fails as it does
alone but for the characters in front, provided that it does not begin with a name that closes a
namespace of the first. As the body of a namespace, an interface text says its classes with the
namespace's name in front of their own namespaces. -/
theorem ofText_append (read : ofText name verbose first = .ok interface) :
    (∀ second : String,
      ((Tiling.ofText first.toList).tokens.getLast? ≠ some (.symbol .endNamespace) ∨
        ∀ word, (Tiling.ofText second.toList).tokens.head? ≠ some (.lower word)) →
      (∀ later, ofText name verbose second = .ok later →
        ofText name verbose (first ++ "\n" ++ second) =
          .ok ⟨name, verbose, interface.classes ++ later.classes⟩) ∧
      (∀ failure, ofText name verbose second = .error failure →
        ∃ moved, ofText name verbose (first ++ "\n" ++ second) = .error moved ∧
          moved.reason = failure.reason ∧ moved.excerpt = failure.excerpt ∧
          moved.offset = failure.offset + (first.toList.length + 1))) ∧
    ∀ outer, IsLowerName outer →
      ofText name verbose ("namespace " ++ outer ++ " \x7b" ++ first ++ "\n" ++
          "\x7d///\\namespace " ++ outer) =
        .ok ⟨name, verbose, interface.classes.map (Class.within outer)⟩ := by
  refine ⟨fun second parted => ?_, fun outer isName => ?_⟩
  · obtain ⟨before, goesOn, classes⟩ := ofText_behind read parted
    constructor
    · intro later accepted
      rw [Tiling.classes_eq_ok_of_ofText accepted] at classes
      rw [ofText_eq_classes, classes]
      rfl
    · intro failure refused
      obtain ⟨fault, faulty, rfl⟩ := Tiling.exists_fault_of_ofText refused
      have whole : (first ++ "\n" ++ second).toList =
          (first.toList ++ ['\n']) ++ second.toList := by simp
      rw [faulty] at classes
      rw [whole] at goesOn
      obtain ⟨reason, excerpt, offset⟩ := Fault.failure_shift goesOn fault
      refine ⟨(fault.shift before.length).failure ((first.toList ++ ['\n']) ++ second.toList), ?_,
        reason, excerpt, by simpa using offset⟩
      rw [ofText_eq_classes, classes, whole]
      rfl
  · obtain ⟨decls, tokens, rest, meant⟩ :=
      Tiling.exists_declarations_of_classes (Tiling.classes_eq_ok_of_ofText read)
    have laid := Tiling.laidOut first.toList
    rw [rest] at laid
    have body := Tiling.ofText_append_lineFeed laid ("\x7d///\\namespace ".toList ++ outer.toList)
    obtain ⟨openingTokens, openingRest⟩ := ofText_namespaceOpening isName
      (first.toList ++ '\n' :: ("\x7d///\\namespace ".toList ++ outer.toList))
    obtain ⟨endTokens, endRest⟩ := ofText_namespaceEnd isName
    have whole : ("namespace " ++ outer ++ " \x7b" ++ first ++ "\n" ++
        "\x7d///\\namespace " ++ outer).toList = "namespace ".toList ++ outer.toList ++
        " \x7b".toList ++
          (first.toList ++ '\n' :: ("\x7d///\\namespace ".toList ++ outer.toList)) := by
      simp
    have written : (Declarations.withNamespace .empty outer decls (some outer)).tokens =
        (Tiling.ofText ("namespace ".toList ++ outer.toList ++ " \x7b".toList ++
          (first.toList ++ '\n' :: ("\x7d///\\namespace ".toList ++ outer.toList)))).tokens := by
      rw [openingTokens, body.tokens, endTokens, Declarations.tokens, tokens]
      simp [Declarations.tokens, Tiling.tokens]
    have complete := openingRest.trans (body.rest.trans endRest)
    rw [ofText_eq_classes, whole, Tiling.classes_of_declarations written complete
      (Declarations.classes_within meant outer)]

/-- The first text ends in an open comment, and the second closes a namespace under another name. -/
theorem ofText_append_closing : ∃ interface failure,
    ofText "" false "class A \x7b \x7d; // end" = .ok interface ∧
    ofText "" false "namespace b \x7b \x7d///\\namespace c" = .error failure ∧
    failure.offset = 29 ∧
    (∃ moved, ofText "" false ("class A \x7b \x7d; // end" ++ "\n" ++
        "namespace b \x7b \x7d///\\namespace c") = .error moved ∧
      moved.reason = failure.reason ∧ moved.excerpt = failure.excerpt ∧ moved.offset = 49) ∧
    ofText "" false ("namespace " ++ "a" ++ " \x7b" ++ "class A \x7b \x7d; // end" ++ "\n" ++
      "\x7d///\\namespace " ++ "a") = .ok ⟨"", false, interface.classes.map (Class.within "a")⟩ := by
  have read : ofText "" false "class A \x7b \x7d; // end" = .ok { classes := [{ name := "A" }] } := by
    decide +kernel
  have refused : ofText "" false "namespace b \x7b \x7d///\\namespace c" =
      .error (.closing 29 "b" "c") := by decide +kernel
  have both := ofText_append read
  exact ⟨_, _, read, refused, rfl, (both.1 _ (.inl (by decide +kernel))).2 _ refused,
    both.2 "a" isLowerName_a⟩

/-- A name behind a line feed still closes the namespace in front of it. -/
example : ofText "" false "namespace a \x7b \x7d///\\namespace" = .ok {} ∧
    ofText "" false "a" = .error (.grammar 0 "a") ∧
    ofText "" false ("namespace a \x7b \x7d///\\namespace" ++ "\n" ++ "a") = .ok {} := by
  decide +kernel

end Interface

end MexGlue
