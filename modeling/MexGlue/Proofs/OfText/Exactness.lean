import MexGlue.Proofs.Grammar.Meaning
import MexGlue.Proofs.OfText.Stages

/-!
# Texts that are interfaces

A text is an interface exactly when it is cut into pieces completely, its tokens have a derivation
and every closing name in the derivation agrees. The derivation is the only one, and the interface
is what it says.
-/

namespace MexGlue

open Grammar

/-- The whole text is pieces, and the tree derives their tokens. -/
def Grammar.DerivesText (tree : ParseTree) (text : String) : Prop :=
  ∃ pieces, LaidOut text.toList pieces [] ∧ Derives tree (pieces.filterMap (·.token))

/-- The interface has this name and the classes that the tree says. -/
structure Interface.ReadFrom (interface : Interface) (name : String) (verbose : Bool)
    (tree : ParseTree) : Prop where
  name_eq : interface.name = name
  verbose_eq : interface.verbose = verbose
  classes : Class.ListReadFrom interface.classes tree

theorem Interface.ReadFrom.unique {interface other : Interface} {name : String} {verbose : Bool}
    {tree : ParseTree} (h : interface.ReadFrom name verbose tree)
    (h' : other.ReadFrom name verbose tree) : interface = other := by
  have classes : interface.classes = other.classes := h.classes.unique h'.classes
  cases interface
  cases other
  cases h.name_eq
  cases h'.name_eq
  cases h.verbose_eq
  cases h'.verbose_eq
  cases classes
  rfl

namespace Grammar

variable {tree : ParseTree} {text : String}

/-- The derivations of a text are the trees of the declarations that it writes. -/
theorem derivesText_iff : DerivesText tree text ↔
    ∃ decls, Declarations.ofText text.toList = .ok decls ∧ decls.tree = tree := by
  constructor
  · intro h
    rcases h with ⟨pieces, laid, derives⟩
    obtain ⟨decls, sameTree, tokens⟩ := derives_iff.mp derives
    exact ⟨decls, Declarations.ofText_eq_ok_iff.mpr ⟨pieces, laid, tokens⟩, sameTree⟩
  · intro h
    rcases h with ⟨decls, found, sameTree⟩
    obtain ⟨pieces, laid, tokens⟩ := Declarations.ofText_eq_ok_iff.mp found
    exact ⟨pieces, laid, derives_iff.mpr ⟨decls, sameTree, tokens⟩⟩

theorem DerivesText.unique {other : ParseTree} (h : DerivesText tree text)
    (h' : DerivesText other text) : tree = other := by
  obtain ⟨decls, found, rfl⟩ := derivesText_iff.mp h
  obtain ⟨others, found', rfl⟩ := derivesText_iff.mp h'
  have same : decls = others := Except.ok.inj (found.symm.trans found')
  rw [same]

end Grammar

namespace Interface

variable {name : String} {verbose : Bool} {text : String}

/-- An interface is read from the derivation of its text. -/
theorem exists_readFrom {interface : Interface} (h : ofText name verbose text = .ok interface) :
    ∃ tree, DerivesText tree text ∧ tree.ClosingsAgree ∧
      interface.ReadFrom name verbose tree := by
  obtain ⟨classes, listed, same⟩ := ofText_eq_ok_iff.mp h
  obtain ⟨decls, written, meant⟩ := Class.listOfText_eq_ok_iff.mp listed
  have derives : DerivesText decls.tree text := derivesText_iff.mpr ⟨decls, written, rfl⟩
  have agree : decls.tree.ClosingsAgree := decls.exists_classes_iff.mp ⟨classes, meant⟩
  refine ⟨decls.tree, derives, agree, ?_⟩
  subst same
  exact ⟨rfl, rfl, Declarations.listReadFrom meant⟩

/-- A derivation whose closing names agree makes the text an interface. -/
theorem exists_ofText_eq_ok (name : String) (verbose : Bool) {tree : ParseTree}
    (derives : DerivesText tree text) (agree : tree.ClosingsAgree) :
    ∃ interface, ofText name verbose text = .ok interface := by
  obtain ⟨decls, written, same⟩ := derivesText_iff.mp derives
  subst same
  obtain ⟨classes, meant⟩ := decls.exists_classes_iff.mpr agree
  have listed := Class.listOfText_eq_ok_iff.mpr ⟨decls, written, meant⟩
  exact ⟨_, ofText_eq_ok_iff.mpr ⟨classes, listed, rfl⟩⟩

/-- A text is an interface exactly if it has a derivation whose closing names agree. This is its
only derivation, and the interface is the only one that it says; any other text fails. -/
theorem ofText_exact (name : String) (verbose : Bool) (text : String) :
    ((∃ interface, ofText name verbose text = .ok interface) ↔
      ∃ tree, DerivesText tree text ∧ tree.ClosingsAgree) ∧
    (∀ tree other, DerivesText tree text → DerivesText other text → tree = other) ∧
    (∀ tree, DerivesText tree text → tree.ClosingsAgree → ∀ interface,
      ofText name verbose text = .ok interface ↔ interface.ReadFrom name verbose tree) ∧
    ((¬ ∃ tree, DerivesText tree text ∧ tree.ClosingsAgree) →
      ∃ failure, ofText name verbose text = .error failure) := by
  have accepted : (∃ interface, ofText name verbose text = .ok interface) ↔
      ∃ tree, DerivesText tree text ∧ tree.ClosingsAgree := by
    constructor
    · intro h
      rcases h with ⟨interface, found⟩
      obtain ⟨tree, derives, agree, -⟩ := exists_readFrom found
      exact ⟨tree, derives, agree⟩
    · intro h
      rcases h with ⟨tree, derives, agree⟩
      exact exists_ofText_eq_ok name verbose derives agree
  refine ⟨accepted, fun tree other h h' => h.unique h', ?_, ?_⟩
  · intro tree derives agree interface
    obtain ⟨found, parsed⟩ := exists_ofText_eq_ok name verbose derives agree
    obtain ⟨other, derivesOther, -, read⟩ := exists_readFrom parsed
    have same : tree = other := derives.unique derivesOther
    rw [← same] at read
    constructor
    · intro asked
      have equal : interface = found := Except.ok.inj (asked.symm.trans parsed)
      rw [equal]
      exact read
    · intro asked
      rw [parsed, read.unique asked]
  · intro refused
    cases result : ofText name verbose text with
    | error failure => exact ⟨failure, rfl⟩
    | ok interface => exact absurd (accepted.mp ⟨interface, result⟩) refused

end Interface

end MexGlue
