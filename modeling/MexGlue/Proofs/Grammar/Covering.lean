import MexGlue.Interface.Declaration
import MexGlue.Proofs.Grammar.Production

/-!
# The forests of a phrase

A phrase covers a forest if it stands for its trees and all of them are derived. For each way to
put phrases together, what is covered is described by putting together what describes the parts, so
the forests of a production are known as soon as those of its rules are.
-/

namespace MexGlue.Grammar

/-- Whether a phrase stands for these trees and all of them are derived. -/
def Phrase.Covers (p : Phrase) (forest : List ParseTree) : Prop :=
  p.Matches forest ∧ ∀ tree ∈ forest, tree.Derived

/-- The forests that a phrase covers are those that some value writes. -/
def Phrase.WrittenBy {α : Type} (p : Phrase) (write : α → List ParseTree) : Prop :=
  ∀ forest, p.Covers forest ↔ ∃ x, write x = forest

namespace Phrase

variable {α β : Type} {p q : Phrase} {f : α → List ParseTree} {g : β → List ParseTree}

theorem covers_append {forest : List ParseTree} : (p ++ q).Covers forest ↔
    ∃ front back, front ++ back = forest ∧ p.Covers front ∧ q.Covers back := by
  constructor
  · intro h
    rcases h with ⟨⟨front, back, rfl, hp, hq⟩, derived⟩
    refine ⟨front, back, rfl, ⟨hp, ?_⟩, hq, ?_⟩
    · exact fun tree member => derived tree (List.mem_append_left back member)
    · exact fun tree member => derived tree (List.mem_append_right front member)
  · intro h
    rcases h with ⟨front, back, rfl, ⟨hp, inFront⟩, hq, inBack⟩
    refine ⟨⟨front, back, rfl, hp, hq⟩, fun tree member => ?_⟩
    rcases List.mem_append.mp member with first | second
    · exact inFront tree first
    · exact inBack tree second

theorem covers_rule {r : Rule} {forest : List ParseTree} : (rule r).Covers forest ↔
    ∃ children, r.phrase.Covers children ∧ [.node r children] = forest := by
  constructor
  · intro h
    rcases h with ⟨⟨children, rfl⟩, derived⟩
    exact ⟨children, ParseTree.derived_node_iff.mp (derived _ List.mem_cons_self), rfl⟩
  · intro h
    rcases h with ⟨children, covered, rfl⟩
    refine ⟨⟨children, rfl⟩, fun tree member => ?_⟩
    cases List.mem_singleton.mp member
    exact ParseTree.derived_node_iff.mpr covered

namespace WrittenBy

/-- Two types write the same forests if each value of one has a counterpart in the other. -/
theorem congr (h : p.WrittenBy f) (same : ∀ x, ∃ y, g y = f x) (back : ∀ y, ∃ x, f x = g y) :
    p.WrittenBy g := by
  intro forest
  rw [h forest]
  constructor
  · intro matched
    rcases matched with ⟨x, rfl⟩
    exact same x
  · intro matched
    rcases matched with ⟨y, rfl⟩
    exact back y

theorem self (p : Phrase) : p.WrittenBy fun forest : {forest // p.Covers forest} => forest.val := by
  intro forest
  constructor
  · intro covered
    exact ⟨⟨forest, covered⟩, rfl⟩
  · intro h
    rcases h with ⟨⟨other, covered⟩, rfl⟩
    exact covered

theorem terminal {t : Terminal} {token : α → Token}
    (only : ∀ other, Terminal.ofToken other = t ↔ ∃ x, token x = other) :
    (Phrase.terminal t).WrittenBy fun x => [.leaf (token x)] := by
  intro forest
  constructor
  · intro h
    rcases h with ⟨⟨other, rfl, kind⟩, -⟩
    obtain ⟨x, rfl⟩ := (only other).mp kind
    exact ⟨x, rfl⟩
  · intro h
    rcases h with ⟨x, rfl⟩
    refine ⟨⟨token x, rfl, (only (token x)).mpr ⟨x, rfl⟩⟩, fun tree member => ?_⟩
    cases List.mem_singleton.mp member
    exact .leaf (token x)

theorem both (hp : p.WrittenBy f) (hq : q.WrittenBy g) :
    (p ++ q).WrittenBy fun x : α × β => f x.1 ++ g x.2 := by
  intro forest
  rw [covers_append]
  constructor
  · intro h
    rcases h with ⟨front, back, rfl, inFront, inBack⟩
    obtain ⟨x, rfl⟩ := (hp front).mp inFront
    obtain ⟨y, rfl⟩ := (hq back).mp inBack
    exact ⟨(x, y), rfl⟩
  · intro h
    rcases h with ⟨⟨x, y⟩, rfl⟩
    exact ⟨f x, g y, rfl, (hp (f x)).mpr ⟨x, rfl⟩, (hq (g y)).mpr ⟨y, rfl⟩⟩

theorem either (hp : p.WrittenBy f) (hq : q.WrittenBy g) :
    (p ||| q).WrittenBy (Sum.elim f g) := by
  intro forest
  constructor
  · intro h
    rcases h with ⟨matched | matched, derived⟩
    · obtain ⟨x, rfl⟩ := (hp forest).mp ⟨matched, derived⟩
      exact ⟨.inl x, rfl⟩
    · obtain ⟨y, rfl⟩ := (hq forest).mp ⟨matched, derived⟩
      exact ⟨.inr y, rfl⟩
  · intro h
    rcases h with ⟨x | y, rfl⟩
    · obtain ⟨matched, derived⟩ := (hp (f x)).mpr ⟨x, rfl⟩
      exact ⟨.inl matched, derived⟩
    · obtain ⟨matched, derived⟩ := (hq (g y)).mpr ⟨y, rfl⟩
      exact ⟨.inr matched, derived⟩

theorem optional (hp : p.WrittenBy f) :
    (Phrase.optional p).WrittenBy fun x : Option α => (x.map f).getD [] := by
  intro forest
  constructor
  · intro h
    rcases h with ⟨rfl | matched, derived⟩
    · exact ⟨none, rfl⟩
    · obtain ⟨x, rfl⟩ := (hp forest).mp ⟨matched, derived⟩
      exact ⟨some x, rfl⟩
  · intro h
    rcases h with ⟨_ | x, rfl⟩
    · exact ⟨.inl rfl, by simp⟩
    · obtain ⟨matched, derived⟩ := (hp (f x)).mpr ⟨x, rfl⟩
      exact ⟨.inr matched, derived⟩

theorem many (hp : p.WrittenBy f) : (Phrase.many p).WrittenBy fun xs : List α => xs.flatMap f := by
  intro forest
  constructor
  · intro h
    rcases h with ⟨⟨parts, rfl, matched⟩, derived⟩
    induction parts with
    | nil => exact ⟨[], rfl⟩
    | cons part parts ih =>
        rw [List.flatten_cons] at derived
        obtain ⟨x, rfl⟩ := (hp part).mp ⟨matched part List.mem_cons_self,
          fun tree member => derived tree (List.mem_append_left _ member)⟩
        obtain ⟨xs, same⟩ := ih (fun later member => matched later (List.mem_cons_of_mem _ member))
          fun tree member => derived tree (List.mem_append_right _ member)
        exact ⟨x :: xs, by simp only [List.flatMap_cons, List.flatten_cons, same]⟩
  · intro h
    rcases h with ⟨xs, rfl⟩
    refine ⟨⟨xs.map f, rfl, fun part member => ?_⟩, fun tree member => ?_⟩
    · obtain ⟨x, -, rfl⟩ := List.mem_map.mp member
      exact ((hp (f x)).mpr ⟨x, rfl⟩).1
    · obtain ⟨x, -, inside⟩ := List.mem_flatMap.mp member
      exact ((hp (f x)).mpr ⟨x, rfl⟩).2 tree inside

theorem rule {r : Rule} (h : r.phrase.WrittenBy f) :
    (Phrase.rule r).WrittenBy fun x => [.node r (f x)] := by
  intro forest
  rw [covers_rule]
  constructor
  · intro matched
    rcases matched with ⟨children, covered, rfl⟩
    obtain ⟨x, rfl⟩ := (h children).mp covered
    exact ⟨x, rfl⟩
  · intro matched
    rcases matched with ⟨x, rfl⟩
    exact ⟨f x, (h (f x)).mpr ⟨x, rfl⟩, rfl⟩

end WrittenBy

/-! ## Terminals -/

def mark (token : Token) (written : Bool) : List ParseTree :=
  (optionalToken written token).map .leaf

theorem WrittenBy.sign (s : Symbol) :
    (Phrase.sign s).WrittenBy fun _ : Unit => [.leaf (.symbol s)] :=
  .terminal fun other => by cases other <;> simp [Terminal.ofToken, eq_comm]

theorem WrittenBy.word (k : Keyword) :
    (Phrase.word k).WrittenBy fun _ : Unit => [.leaf (.keyword k)] :=
  .terminal fun other => by cases other <;> simp [Terminal.ofToken, eq_comm]

theorem WrittenBy.lowerName :
    Phrase.lowerName.WrittenBy fun name : String => [.leaf (.lower name)] :=
  .terminal fun other => by cases other <;> simp [Terminal.ofToken]

theorem WrittenBy.upperName :
    Phrase.upperName.WrittenBy fun name : String => [.leaf (.upper name)] :=
  .terminal fun other => by cases other <;> simp [Terminal.ofToken]

theorem WrittenBy.includeLine :
    (Phrase.terminal .includeLine).WrittenBy fun path : String => [.leaf (.includePath path)] :=
  .terminal fun other => by cases other <;> simp [Terminal.ofToken]

/-- A terminal that fixes its token may be left out. -/
theorem WrittenBy.mark {token : Token} (h : p.WrittenBy fun _ : Unit => [.leaf token]) :
    (Phrase.optional p).WrittenBy (mark token) := by
  refine h.optional.congr (fun x => ?_) fun written => ?_
  · cases x with
    | none => exact ⟨false, rfl⟩
    | some _ => exact ⟨true, rfl⟩
  · cases written with
    | false => exact ⟨none, rfl⟩
    | true => exact ⟨some (), rfl⟩

/-- A terminal that fixes its token says nothing in front of a phrase. -/
theorem WrittenBy.behind {token : Token} (hp : p.WrittenBy fun _ : Unit => [.leaf token])
    (hq : q.WrittenBy g) : (p ++ q).WrittenBy fun y => .leaf token :: g y :=
  (hp.both hq).congr (fun x => ⟨x.2, rfl⟩) fun y => ⟨((), y), rfl⟩

theorem WrittenBy.before {token : Token} (hp : p.WrittenBy f)
    (hq : q.WrittenBy fun _ : Unit => [.leaf token]) :
    (p ++ q).WrittenBy fun x => f x ++ [.leaf token] :=
  (hp.both hq).congr (fun x => ⟨x.1, rfl⟩) fun x => ⟨(x, ()), rfl⟩

end Phrase

end MexGlue.Grammar
