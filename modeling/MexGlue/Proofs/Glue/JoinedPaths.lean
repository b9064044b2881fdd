import Mathlib.Data.List.Nodup
import MexGlue.Proofs.Dependency.Qualified
import MexGlue.Proofs.Glue.Naming

/-!
# Paths that are joined to names

On the other side of the glue a class has one name, its path joined by a mark that the names in the
path may hold themselves. What is joined tells the parts between all marks, so two classes share a
name exactly if their paths have the same parts. Namespaces start small and classes do not, so then
one of the two classes is in a namespace that continues one of the other behind the mark.
-/

namespace MexGlue

theorem qualify_cons (delimiter outer : String) (namespaces : List String) (name : String) :
    qualify delimiter (outer :: namespaces) name =
      outer ++ delimiter ++ qualify delimiter namespaces name := by
  rw [qualify, List.cons_append, String.intercalate_cons_of_ne_nil (by simp), qualify]

/-! ## Parts of a path -/

/-- The parts of a class's path, cut at every mark. -/
def Class.pathParts (cls : Class) : List String :=
  (cls.namespaces ++ [cls.name]).flatMap (Text.parts '_')

theorem Class.matlabName_eq_iff (cls other : Class) :
    cls.matlabName = other.matlabName ↔ cls.pathParts = other.pathParts := by
  have parts (cls : Class) : Text.parts '_' cls.matlabName = cls.pathParts :=
    Text.parts_intercalate_eq_flatMap rfl (by simp)
  rw [← parts, ← parts]
  exact ⟨fun same => by rw [same], Text.eq_of_parts_eq⟩

theorem Interface.nodup_matlabNames_iff (interface : Interface) :
    (interface.classes.map Class.matlabName).Nodup ↔
      (interface.classes.map Class.pathParts).Nodup := by
  simp only [List.Nodup, List.pairwise_map, ne_eq, Class.matlabName_eq_iff]

/-! ## Namespaces that continue others -/

/-- Whether a name goes on like another one and the mark. -/
def continuesName (longer name : String) : Bool := (name ++ "_").toList.isPrefixOf longer.toList

/-- Whether, where the names of two lists first differ, one continues the other. -/
def scopesMeet : List String → List String → Bool
  | outer :: inner, outer' :: inner' =>
      if outer = outer' then scopesMeet inner inner'
      else continuesName outer outer' || continuesName outer' outer
  | _, _ => false

theorem continuesName_of_append {longer name : String} {more behind behind' : List Char}
    (whole : longer.toList = name.toList ++ more) (rest : '_' :: behind = more ++ '_' :: behind')
    (different : name ≠ longer) : continuesName longer name = true := by
  cases more with
  | nil => exact absurd (String.toList_inj.mp (by simpa using whole.symm)) different
  | cons mark more =>
      rw [continuesName, List.isPrefixOf_iff_prefix, String.toList_append]
      refine ⟨more, ?_⟩
      rw [whole, ← (List.cons.inj rest).1]
      simp

/-- If texts are the same that start with different names and the mark, one name continues the
other. -/
theorem continuesName_of_append_eq {outer outer' behind behind' : String}
    (same : outer ++ "_" ++ behind = outer' ++ "_" ++ behind') (different : outer ≠ outer') :
    continuesName outer outer' = true ∨ continuesName outer' outer = true := by
  have spelled : outer.toList ++ '_' :: behind.toList = outer'.toList ++ '_' :: behind'.toList := by
    simpa using congrArg String.toList same
  rcases List.append_eq_append_iff.mp spelled with ⟨more, whole, rest⟩ | ⟨more, whole, rest⟩
  · exact .inr (continuesName_of_append whole rest different)
  · exact .inl (continuesName_of_append whole rest (Ne.symm different))

theorem startsSmall_append {first : String} (small : startsSmall first = true) (rest : String) :
    startsSmall (first ++ rest) = true := by
  rw [startsSmall] at small ⊢
  rw [String.toList_append]
  cases spelled : first.toList with
  | nil => simp [spelled] at small
  | cons c letters => simpa [spelled] using small

/-- Paths are joined to one name only if they are the same or their namespaces meet. -/
theorem eq_or_scopesMeet_of_qualify_eq {namespaces others : List String} {name other : String}
    (lower : ∀ scope ∈ namespaces, IsLowerName scope) (upper : IsUpperName name)
    (lowerOther : ∀ scope ∈ others, IsLowerName scope) (upperOther : IsUpperName other)
    (same : qualify "_" namespaces name = qualify "_" others other) :
    (namespaces = others ∧ name = other) ∨ scopesMeet namespaces others = true := by
  induction namespaces generalizing others with
  | nil =>
      cases others with
      | nil => exact .inl ⟨rfl, by simpa using same⟩
      | cons outer others =>
          -- A class does not start like a namespace.
          have small := startsSmall_append
            (lowerOther outer List.mem_cons_self).startsSmall ("_" ++ qualify "_" others other)
          rw [← String.append_assoc, ← qualify_cons, ← same, qualify_nil,
            upper.startsSmall] at small
          cases small
  | cons outer namespaces ih =>
      obtain ⟨outerLower, innerLower⟩ := List.forall_mem_cons.mp lower
      cases others with
      | nil =>
          have small := startsSmall_append outerLower.startsSmall
            ("_" ++ qualify "_" namespaces name)
          rw [← String.append_assoc, ← qualify_cons, same, qualify_nil, upperOther.startsSmall]
            at small
          cases small
      | cons outer' others =>
          obtain ⟨-, innerOther⟩ := List.forall_mem_cons.mp lowerOther
          rw [qualify_cons, qualify_cons] at same
          by_cases first : outer = outer'
          · subst first
            rw [scopesMeet, if_pos rfl]
            have inner := (String.append_right_inj _).mp same
            exact (ih innerLower innerOther inner).imp (fun whole => ⟨by rw [whole.1], whole.2⟩) id
          · rw [scopesMeet, if_neg first, Bool.or_eq_true]
            exact .inr (continuesName_of_append_eq same first)

/-- Whether no two classes are in namespaces of which one continues the other. -/
def Interface.NamespacesApart (interface : Interface) : Prop :=
  ∀ cls ∈ interface.classes, ∀ other ∈ interface.classes,
    scopesMeet cls.namespaces other.namespaces = false

instance (interface : Interface) : Decidable interface.NamespacesApart :=
  inferInstanceAs (Decidable (∀ cls ∈ interface.classes, ∀ other ∈ interface.classes,
    scopesMeet cls.namespaces other.namespaces = false))

/-- If namespaces do not continue each other, classes share no name unless they share their path. -/
theorem Interface.NamespacesApart.nodup_pathParts {interface : Interface}
    (apart : interface.NamespacesApart) (wellFormed : interface.WellFormed)
    (distinct : (interface.classes.map Class.cppName).Nodup) :
    (interface.classes.map Class.pathParts).Nodup := by
  refine List.Nodup.map_on (fun cls member other member' same => ?_) (List.Nodup.of_map _ distinct)
  refine List.inj_on_of_nodup_map distinct member member' ?_
  have h := wellFormed cls member
  have h' := wellFormed other member'
  rcases eq_or_scopesMeet_of_qualify_eq h.namespaces h.name h'.namespaces h'.name
    ((cls.matlabName_eq_iff other).mpr same) with ⟨scopes, names⟩ | meet
  · rw [Class.cppName, Class.cppName, Class.qualifiedName, Class.qualifiedName, scopes, names]
  · rw [apart cls member other member'] at meet
    cases meet

example : continuesName "a_b" "a" = true ∧ scopesMeet ["a", "b"] ["a_b"] = true ∧
    scopesMeet ["a", "b"] ["a", "bc"] = false := by
  decide +kernel

end MexGlue
