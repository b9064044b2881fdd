import MexGlue.Proofs.Storage.Kinds

/-!
# Operations that come again

A disk that has been through some operations may go through them a second time. What worked then
works again, since all that it left is still there, and what failed fails again. In every place is what
was there in the end, or what was there when the first disk was as far as the second is now, so at the
end the disk is what it was. It is so as a list of nodes, for no node gets a new place.
-/

namespace MexGlue

namespace Disk

variable {disk before after opened : Disk} {here location : Location} {names : List String}
  {path : Path} {file : OpenFile}

/-! ## Single operations -/

theorem enterMaking?_of_directory {name : String}
    (h : name ≠ Path.up → disk.find? (here ++ [name]) = some .directory) :
    disk.enterMaking? here name = some disk := by
  unfold enterMaking?
  split
  next => rfl
  next goesDown => rw [h goesDown]

/-- A name cannot be entered where something else than a directory stands, or nothing and the name
is too long. -/
theorem enterMaking?_eq_none_iff {name : String} : disk.enterMaking? here name = none ↔
    name ≠ Path.up ∧ disk.kind? (here ++ [name]) ≠ some .directory ∧
      (disk.kind? (here ++ [name]) = none → nameFits name = false) := by
  unfold enterMaking?
  by_cases goesUp : name = Path.up
  · simp [goesUp]
  · cases found : disk.find? (here ++ [name]) with
    | none => simp [goesUp, found]
    | some node => cases node <;> simp [goesUp, found]

theorem makeAlong_of_directories
    (h : ∀ place ∈ names.scanl enter here, disk.find? place = some .directory) :
    disk.makeAlong here names = (disk, true) := by
  induction names generalizing here with
  | nil => rfl
  | cons name names ih =>
      rw [List.scanl_cons] at h
      have behind := (List.forall_mem_cons.mp h).2
      have next : disk.find? (enter here name) = some .directory := by
        refine behind _ ?_
        cases names <;> simp [List.scanl_cons]
      have entered : disk.enterMaking? here name = some disk :=
        enterMaking?_of_directory fun goesDown => by rwa [enter, if_neg goesDown] at next
      rw [makeAlong_cons, entered]
      exact ih behind

theorem makeAlong_of_fails (failed : (before.makeAlong here names).2 = false)
    (same : (before.makeAlong here names).1.SameKinds after) :
    after.makeAlong here names = (after, false) := by
  induction names generalizing before here with
  | nil => cases failed
  | cons name names ih =>
      rw [makeAlong_cons] at failed same ⊢
      cases entered : before.enterMaking? here name with
      | none =>
          rw [entered] at same
          have again : after.enterMaking? here name = none := by
            rw [enterMaking?_eq_none_iff, ← same (here ++ [name])]
            exact enterMaking?_eq_none_iff.mp entered
          rw [again]
      | some next =>
          rw [entered] at failed same
          have again : after.enterMaking? here name = some after := by
            refine enterMaking?_of_directory fun goesDown => ?_
            rcases enterMaking?_eq_some entered with ⟨goesUp, -⟩ | ⟨-, -, made⟩
            · have sizes := congrArg List.length goesUp
              simp only [enter, if_neg goesDown, List.length_append, List.length_singleton,
                List.length_dropLast] at sizes
              omega
            · have there := made (enter here name)
              rw [if_pos rfl, enter, if_neg goesDown] at there
              exact same.grows.directory (find?_makeAlong_of_some there)
          rw [again]
          exact ih failed same

/-- Directories are made again as far as they were made before. -/
theorem makeDirectories_again (grows : (before.makeDirectories path).1.Grows after)
    (ended : (before.makeDirectories path).2 = false →
      (before.makeDirectories path).1.SameKinds after) :
    after.makeDirectories path = (after, (before.makeDirectories path).2) := by
  cases made : (before.makeDirectories path).2 with
  | true =>
      have there : ∀ place ∈ path.trail, after.find? place = some .directory :=
        fun place member => grows.directory (find?_makeDirectories_of_mem made member)
      unfold makeDirectories at made ⊢
      split at made
      next fits =>
        rw [if_pos fits]
        exact makeAlong_of_directories there
      next => cases made
  | false =>
      have same := ended made
      unfold makeDirectories at made same ⊢
      split at made
      next fits =>
        rw [if_pos fits] at same ⊢
        exact makeAlong_of_fails made same
      next tooLong => rw [if_neg tooLong]

theorem openFile?_eq_none_of_sameKinds (h : before.openFile? path = none)
    (same : before.SameKinds after) : after.openFile? path = none := by
  rw [openFile?_eq_none_iff] at h ⊢
  intro location placed
  rw [← same.place?] at placed
  exact same.grows.directory (h location placed)

/-! ## Nodes in their places -/

/-- Whether two lists have nodes for the same locations in the same order, and the same nodes where a
location comes again, which are never found. -/
def SamePlaces : List (Location × Node) → List (Location × Node) → Prop
  | [], [] => True
  | entry :: rest, entry' :: rest' =>
      entry.1 = entry'.1 ∧ rest.lookup entry.1 = rest'.lookup entry.1 ∧ SamePlaces rest rest'
  | _, _ => False

theorem samePlaces_refl (nodes : List (Location × Node)) : SamePlaces nodes nodes := by
  induction nodes with
  | nil => trivial
  | cons entry nodes ih => exact ⟨rfl, rfl, ih⟩

theorem SamePlaces.putNode {nodes others : List (Location × Node)} (h : SamePlaces nodes others)
    (found : (nodes.lookup location).isSome = true) (node : Node) :
    SamePlaces nodes (putNode location node others) := by
  induction nodes generalizing others with
  | nil => cases found
  | cons entry nodes ih =>
      cases others with
      | nil => exact h.elim
      | cons other others =>
          obtain ⟨same, behind, rest⟩ := h
          rw [Disk.putNode]
          split
          next here => exact ⟨same.trans here, behind, rest⟩
          next elsewhere =>
            have apart : location ≠ entry.1 := fun here => elsewhere (same.symm.trans here.symm)
            rw [List.lookup_cons, beq_false_of_ne apart] at found
            refine ⟨same, ?_, ih rest found⟩
            rw [lookup_putNode, if_neg apart.symm, behind]

theorem SamePlaces.eq {nodes others : List (Location × Node)} (h : SamePlaces nodes others)
    (found : ∀ location, nodes.lookup location = others.lookup location) : nodes = others := by
  induction nodes generalizing others with
  | nil =>
      cases others with
      | nil => rfl
      | cons other others => exact h.elim
  | cons entry nodes ih =>
      cases others with
      | nil => exact h.elim
      | cons other others =>
          obtain ⟨place, node⟩ := entry
          obtain ⟨place', node'⟩ := other
          obtain ⟨same, behind, rest⟩ := h
          dsimp only at same behind
          subst same
          have first := found place
          rw [List.lookup_cons_self, List.lookup_cons_self] at first
          rw [Option.some.inj first, ih rest fun location => ?_]
          by_cases here : location = place
          · rw [here, behind]
          · have later := found location
            rwa [List.lookup_cons, List.lookup_cons, beq_false_of_ne here] at later

/-! ## Disks that follow each other -/

/-- Whether a disk that started as the final one follows another one on the way to it, with the same in
the places that are shared, where files are open. -/
structure Follows (shared : List Location) (again first final : Disk) : Prop where
  kept : first.Grows final
  places : SamePlaces final.nodes again.nodes
  /-- What the list has for the root is never looked at. -/
  root : final.nodes.lookup [] = again.nodes.lookup []
  found : ∀ location, again.find? location = final.find? location ∨
    (again.find? location = first.find? location ∧ (first.find? location).isSome = true)
  alike : ∀ location ∈ shared, ∃ node,
    again.find? location = some node ∧ first.find? location = some node

namespace Follows

variable {shared fewer : List Location} {again first final : Disk}

theorem refl (h : first.Grows final) : final.Follows [] first final where
  kept := h
  places := samePlaces_refl final.nodes
  root := rfl
  found _ := .inl rfl
  alike _ member := absurd member List.not_mem_nil

theorem mono (h : again.Follows shared first final) (sub : fewer ⊆ shared) :
    again.Follows fewer first final :=
  { h with alike := fun location member => h.alike location (sub member) }

/-- Nothing stands anywhere but what stands there in the end. -/
theorem sameKinds (h : again.Follows shared first final) : again.SameKinds final := by
  intro location
  rcases h.found location with same | ⟨same, isSome⟩
  · rw [kind?, kind?, same]
  · obtain ⟨node, found⟩ := Option.isSome_iff_exists.mp isSome
    have kind : first.kind? location = some node.emptied := by rw [kind?, found, Option.map_some]
    rw [h.kept location _ kind, ← kind, kind?, kind?, same]

theorem eq (h : again.Follows shared final final) : again = final := by
  have found (location : Location) : again.find? location = final.find? location :=
    (h.found location).elim id And.left
  have nodes : final.nodes = again.nodes := by
    refine h.places.eq fun location => ?_
    by_cases root : location = []
    · rw [root, h.root]
    · simpa [find?, root] using (found location).symm
  exact congrArg Disk.mk nodes.symm

theorem makeDirectories (h : again.Follows shared first final)
    (grows : (first.makeDirectories path).1.Grows final) :
    again.Follows shared (first.makeDirectories path).1 final where
  kept := grows
  places := h.places
  root := h.root
  found location := by
    refine (h.found location).imp_right fun ⟨same, isSome⟩ => ?_
    obtain ⟨node, found⟩ := Option.isSome_iff_exists.mp isSome
    have kept : (first.makeDirectories path).1.find? location = some node :=
      find?_makeDirectories_of_some found
    exact ⟨by rw [same, found, kept], by rw [kept, Option.isSome_some]⟩
  alike location member := by
    obtain ⟨node, there, found⟩ := h.alike location member
    exact ⟨node, there, find?_makeDirectories_of_some found⟩

/-- What is put on both disks is shared from then on. -/
theorem put {node : Node} (h : again.Follows shared first final) (below : location ≠ [])
    (grows : (first.put location node).Grows final) :
    (again.put location node).Follows (location :: shared) (first.put location node) final where
  kept := grows
  places := by
    refine h.places.putNode ?_ node
    have kind := grows location node.emptied (by rw [kind?_put first node location below, if_pos rfl])
    obtain ⟨found, isThere, -⟩ := Option.map_eq_some_iff.mp kind
    rw [find?, if_neg below] at isThere
    rw [isThere, Option.isSome_some]
  root := by rw [Disk.put, lookup_putNode, if_neg below.symm, h.root]
  found other := by
    rw [find?_put again node other below, find?_put first node other below]
    split
    next => exact .inr ⟨rfl, rfl⟩
    next => exact h.found other
  alike other member := by
    rw [find?_put again node other below, find?_put first node other below]
    split
    next => exact ⟨node, rfl, rfl⟩
    next elsewhere => exact h.alike other ((List.mem_cons.mp member).resolve_left elsewhere)

/-- What is written over the same content leaves the same content. -/
theorem writeAt (h : again.Follows shared first final) (member : location ∈ shared) (offset : Nat)
    (bytes : ByteArray) :
    (again.writeAt location offset bytes).Follows shared (first.writeAt location offset bytes)
      final := by
  obtain ⟨node, there, found⟩ := h.alike location member
  cases node with
  | file content =>
      have grows := (first.sameKinds_writeAt location offset bytes).grows.trans h.kept
      rw [writeAt_of_file found] at grows ⊢
      rw [writeAt_of_file there]
      exact (h.put (below_of_file found) grows).mono (List.subset_cons_self _ _)
  | directory => simpa [Disk.writeAt, there, found] using h
  | fullDevice => simpa [Disk.writeAt, there, found] using h

/-- A text is sent on both disks or on none. -/
theorem send? (h : again.Follows shared first final) (member : file.location ∈ shared)
    (text : String) :
    file.send? text first = none ∧ file.send? text again = none ∨
      ∃ after reached next, file.send? text first = some (after, next) ∧
        file.send? text again = some (reached, next) ∧ reached.Follows shared after final := by
  cases sends : file.send? text first with
  | none =>
      exact .inl ⟨rfl, OpenFile.send?_eq_none_iff.mpr (OpenFile.send?_eq_none_iff.mp sends)⟩
  | some result =>
      obtain ⟨after, next⟩ := result
      refine .inr ⟨after, ?_⟩
      rcases OpenFile.send?_eq_some sends with ⟨rfl, rfl, rfl⟩ | ⟨sent, sink, nonempty, rfl, rfl⟩
      · exact ⟨again, next, rfl, rfl, h⟩
      · refine ⟨_, _, rfl, ?_, h.writeAt member sent text.toUTF8⟩
        simp only [OpenFile.send?, if_neg nonempty, sink]

/-- A text is appended on both disks or on none. -/
theorem append? (h : again.Follows shared first final) (member : file.location ∈ shared)
    (text : String) :
    file.append? text first = none ∧ file.append? text again = none ∨
      ∃ after reached next, file.append? text first = some (after, next) ∧
        file.append? text again = some (reached, next) ∧ reached.Follows shared after final := by
  rw [OpenFile.append?_eq, OpenFile.append?_eq]
  refine h.send? ?_ _
  exact member

theorem close (h : again.Follows shared first final) (member : file.location ∈ shared) :
    (file.close again).2 = (file.close first).2 ∧
      (file.close again).1.Follows shared (file.close first).1 final := by
  rcases h.send? member file.buffer.waiting with ⟨fails, failsAgain⟩ |
    ⟨after, reached, next, sends, sendsAgain, follows⟩
  · simp only [OpenFile.close, fails, failsAgain]
    exact ⟨trivial, h⟩
  · simp only [OpenFile.close, sends, sendsAgain]
    exact ⟨trivial, follows⟩

/-- A file that was opened is opened again, and then its place is shared. -/
theorem openFile? (h : again.Follows shared first final)
    (opening : first.openFile? path = some (opened, file)) (grows : opened.Grows final) :
    ∃ reopened, again.openFile? path = some (reopened, file) ∧
      reopened.Follows (path.location :: shared) opened final := by
  have onAgain := grows.trans h.sameKinds.symm.grows
  obtain ⟨isAt, placed, cases⟩ := openFile?_eq_some opening
  have place := ((grows_openFile? opening).trans onAgain).place? placed
  rcases cases with ⟨isDevice, rfl, rfl⟩ | ⟨-, rfl, rfl⟩
  · have found : again.find? path.location = some .fullDevice :=
      kind?_eq_fullDevice.mp (onAgain _ _ (kind?_eq_fullDevice.mpr isDevice))
    refine ⟨again, openFile?_of_fullDevice place found, { h with alike := fun location member => ?_ }⟩
    rcases List.mem_cons.mp member with rfl | shares
    · exact ⟨_, found, isDevice⟩
    · exact h.alike location shares
  · have kind := onAgain path.location _
      (by rw [kind?_put first _ _ isAt.belowRoot, if_pos rfl])
    obtain ⟨content, found⟩ := kind?_eq_file.mp kind
    exact ⟨_, openFile?_of_file place found, h.put isAt.belowRoot grows⟩

/-- What could not be opened cannot be opened again, if nothing came behind it, and what could be is
the same file again. -/
theorem openFile?_alike (h : again.Follows shared first final) (path : Path)
    (grows : ∀ opened file, first.openFile? path = some (opened, file) → opened.Grows final)
    (ended : first.openFile? path = none → first.SameKinds final) :
    first.openFile? path = none ∧ again.openFile? path = none ∨
      ∃ opened reopened file, first.openFile? path = some (opened, file) ∧
        again.openFile? path = some (reopened, file) ∧
        reopened.Follows (path.location :: shared) opened final := by
  cases opening : first.openFile? path with
  | none =>
      have same := (ended opening).trans h.sameKinds.symm
      exact .inl ⟨rfl, openFile?_eq_none_of_sameKinds opening same⟩
  | some result =>
      obtain ⟨opened, file⟩ := result
      obtain ⟨reopened, opens, follows⟩ := h.openFile? opening (grows opened file opening)
      exact .inr ⟨opened, reopened, file, rfl, opens, follows⟩

theorem writeFile (h : again.Follows shared first final) (text : String)
    (grows : (first.writeFile path text).1.Grows final)
    (ended : (first.writeFile path text).2 = false →
      (first.writeFile path text).1.SameKinds final) :
    (again.writeFile path text).2 = (first.writeFile path text).2 ∧
      (again.writeFile path text).1.Follows shared (first.writeFile path text).1 final := by
  cases opening : first.openFile? path with
  | none =>
      have failed : first.writeFile path text = (first, false) := by
        simp only [Disk.writeFile, opening]
      rw [failed] at ended
      have same := (ended rfl).trans h.sameKinds.symm
      have again' : again.writeFile path text = (again, false) := by
        simp only [Disk.writeFile, openFile?_eq_none_of_sameKinds opening same]
      rw [failed, again']
      exact ⟨rfl, h⟩
  | some result =>
      obtain ⟨opened, file⟩ := result
      have wrote := grows_writeFile_of_openFile? opening text
      obtain ⟨reopened, opens, follows⟩ := h.openFile? opening (wrote.trans grows)
      have isHere : file.location ∈ path.location :: shared := by
        rw [(openFile?_eq_some opening).1.placed]
        exact List.mem_cons_self
      have fewer : shared ⊆ path.location :: shared := List.subset_cons_self _ _
      rcases follows.append? isHere text with ⟨fails, failsAgain⟩ |
        ⟨after, reached, next, appends, appendsAgain, filled⟩
      · simp only [Disk.writeFile, opening, opens, fails, failsAgain]
        exact ⟨trivial, (follows.close isHere).2.mono fewer⟩
      · simp only [Disk.writeFile, opening, opens, appends, appendsAgain]
        rw [← (OpenFile.append?_keeps appends).2] at isHere
        exact ⟨(filled.close isHere).1, (filled.close isHere).2.mono fewer⟩

end Follows

end Disk

end MexGlue
