import MexGlue.Proofs.Storage.Directories
import MexGlue.Proofs.Text.Utf8
import MexGlue.Storage.OpenFile

/-!
# What writing leaves

A buffer loses nothing: what is sent and what still waits are what was appended. So an open file whose
place is written by no one else holds the front part of the text that was appended to it while the rest
waits, and the whole text once it is closed. Only a device without room, which was sent nothing yet,
cannot be closed so.
-/

namespace MexGlue

namespace Buffer

variable (buffer : Buffer) (text : String)

theorem moveChunk_waiting : buffer.moveChunk.2 ++ buffer.moveChunk.1.waiting = buffer.waiting := by
  unfold moveChunk
  split
  · simp [waiting]
  · split <;> simp [waiting]

theorem makeRoom_waiting (bytes : Nat) :
    (buffer.makeRoom bytes).2 ++ (buffer.makeRoom bytes).1.waiting = buffer.waiting := by
  unfold makeRoom
  split
  · exact buffer.moveChunk_waiting
  · exact String.empty_append

theorem settle_waiting : buffer.settle.2 ++ buffer.settle.1.waiting = buffer.waiting := by
  unfold settle
  split
  · exact buffer.moveChunk_waiting
  · exact String.empty_append

/-- What is sent and what waits behind it are what waited and the text. -/
theorem append_waiting :
    (buffer.append text).2 ++ (buffer.append text).1.waiting = buffer.waiting ++ text := by
  rw [append, String.append_assoc, settle_waiting, ← buffer.makeRoom_waiting text.utf8ByteSize]
  simp only [waiting, String.append_assoc]

theorem settle_of_chunkSize_le (large : chunkSize ≤ buffer.chunk.utf8ByteSize) :
    buffer.settle = ({}, buffer.waiting) := by
  have larger : blockSize < chunkSize := by decide
  have noRoom : ¬buffer.block.utf8ByteSize + buffer.chunk.utf8ByteSize ≤ blockSize := by omega
  have tooLarge : ¬buffer.chunk.utf8ByteSize ≤ blockSize := by omega
  rw [settle, if_pos large, moveChunk, if_neg noRoom, if_neg tooLarge]

variable {text} in
/-- A text of the size of a chunk is sent at once, with all that waited. -/
theorem append_of_chunkSize_le (large : chunkSize ≤ text.utf8ByteSize) :
    buffer.append text = ({}, buffer.waiting ++ text) := by
  have size (start : Buffer) : chunkSize ≤ (start.chunk ++ text).utf8ByteSize := by
    rw [String.utf8ByteSize_append]
    omega
  have whole := buffer.append_waiting text
  have waits : (buffer.append text).1 = {} := by rw [append, settle_of_chunkSize_le _ (size _)]
  rw [waits] at whole
  exact Prod.ext waits (by simpa [waiting] using whole)

end Buffer

/-! ## Bytes over bytes -/

theorem eq_of_toList_data {first second : ByteArray}
    (same : first.data.toList = second.data.toList) : first = second :=
  ByteArray.ext (Array.toList_inj.mp same)

theorem length_toList_data (bytes : ByteArray) : bytes.data.toList.length = bytes.size := rfl

theorem toList_data_toUTF8_append (first second : String) :
    (first ++ second).toUTF8.data.toList =
      first.toUTF8.data.toList ++ second.toUTF8.data.toList := by
  rw [← Array.toList_append, ← ByteArray.data_append]
  rfl

theorem overwrite_of_size_eq_zero (content : ByteArray) (offset : Nat) {bytes : ByteArray}
    (empty : bytes.size = 0) : overwrite content offset bytes = content := if_pos empty

theorem toList_data_overwrite (content : ByteArray) (offset : Nat) {bytes : ByteArray}
    (nonempty : bytes.size ≠ 0) :
    (overwrite content offset bytes).data.toList =
      content.data.toList.take offset ++ List.replicate (offset - content.size) 0 ++
        bytes.data.toList ++ content.data.toList.drop (offset + bytes.size) := by
  rw [overwrite, if_neg nonempty]
  rfl

/-- What is written is in the file then. -/
theorem infix_overwrite (content : ByteArray) (offset : Nat) (bytes : ByteArray) :
    bytes.data.toList <:+: (overwrite content offset bytes).data.toList := by
  by_cases empty : bytes.size = 0
  · rw [List.eq_nil_of_length_eq_zero empty]
    exact List.nil_infix
  · rw [toList_data_overwrite _ _ empty]
    exact List.infix_append _ _ _

theorem infix_overwrite_append (content : ByteArray) (offset : Nat) (front back : String) :
    back.toUTF8.data.toList <:+: (overwrite content offset (front ++ back).toUTF8).data.toList := by
  have ends : back.toUTF8.data.toList <:+: (front ++ back).toUTF8.data.toList := by
    rw [toList_data_toUTF8_append]
    exact (List.suffix_append _ _).isInfix
  exact ends.trans (infix_overwrite content offset _)

/-- A text that is written behind the end of a file follows zeros. -/
theorem overwrite_beyond {front back : String} {offset : Nat} (nonempty : back ≠ "")
    (beyond : front.utf8ByteSize ≤ offset) :
    overwrite front.toUTF8 offset back.toUTF8 =
      (front ++ String.ofList (List.replicate (offset - front.utf8ByteSize) '\x00') ++ back).toUTF8 := by
  have some : back.toUTF8.size ≠ 0 := mt String.utf8ByteSize_eq_zero_iff.mp nonempty
  have zeros (count : Nat) : (String.ofList (List.replicate count '\x00')).toUTF8.data.toList =
      List.replicate count 0 := by
    rw [Utf8.encodes_iff.mp (Utf8.encodes_toUTF8 _), String.toList_ofList]
    induction count with
    | zero => rfl
    | succ count ih => rw [List.replicate_succ, List.flatMap_cons, ih]; rfl
  have size : front.toUTF8.size = front.utf8ByteSize := rfl
  apply eq_of_toList_data
  rw [toList_data_overwrite _ _ some, toList_data_toUTF8_append, toList_data_toUTF8_append, zeros,
    List.take_of_length_le (by rw [length_toList_data, size]; exact beyond),
    List.drop_eq_nil_of_le (by rw [length_toList_data, size]; omega), List.append_nil, size]

theorem append_of_size_eq_zero {first second : ByteArray} (empty : second.size = 0) :
    first ++ second = first := by
  rw [ByteArray.size_eq_zero_iff.mp empty, ByteArray.append_empty]

theorem overwrite_size (content bytes : ByteArray) :
    overwrite content content.size bytes = content ++ bytes := by
  by_cases empty : bytes.size = 0
  · rw [overwrite_of_size_eq_zero _ _ empty, append_of_size_eq_zero empty]
  apply eq_of_toList_data
  rw [toList_data_overwrite _ _ empty, ← length_toList_data content, List.take_length,
    Nat.sub_self, List.drop_eq_nil_of_le (Nat.le_add_right _ _), ByteArray.data_append,
    Array.toList_append]
  simp only [List.replicate_zero, List.append_nil]

theorem overwrite_empty (bytes : ByteArray) : overwrite .empty 0 bytes = bytes :=
  (overwrite_size .empty bytes).trans ByteArray.empty_append

/-- Writing goes on behind what was written. -/
theorem overwrite_overwrite (content first second : ByteArray) (offset : Nat) :
    overwrite (overwrite content offset first) (offset + first.size) second =
      overwrite content offset (first ++ second) := by
  by_cases noSecond : second.size = 0
  · rw [overwrite_of_size_eq_zero _ _ noSecond, append_of_size_eq_zero noSecond]
  by_cases noFirst : first.size = 0
  · rw [overwrite_of_size_eq_zero _ _ noFirst, noFirst, ByteArray.size_eq_zero_iff.mp noFirst,
      ByteArray.empty_append, Nat.add_zero]
  have both : (first ++ second).size ≠ 0 := by
    rw [ByteArray.size_append]
    omega
  have front : (content.data.toList.take offset ++ List.replicate (offset - content.size) 0 ++
      first.data.toList).length = offset + first.size := by
    simp only [List.length_append, List.length_take, List.length_replicate, length_toList_data]
    omega
  have reached : offset + first.size ≤ (overwrite content offset first).size := by
    rw [← length_toList_data (overwrite _ _ _), toList_data_overwrite _ _ noFirst,
      List.length_append, front]
    omega
  apply eq_of_toList_data
  rw [toList_data_overwrite _ _ noSecond, Nat.sub_eq_zero_of_le reached,
    toList_data_overwrite _ _ noFirst, List.take_left' front, ← List.drop_drop,
    List.drop_left' front, List.drop_drop, toList_data_overwrite _ _ both, ByteArray.data_append,
    Array.toList_append, ByteArray.size_append]
  simp only [List.replicate_zero, List.append_nil, List.append_assoc, Nat.add_assoc]

namespace Disk

variable {disk : Disk} {location other : Location} {offset : Nat} {bytes content : ByteArray}

theorem writeAt_of_file (found : disk.find? location = some (.file content)) :
    disk.writeAt location offset bytes =
      disk.put location (.file (overwrite content offset bytes)) := by
  rw [writeAt, found]

theorem below_of_file (found : disk.find? location = some (.file content)) : location ≠ [] := by
  rintro rfl
  cases found

theorem find?_writeAt_of_file (found : disk.find? location = some (.file content)) :
    (disk.writeAt location offset bytes).find? location =
      some (.file (overwrite content offset bytes)) := by
  rw [writeAt_of_file found, find?_put disk _ _ (below_of_file found), if_pos rfl]

theorem find?_writeAt_of_ne (apart : other ≠ location) :
    (disk.writeAt location offset bytes).find? other = disk.find? other := by
  unfold writeAt
  split
  · rename_i content found
    rw [find?_put disk _ other (below_of_file found), if_neg apart]
  · rfl

end Disk

/-! ## Open files -/

/-- Whether a file was opened under this path. -/
structure OpenFile.IsAt (file : OpenFile) (path : Path) : Prop where
  named : file.path = path
  placed : file.location = path.location
  belowRoot : path.location ≠ []

/-- Whether this text is what an open file has sent since its place held this content and so many
bytes had been sent. -/
def OpenFile.HasSent (file : OpenFile) (disk : Disk) (content : ByteArray) (offset : Nat)
    (text : String) : Prop :=
  match file.sink with
  | .file sent =>
      sent = offset + text.utf8ByteSize ∧
        disk.find? file.location = some (.file (overwrite content offset text.toUTF8))
  | .device => text = ""

/-- Whether this text is what an open file was given since then and no one else has written to its
place: the front of it was sent and the rest waits. -/
def OpenFile.Continues (file : OpenFile) (disk : Disk) (content : ByteArray) (offset : Nat)
    (held : String) : Prop :=
  ∃ sent, held = sent ++ file.buffer.waiting ∧ file.HasSent disk content offset sent

/-- Whether this text was appended to an open file and no one else has written to its place. -/
def OpenFile.Fills (file : OpenFile) (disk : Disk) (held : String) : Prop :=
  file.Continues disk .empty 0 held

namespace OpenFile

variable {file next : OpenFile} {disk after : Disk} {path : Path} {held text : String}
  {location : Location} {content : ByteArray} {offset : Nat}

/-! ### What sending does -/

/-- All that sending can do. -/
theorem send?_eq_some (h : file.send? text disk = some (after, next)) :
    (text = "" ∧ after = disk ∧ next = file) ∨
      ∃ sent, file.sink = .file sent ∧ text ≠ "" ∧
        after = disk.writeAt file.location sent text.toUTF8 ∧
        next = { file with sink := .file (sent + text.utf8ByteSize) } := by
  unfold send? at h
  by_cases empty : text = ""
  · rw [if_pos empty] at h
    cases h
    exact .inl ⟨empty, rfl, rfl⟩
  · rw [if_neg empty] at h
    cases sink : file.sink with
    | file sent =>
        rw [sink] at h
        cases h
        exact .inr ⟨sent, rfl, empty, rfl, rfl⟩
    | device => rw [sink] at h; cases h

/-- Only a device cannot be sent a text, and it can be sent none. -/
theorem send?_eq_none_iff : file.send? text disk = none ↔ text ≠ "" ∧ file.sink = .device := by
  unfold send?
  by_cases empty : text = ""
  · simp [empty]
  · cases sink : file.sink <;> simp [empty]

/-- Sending changes nothing about an open file but how much it has sent. -/
theorem send?_keeps (h : file.send? text disk = some (after, next)) :
    next.path = file.path ∧ next.location = file.location ∧ next.buffer = file.buffer := by
  rcases send?_eq_some h with ⟨-, -, rfl⟩ | ⟨sent, -, -, -, rfl⟩ <;> exact ⟨rfl, rfl, rfl⟩

theorem find?_send? (h : file.send? text disk = some (after, next))
    (apart : location ≠ file.location) : after.find? location = disk.find? location := by
  rcases send?_eq_some h with ⟨-, rfl, -⟩ | ⟨sent, -, -, rfl, -⟩
  · rfl
  · exact Disk.find?_writeAt_of_ne apart

/-- What is sent goes behind what was sent before, over what has come there. -/
theorem find?_send?_self {sent : Nat} (sink : file.sink = .file sent)
    (found : disk.find? file.location = some (.file content))
    (sends : file.send? text disk = some (after, next)) :
    after.find? file.location = some (.file (overwrite content sent text.toUTF8)) ∧
      next.sink = .file (sent + text.utf8ByteSize) := by
  rcases send?_eq_some sends with ⟨rfl, rfl, rfl⟩ | ⟨size, atSize, -, rfl, rfl⟩
  · rw [found, sink, overwrite_of_size_eq_zero _ _ rfl]
    exact ⟨rfl, rfl⟩
  · cases sink.symm.trans atSize
    exact ⟨Disk.find?_writeAt_of_file found, rfl⟩

theorem HasSent.send? {sent : String} (h : file.HasSent disk content offset sent)
    (sends : file.send? text disk = some (after, next)) :
    next.HasSent after content offset (sent ++ text) := by
  cases sink : file.sink with
  | file size =>
      rw [HasSent, sink] at h
      obtain ⟨rfl, found⟩ := h
      obtain ⟨written, size⟩ := find?_send?_self sink found sends
      rw [HasSent, size, (send?_keeps sends).2.1, written, String.utf8ByteSize_append, Nat.add_assoc]
      exact ⟨rfl, congrArg (some ∘ Node.file)
        (overwrite_overwrite content sent.toUTF8 text.toUTF8 offset)⟩
  | device =>
      rcases send?_eq_some sends with ⟨rfl, rfl, rfl⟩ | ⟨size, atSize, -⟩
      · rwa [String.append_empty]
      · cases sink.symm.trans atSize

/-- What stands in its place is all that an open file depends on. -/
theorem HasSent.of_kept {sent : String} (h : file.HasSent disk content offset sent)
    (kept : ∀ node, disk.find? file.location = some node → after.find? file.location = some node) :
    file.HasSent after content offset sent := by
  unfold HasSent at h ⊢
  split
  · rename_i size sink
    rw [sink] at h
    exact ⟨h.1, kept _ h.2⟩
  · rename_i sink
    rwa [sink] at h

/-! ### Appending and closing -/

theorem append?_eq (file : OpenFile) (text : String) (disk : Disk) :
    file.append? text disk =
      { file with buffer := (file.buffer.append text).1 }.send? (file.buffer.append text).2 disk :=
  rfl

theorem append?_keeps (h : file.append? text disk = some (after, next)) :
    next.path = file.path ∧ next.location = file.location := by
  obtain ⟨path, location, -⟩ := send?_keeps h
  exact ⟨path, location⟩

theorem IsAt.append? (h : file.IsAt path) (appended : file.append? text disk = some (after, next)) :
    next.IsAt path := by
  obtain ⟨named, placed⟩ := append?_keeps appended
  exact ⟨named.trans h.named, placed.trans h.placed, h.belowRoot⟩

/-- Appending changes nothing elsewhere. -/
theorem find?_append? (h : file.append? text disk = some (after, next))
    (apart : location ≠ file.location) : after.find? location = disk.find? location :=
  find?_send? h apart

theorem Continues.append? (h : file.Continues disk content offset held)
    (appended : file.append? text disk = some (after, next)) :
    next.Continues after content offset (held ++ text) := by
  obtain ⟨sent, rfl, hasSent⟩ := h
  rw [append?_eq] at appended
  obtain ⟨-, -, buffer⟩ := send?_keeps appended
  have before : HasSent { file with buffer := (file.buffer.append text).1 } disk content offset sent :=
    hasSent
  refine ⟨sent ++ (file.buffer.append text).2, ?_, before.send? appended⟩
  rw [buffer, String.append_assoc, String.append_assoc, Buffer.append_waiting]

theorem Continues.of_kept (h : file.Continues disk content offset held)
    (kept : ∀ node, disk.find? file.location = some node → after.find? file.location = some node) :
    file.Continues after content offset held := by
  obtain ⟨sent, whole, hasSent⟩ := h
  exact ⟨sent, whole, hasSent.of_kept kept⟩

theorem Continues.of_find?_eq (h : file.Continues disk content offset held)
    (same : after.find? file.location = disk.find? file.location) :
    file.Continues after content offset held :=
  h.of_kept fun _ found => same.trans found

/-- Closing sends all that waits, or it changes nothing and nothing can be sent. -/
theorem close_cases (file : OpenFile) (disk : Disk) :
    (∃ after next, file.send? file.buffer.waiting disk = some (after, next) ∧
      file.close disk = (after, true)) ∨
    (file.buffer.waiting ≠ "" ∧ file.sink = .device ∧ file.close disk = (disk, false)) := by
  cases sends : file.send? file.buffer.waiting disk with
  | none =>
      obtain ⟨waits, device⟩ := send?_eq_none_iff.mp sends
      exact .inr ⟨waits, device, by rw [close, sends]⟩
  | some result =>
      obtain ⟨after, next⟩ := result
      exact .inl ⟨after, next, rfl, by rw [close, sends]⟩

/-- Closing a file changes nothing elsewhere. -/
theorem find?_close (file : OpenFile) (disk : Disk) (apart : location ≠ file.location) :
    (file.close disk).1.find? location = disk.find? location := by
  rcases close_cases file disk with ⟨after, next, sends, closed⟩ | ⟨-, -, closed⟩
  · rw [closed]
    exact find?_send? sends apart
  · rw [closed]

/-- Where a file has come to stand in the place of an open file, what still waits goes over that. -/
theorem exists_continues (found : disk.find? file.location = some (.file content)) :
    ∃ offset, (∀ sent, file.sink = .file sent → offset = sent) ∧
      file.Continues disk content offset file.buffer.waiting := by
  cases sink : file.sink with
  | file sent =>
      refine ⟨sent, fun _ same => Sink.file.inj same, "", String.empty_append.symm, ?_⟩
      rw [HasSent, sink, found, overwrite_of_size_eq_zero _ _ rfl]
      exact ⟨rfl, rfl⟩
  | device =>
      refine ⟨0, nofun, "", String.empty_append.symm, ?_⟩
      rw [HasSent, sink]

/-- A text that is not empty is never sent to a device. -/
theorem Continues.room (h : file.Continues disk content offset held) (nonempty : held ≠ "")
    (arrived : (file.close disk).2 = true) : file.sink ≠ .device := by
  intro device
  obtain ⟨sent, rfl, hasSent⟩ := h
  rw [HasSent, device] at hasSent
  rw [show sent = "" from hasSent, String.empty_append] at nonempty
  have fails : file.send? file.buffer.waiting disk = none :=
    send?_eq_none_iff.mpr ⟨nonempty, device⟩
  simp [close, fails] at arrived

/-- What was appended to a file with room is there when the file is closed. -/
theorem Continues.find?_close (h : file.Continues disk content offset held)
    (room : file.sink ≠ .device) :
    (file.close disk).1.find? file.location =
      some (.file (overwrite content offset held.toUTF8)) := by
  obtain ⟨sent, rfl, hasSent⟩ := h
  rcases close_cases file disk with ⟨after, next, sends, closed⟩ | ⟨-, device, -⟩
  · have filled := hasSent.send? sends
    obtain ⟨-, location, -⟩ := send?_keeps sends
    rw [closed, ← location]
    cases sink : next.sink with
    | file size =>
        rw [HasSent, sink] at filled
        exact filled.2
    | device =>
        rcases send?_eq_some sends with ⟨-, -, rfl⟩ | ⟨size, -, -, -, rfl⟩
        · exact absurd sink room
        · cases sink
  · exact absurd device room

theorem Fills.find?_close (h : file.Fills disk held) (room : file.sink ≠ .device) :
    (file.close disk).1.find? file.location = some (.file held.toUTF8) := by
  rw [Continues.find?_close h room, overwrite_empty]

end OpenFile

namespace Disk

variable {disk opened after : Disk} {path : Path} {file : OpenFile} {text : String}

/-- All that opening a file can do. -/
theorem openFile?_eq_some (h : disk.openFile? path = some (opened, file)) :
    file.IsAt path ∧ disk.place? path = some path.location ∧
      ((disk.find? path.location = some .fullDevice ∧ opened = disk ∧
          file = { path, location := path.location, sink := .device }) ∨
        ((disk.find? path.location = none ∨
            ∃ content, disk.find? path.location = some (.file content)) ∧
          opened = disk.put path.location (.file .empty) ∧
          file = { path, location := path.location, sink := .file 0 })) := by
  unfold openFile? at h
  cases placed : disk.place? path with
  | none => rw [placed] at h; cases h
  | some location =>
      obtain ⟨rfl, below⟩ := place?_eq_some placed
      rw [placed] at h
      cases found : disk.find? path.location with
      | none =>
          simp only [found] at h
          cases h
          exact ⟨⟨rfl, rfl, below⟩, rfl, .inr ⟨.inl rfl, rfl, rfl⟩⟩
      | some node =>
          simp only [found] at h
          cases node with
          | directory => cases h
          | file content =>
              cases h
              exact ⟨⟨rfl, rfl, below⟩, rfl, .inr ⟨.inr ⟨content, rfl⟩, rfl, rfl⟩⟩
          | fullDevice =>
              cases h
              exact ⟨⟨rfl, rfl, below⟩, rfl, .inl ⟨rfl, rfl, rfl⟩⟩

/-- An opened file is none that is a directory. -/
theorem find?_ne_directory_of_openFile? (h : disk.openFile? path = some (opened, file)) :
    disk.find? path.location ≠ some .directory := by
  obtain ⟨-, -, ⟨isDevice, -⟩ | ⟨nothing | ⟨content, isFile⟩, -⟩⟩ := openFile?_eq_some h
  · simp [isDevice]
  · simp [nothing]
  · simp [isFile]

/-- Nothing has been appended to a file that was just opened. -/
theorem fills_of_openFile? (h : disk.openFile? path = some (opened, file)) :
    file.Fills opened "" := by
  obtain ⟨isAt, -, ⟨-, -, rfl⟩ | ⟨-, rfl, rfl⟩⟩ := openFile?_eq_some h
  · exact ⟨"", rfl, rfl⟩
  · refine ⟨"", rfl, rfl, ?_⟩
    rw [find?_put disk _ _ isAt.belowRoot, if_pos rfl]
    rfl

/-- Opening a file changes nothing elsewhere. -/
theorem find?_openFile? (h : disk.openFile? path = some (opened, file)) {location : Location}
    (apart : location ≠ path.location) : opened.find? location = disk.find? location := by
  obtain ⟨isAt, -, ⟨-, rfl, -⟩ | ⟨-, rfl, -⟩⟩ := openFile?_eq_some h
  · rfl
  · rw [find?_put disk _ location isAt.belowRoot, if_neg apart]

/-- Writing a file changes nothing elsewhere, whether it works or not. -/
theorem find?_writeFile (disk : Disk) (path : Path) (text : String) {location : Location}
    (apart : location ≠ path.location) :
    (disk.writeFile path text).1.find? location = disk.find? location := by
  unfold writeFile
  cases opening : disk.openFile? path with
  | none => rfl
  | some result =>
      obtain ⟨opened, file⟩ := result
      have isAt := (openFile?_eq_some opening).1
      have same := find?_openFile? opening apart
      rw [← isAt.placed] at apart
      simp only
      cases appending : file.append? text opened with
      | none => exact (file.find?_close opened apart).trans same
      | some result =>
          obtain ⟨appended, complete⟩ := result
          have placed := (OpenFile.append?_keeps appending).2
          exact (complete.find?_close appended (by rwa [placed])).trans
            ((OpenFile.find?_append? appending apart).trans same)

/-- A file that was written holds the text, and nothing else is changed. -/
theorem writeFile_eq_true (nonempty : text ≠ "")
    (h : disk.writeFile path text = (after, true)) :
    disk.find? path.location ≠ some .directory ∧
      ∀ other, after.find? other =
        if other = path.location then some (.file text.toUTF8) else disk.find? other := by
  have elsewhere (other : Location) (apart : other ≠ path.location) :=
    find?_writeFile disk path text apart
  rw [h] at elsewhere
  unfold writeFile at h
  cases opening : disk.openFile? path with
  | none => rw [opening] at h; cases h
  | some result =>
      obtain ⟨opened, file⟩ := result
      refine ⟨find?_ne_directory_of_openFile? opening, fun other => ?_⟩
      split
      next here =>
        simp only [opening] at h
        cases appending : file.append? text opened with
        | none => rw [appending] at h; cases h
        | some result =>
            obtain ⟨appended, complete⟩ := result
            simp only [appending] at h
            have filled := (fills_of_openFile? opening).append? appending
            rw [String.empty_append] at filled
            have fills : complete.Fills appended text := filled
            have content :=
              fills.find?_close (fills.room nonempty (congrArg Prod.snd h))
            rwa [((openFile?_eq_some opening).1.append? appending).placed, h, ← here] at content
      next apart => exact elsewhere other apart

end Disk

end MexGlue
