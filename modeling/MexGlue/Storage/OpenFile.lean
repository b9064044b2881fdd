import MexGlue.Storage.Disk

/-!
# Open files

A file opened for writing loses what it held. Text that is appended to it waits: it is collected in
chunks, and chunks are collected in a block. What the block cannot hold is sent to the disk, and what
still waits is sent when the file is closed. An open file knows how much it has sent, and writes behind
that, whatever has come to stand there by then: if its place was written under another name in between,
neither knows of the other. A device without room takes nothing, so it fails as late as it can.
-/

namespace MexGlue

/-- Text that waits to be sent, the block in front of the chunk. -/
structure Buffer where
  block : String := ""
  chunk : String := ""
  deriving DecidableEq, Repr

namespace Buffer

/-- The size of a chunk in bytes. -/
def chunkSize : Nat := 8192

/-- The size of a block in bytes. -/
def blockSize : Nat := 4096

/-- All text that waits, in the order of appending. -/
def waiting (buffer : Buffer) : String := buffer.block ++ buffer.chunk

/-- Moves the chunk to the block, and gives what is sent in that. A block without room for the chunk is
sent, and so is the chunk if it is larger than a block. -/
def moveChunk (buffer : Buffer) : Buffer × String :=
  if buffer.block.utf8ByteSize + buffer.chunk.utf8ByteSize ≤ blockSize then
    ({ block := buffer.waiting }, "")
  else if buffer.chunk.utf8ByteSize ≤ blockSize then ({ block := buffer.chunk }, buffer.block)
  else ({}, buffer.waiting)

/-- Moves a chunk that would grow past its size with this many bytes more. -/
def makeRoom (buffer : Buffer) (bytes : Nat) : Buffer × String :=
  if chunkSize < buffer.chunk.utf8ByteSize + bytes then buffer.moveChunk else (buffer, "")

/-- Moves a chunk that has its size. -/
def settle (buffer : Buffer) : Buffer × String :=
  if chunkSize ≤ buffer.chunk.utf8ByteSize then buffer.moveChunk else (buffer, "")

/-- Appends a text, and gives what is sent in that. -/
def append (buffer : Buffer) (text : String) : Buffer × String :=
  let roomy := buffer.makeRoom text.utf8ByteSize
  let settled := settle { roomy.1 with chunk := roomy.1.chunk ++ text }
  (settled.1, roomy.2 ++ settled.2)

end Buffer

/-- Where text is sent. -/
inductive Sink where
  /-- Into a file, behind the number of bytes that were sent before. -/
  | file (sent : Nat)
  /-- To a device without room. -/
  | device
  deriving DecidableEq, Repr

structure OpenFile where
  path : Path
  location : Location
  sink : Sink
  buffer : Buffer := {}
  deriving DecidableEq, Repr

/-- What a file holds once bytes were written at an offset. If it was shorter, there are zeros in
front of them. Writing no bytes does nothing. -/
def overwrite (content : ByteArray) (offset : Nat) (bytes : ByteArray) : ByteArray :=
  if bytes.size = 0 then content
  else
    let held := content.data.toList
    ⟨(held.take offset ++ List.replicate (offset - held.length) 0 ++ bytes.data.toList ++
      held.drop (offset + bytes.size)).toArray⟩

namespace Disk

/-- Writes bytes to a file at an offset. Where no file is nothing is written. -/
def writeAt (disk : Disk) (location : Location) (offset : Nat) (bytes : ByteArray) : Disk :=
  match disk.find? location with
  | some (.file content) => disk.put location (.file (overwrite content offset bytes))
  | _ => disk

/-- Opens the file that a path names, and empties it. -/
def openFile? (disk : Disk) (path : Path) : Option (Disk × OpenFile) :=
  match disk.place? path with
  | none => none
  | some location =>
      match disk.find? location with
      | some .directory => none
      | some .fullDevice => some (disk, { path, location, sink := .device })
      | _ => some (disk.put location (.file .empty), { path, location, sink := .file 0 })

end Disk

namespace OpenFile

/-- Sends a text, if there is any and it can be sent. -/
def send? (file : OpenFile) (text : String) (disk : Disk) : Option (Disk × OpenFile) :=
  if text = "" then some (disk, file)
  else
    match file.sink with
    | .file sent =>
        some (disk.writeAt file.location sent text.toUTF8,
          { file with sink := .file (sent + text.utf8ByteSize) })
    | .device => none

def append? (file : OpenFile) (text : String) (disk : Disk) : Option (Disk × OpenFile) :=
  let (buffer, sending) := file.buffer.append text
  { file with buffer := buffer }.send? sending disk

/-- Closes an open file, and tells whether all that still waited could be sent. -/
def close (file : OpenFile) (disk : Disk) : Disk × Bool :=
  match file.send? file.buffer.waiting disk with
  | some (closed, _) => (closed, true)
  | none => (disk, false)

end OpenFile

/-- Writes a whole file, and tells whether that worked. -/
def Disk.writeFile (disk : Disk) (path : Path) (text : String) : Disk × Bool :=
  match disk.openFile? path with
  | none => (disk, false)
  | some (opened, file) =>
      match file.append? text opened with
      | none => ((file.close opened).1, false)
      | some (appended, complete) => complete.close appended

end MexGlue
