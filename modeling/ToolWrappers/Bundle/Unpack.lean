import ToolWrappers.Bundle.Download
import ToolWrappers.Zip.Library

/-! Unpacking the tool bundle. The bundle directory of an earlier run is removed first, and then the
entries of the archive are replayed in order. -/

namespace ToolWrappers.Bundle

/-- Whether the name of an entry might lead out of the target directory. -/
def isUnsafe (name : String) : Bool :=
  Text.contains "..".toList name.toList || name.toList.head? = some '/'
    || name.toList.head? = some '\\'

/-- An archive that is open: the path by which messages show it, the place of its file, and the bytes that
the file had when its directory was read. -/
structure Archive where
  path : String
  place : Place
  bytes : ByteArray

/-- The bytes of the archive's file as they are by now. -/
def Archive.now (a : Archive) : Action Failure ByteArray := do return (← get).bytesAt a.place

section

variable [User]

/-- Extracts one entry. Its file is emptied before the data is read, so an entry that is written over the
archive itself finds no data. The data is written before an error in it counts, and the mode is set
last. -/
def extractRecord (a : Archive) (target : String) (r : Zip.Record) (read : ByteArray → Zip.Data) :
    Action Failure Unit := do
  if isUnsafe r.name then throw (.unsafeEntry r.name)
  let path := Path.join target r.name
  if r.isDirectory then (Action.makeDirs path).orFail (.creating path)
  else
    makeParents path
    (Action.writeFile path .empty).orFail (.creating path)
    let data := read (← a.now)
    (Action.writeFile path data.bytes).orFail (.extracting r.name)
    if !data.intact then throw (.extracting r.name)
    match r.mode? with
    | none => pure ()
    | some mode => (Action.setMode path mode).orFail (.settingMode path)

/-- Extracts the entries of the records from the one with this index on. Each is opened when its turn
comes. -/
def extractAll (lib : Zip.Library) (a : Archive) (target : String) :
    Nat → List Zip.Record → Action Failure Unit
  | _, [] => pure ()
  | index, r :: rest => do
    match lib.open? a.bytes index (← a.now) with
    | none => throw (.readingEntry index a.path)
    | some read => extractRecord a target r read
    extractAll lib a target (index + 1) rest

/-- Opens the archive at a path and reads its directory. -/
def openArchive (lib : Zip.Library) (path : String) :
    Action Failure (Archive × List Zip.Record) := do
  let t ← get
  match t.find path with
  | .error _ => throw (.opening path)
  | .ok place =>
    match t.get? place with
    | some (.file mode bytes) =>
      if mayRead mode then
        match lib.records? bytes with
        | none => throw (.notAnArchive path)
        | some records => return (⟨path, place, bytes⟩, records)
      else throw (.opening path)
    | _ => throw (.notAnArchive path)

/-- Removes the bundle directory, if it is there, and extracts the archive into the target. -/
def unpack (lib : Zip.Library) (archive target bundleDir : String) : Action Failure Unit := do
  if (← get).has bundleDir then (Action.removeDir bundleDir).orFail (.removing bundleDir)
  let (a, records) ← openArchive lib archive
  extractAll lib a target 0 records

end

end ToolWrappers.Bundle
