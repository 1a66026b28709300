import Prune.CommandLine.Run
import Std.Time.DateTime.Timestamp

/-!
Points in time as text: the date and the time of day in UTC, as in `2024-02-29T23:59:59.5Z`.
-/

namespace Prune.Log

def padded (width n : Nat) : String := String.ofList ((Nat.toDigits 10 n).leftpad width '0')

/-- The fraction of a second, without zeros at its end; nothing for a whole second. -/
def fraction (nanos : Nat) : String :=
  if nanos = 0 then ""
  else
    let digits := (Nat.toDigits 10 nanos).leftpad 9 '0'
    "." ++ String.ofList (digits.reverse.dropWhile (· == '0')).reverse

def stamp (seconds nanos : Nat) : String :=
  let d := Calendar.Day.ofEpoch (seconds / 86400 : Nat)
  let t := seconds % 86400
  padded 4 d.year.toNat ++ "-" ++ padded 2 d.month ++ "-" ++ padded 2 d.day ++ "T" ++
    padded 2 (t / 3600) ++ ":" ++ padded 2 (t / 60 % 60) ++ ":" ++ padded 2 (t % 60) ++
    fraction nanos ++ "Z"

end Prune.Log

/-!
The program. It takes a picture of the working directory, works on that, and then carries over what
has changed. Links are left out of the picture. The permission bits of a file are not known here, so
a script counts as executable.
-/

namespace Prune.Main

def assumedMode (content : Bytes) : Nat :=
  if (Utility.interpreter? content).isSome then 0o755 else Disk.plainMode

partial def picture (dir : Location) (e : IO.FS.DirEntry) : IO (List (Location × Entry)) := do
  let here := dir ++ [Bytes.ofString e.fileName]
  match (← e.path.symlinkMetadata).type with
  | .dir =>
    let parts ← (← e.path.readDir).toList.mapM (picture here)
    return (here, .dir Disk.plainDirMode) :: parts.flatten
  | .file =>
    let content := (← IO.FS.readBinFile e.path).toList
    return [(here, .file (assumedMode content) content)]
  | _ => return []

def waysTo (l : Location) : List (Location × Entry) :=
  ((List.range l.length).map fun n => (l.take (n + 1), .dir Disk.plainDirMode))

def takePicture : IO Disk := do
  let top ← IO.currentDir
  let cwd := Disk.names (Bytes.ofString top.toString)
  let parts ← (← top.readDir).toList.mapM (picture cwd)
  return { entries := waysTo cwd ++ parts.flatten ++ Disk.systemEntries, cwd }

def relative (names : Location) : String := Utf8.lossy (Bytes.joinWith Path.slash names)

def rights (mode : Nat) : IO.FileRight :=
  let rwx (unit : Nat) : IO.AccessRight :=
    ⟨Disk.allows mode (4 * unit), Disk.allows mode (2 * unit), Disk.allows mode unit⟩
  ⟨rwx 0o100, rwx 0o10, rwx 1⟩

def carryOver (before after : Disk) : IO Unit := do
  let old := before.below before.cwd
  let new := after.below after.cwd
  for (names, e) in sortBy (fun a b => b.1.length ≤ a.1.length) old do
    if (new.lookup names).map Entry.isDir != some e.isDir then
      if e.isDir then IO.FS.removeDir (relative names) else IO.FS.removeFile (relative names)
  for (names, e) in sortBy (fun a b => a.1.length ≤ b.1.length) new do
    if old.lookup names != some e then
      match e with
      | .dir _ => IO.FS.createDirAll (relative names)
      | .file mode content =>
        IO.FS.writeBinFile (relative names) ⟨content.toArray⟩
        if (old.lookup names).isNone then IO.setAccessRights (relative names) (rights mode)
      | _ => pure ()

end Prune.Main

open Prune in
def main (args : List String) : IO UInt32 := do
  let now ← Std.Time.Timestamp.now
  let stamp := Log.stamp now.toSecondsSinceUnixEpoch.val.toNat 0
  let disk ← Main.takePicture
  let result := CommandLine.program stamp (args.map Bytes.ofString) (.ofDisk disk)
  Main.carryOver disk result.host.disk
  IO.print result.stdout
  IO.eprint result.stderr
  return match result.exit with
    | some exit => UInt32.ofNat exit.code
    | none => 137
