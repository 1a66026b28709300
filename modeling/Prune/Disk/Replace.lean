import Prune.Artefact
import Prune.Disk.Access

/-!
Replacing a file in one step: the new content goes to a temporary in the same directory, which is
then renamed over the target. Whoever looks sees the old file or the new one.
-/

namespace Prune.Disk

def privateMode : Nat := 0o600

/-- The bits a replaced file passes on: those of the regular file that `p` leads to, if any. -/
def inheritedMode (d : Disk) (p : Path) : Except Fault (Option Nat) :=
  match d.stat p with
  | .ok (.file mode _) => .ok (some mode)
  | .ok _ | .error .notFound => .ok none
  | .error f => .error f

/-- How the name of the `n`th temporary tried ends: in six digits, and in one more for each million
tried before. -/
def suffix (n : Nat) : Bytes :=
  [100000, 10000, 1000, 100, 10, 1].map (fun unit => UInt8.ofNat (0x30 + n / unit % 10)) ++
    List.replicate (n / 1000000) 0x30

/-- How the end of a temporary's name is written where it has none yet. -/
def openSuffix : Bytes := "XXXXXX"

def freeName (d : Disk) (home : Location) (start : Bytes) : Nat → Nat → Bytes
  | 0, n => start ++ suffix n
  | tries + 1, n =>
    if (d.get? (home ++ [start ++ suffix n])).isNone then start ++ suffix n
    else freeName d home start tries (n + 1)

/-- A free name for a temporary in `dir`. Whether one can be made there is asked of the name that is
still open at its end; one more than there are entries is tried. -/
def temporary (d : Disk) (dir : Path) (start : Bytes) : Except Fault Location :=
  let template := dir.join (start ++ openSuffix)
  match d.resolve false template with
  | .error f => .error (.making f template)
  | .ok place =>
    let home := place.location.dropLast
    if d.mayAlter home then .ok (home ++ [d.freeName home start d.entries.length 0])
    else .error (.making .denied template)

/-- Renames the file at `loc` to `target`. A link there is replaced itself. -/
def renameOver (d : Disk) (loc : Location) (target : Path) : Except Fault Disk := do
  match ← d.locate target with
  | .unnamed => .error .busy
  | .named dir name =>
    let new := dir ++ [name]
    if endsInSlash target then .error .notDirectory
    else
      match d.get? new, d.get? loc with
      | some (.dir _), _ => .error .isDirectory
      | _, some e => return (((d.release new).erase loc).put new e).noteNew new
      | _, none => .error .notFound

/-- `content` as the file at `p`, all at once. When it fails the temporary is taken away again. -/
def replace (d : Disk) (p : Path) (content : Bytes) : Except Fault Unit × Disk :=
  match d.inheritedMode p with
  | .error f => (.error f, d)
  | .ok mode? =>
    match d.temporary p.directory (Artefact.temporaryStart p) with
    | .error f => (.error f, d)
    | .ok loc =>
      let made := d.put loc (.file privateMode [])
      let filled := made.put loc (.file privateMode content)
      let ready := match mode? with
        | some mode => filled.put loc (.file mode content)
        | none => filled
      match ready.renameOver loc p with
      | .ok done => (.ok (), done)
      | .error f => (.error f, ready.erase loc)

end Prune.Disk
