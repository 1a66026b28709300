import Prune.Disk.Replace
import Prune.Host.Process
import Prune.Log.Filter

/-!
A running sweep: the disk as it is now and everything that has happened, moment by moment. An
interruption between two moments leaves the disk of the earlier one, so whatever holds of every disk
in the past holds wherever the sweep may be cut off. Builds come from an oracle, which sees the
host, may change it, and may end the run there and then.
-/

namespace Prune

structure BuildCall where
  project : Path
  configuration : String
deriving DecidableEq, Repr

/-- Something that a build reports, under the name that all builds have in the log. -/
structure Note where
  level : Level
  message : String
  fields : List (String × Value)

def Note.target : String := "sweeper_engine::oracle"

def Note.event (n : Note) : Event := ⟨n.level, target, n.message, n.fields⟩

/-- What comes of a build: a verdict, or none if the run is cut off, and the host it leaves. -/
structure Reply extends Host where
  verdict : Option Bool
  notes : List Note

/-- Answers the `n`th build of a run, counted from one. -/
abbrev Oracle := Nat → BuildCall → Host → Reply

structure Build where
  call : BuildCall
  before : Disk
  verdict : Option Bool
deriving DecidableEq, Repr

inductive Moment where
  | change (disk : Disk)
  | build (build : Build) (after : Disk)
  | event (event : Event)
deriving DecidableEq, Repr

/-- A log that was opened: the number of its file, or none if what is written to it leaves no trace.
Every line carries the same stamp. -/
structure LogFile where
  file : Option Nat
  filter : Log.Filter
  format : LogFormat
  stamp : String
deriving DecidableEq, Repr

structure World extends Host where
  /-- What has happened, the latest first. -/
  past : List Moment
  log : Option LogFile

namespace World

def start (h : Host) : World := ⟨h, [], none⟩

def history (w : World) : List Moment := w.past.reverse

def builds (w : World) : List Build :=
  w.history.filterMap fun
    | .build b _ => some b
    | _ => none

def events (w : World) : List Event :=
  w.history.filterMap fun
    | .event e => some e
    | _ => none

def change (w : World) (disk : Disk) : World := { w with disk, past := .change disk :: w.past }

end World

namespace LogFile

def append (log : LogFile) (e : Event) (d : Disk) : Disk :=
  match log.file with
  | some number =>
    if log.filter.passes e then d.appendHeld number (Bytes.ofString (e.line log.format log.stamp))
    else d
  | none => d

def close (log : LogFile) (h : Host) : Host :=
  match log.file with
  | some number => { h with disk := h.disk.letGo number }
  | none => h

end LogFile

def World.emit (w : World) (e : Event) : World :=
  let disk := match w.log with
    | some log => log.append e w.disk
    | none => w.disk
  { w with disk, past := .event e :: w.past }

/-- Work on a world that runs to its end. -/
abbrev Work := StateM World

/-- The run was cut off at a build. -/
structure Interrupted where
deriving DecidableEq, Repr

/-- Work that a build can cut off. -/
abbrev Run := ExceptT Interrupted Work

namespace Work

def disk : Work Disk := do return (← get).disk

def report (level : Level) (target message : String) (fields : List (String × Value)) : Work Unit :=
  modify (·.emit ⟨level, target, message, fields⟩)

def carryOut (change : Disk → Except Fault Disk) : Work (Except Fault Unit) := do
  match change (← disk) with
  | .ok d => modify (·.change d); return .ok ()
  | .error f => return .error f

/-- Between the disks that a copy goes through a run may be cut off. -/
def copy (source target : Path) : Work (Except Fault Unit) := do
  match (← disk).copy source target with
  | .ok disks => modify (disks.foldl World.change ·); return .ok ()
  | .error f => return .error f

def replace (p : Path) (content : Bytes) : Work (Except Fault Unit) := do
  match (← disk).replace p content with
  | (.ok (), d) => modify (·.change d); return .ok ()
  | (.error f, d) => modify ({ · with disk := d }); return .error f

end Work

def Run.build (oracle : Oracle) (call : BuildCall) : Run Bool := do
  let w ← get
  let reply := oracle (w.builds.length + 1) call w.toHost
  let build : Build := ⟨call, w.disk, reply.verdict⟩
  set { w with toHost := reply.toHost, past := .build build reply.disk :: w.past }
  reply.notes.forM fun n => modify (·.emit n.event)
  match reply.verdict with
  | some verdict => return verdict
  | none => throw ⟨⟩

end Prune
