import Prune.Disk.Access
import Prune.Host.Call
import Prune.Host.Signal

/-!
A host: a disk and the processes at work on it, with what they have open. Everything a process has
open is a stream, which processes share when one splits off another.
-/

namespace Prune.Host

inductive Target where
  | file (number : Nat)
  | pipe (number : Nat)
  | null
  | full
  | zero
  | fixed (content : Chars)
  | directory
deriving DecidableEq

structure Stream where
  number : Nat
  target : Target
  offset : Nat
  reads : Bool
  writes : Bool
  appends : Bool

structure Slot where
  fd : Nat
  stream : Nat
  /-- Not passed on to a program that takes over. -/
  hidden : Bool

structure Pipe where
  number : Nat
  content : Chars

structure Process where
  pid : Nat
  parent : Nat
  group : Nat
  slots : List Slot
  cwd : Location
  umask : Nat
  handlings : List (Nat × Handling)
  /-- Signals the process has not looked at yet. -/
  caught : List Nat
  stopped : Bool
  /-- Signals that came while it was stopped. -/
  waiting : List Nat
  program : Program
  ending : Option Ending

/-- The processes, what they have open, and the time in microseconds. -/
structure Jobs where
  clock : Nat
  processes : List Process
  streams : List Stream
  pipes : List Pipe
  next : Nat

def Jobs.idle : Jobs := ⟨dawn, [], [], [], 4096⟩

end Prune.Host

namespace Prune

open Host

structure Host where
  disk : Disk
  jobs : Jobs

namespace Host

def ofDisk (d : Disk) : Host := ⟨d, .idle⟩

def outside : Nat := 0

def orphanage : Nat := 1

variable (h : Host)

def process? (pid : Nat) : Option Process := h.jobs.processes.find? (·.pid = pid)

def stream? (number : Nat) : Option Stream := h.jobs.streams.find? (·.number = number)

def streamAt? (p : Process) (fd : Nat) : Option Stream :=
  (p.slots.find? (·.fd = fd)).bind fun s => h.stream? s.stream

def modifyJobs (f : Jobs → Jobs) : Host := { h with jobs := f h.jobs }

def modifyProcess (pid : Nat) (f : Process → Process) : Host :=
  h.modifyJobs fun j => { j with processes := j.processes.map fun p => if p.pid = pid then f p else p }

def modifyStream (number : Nat) (f : Stream → Stream) : Host :=
  h.modifyJobs fun j => { j with streams := j.streams.map fun s => if s.number = number then f s else s }

def modifyPipe (number : Nat) (f : Chars → Chars) : Host :=
  h.modifyJobs fun j => { j with
    pipes := j.pipes.map fun p => if p.number = number then { p with content := f p.content } else p }

def setClock (time : Nat) : Host := ⟨{ h.disk with now := time }, { h.jobs with clock := time }⟩

def diskOf (p : Process) : Disk := { h.disk with cwd := p.cwd }

def withDisk (d : Disk) : Host := { h with disk := { d with cwd := h.disk.cwd } }

/-- Closes the streams that nobody has open any more, and gives up what they led to. -/
def tidy : Host :=
  let used := h.jobs.processes.flatMap fun p => p.slots.map (·.stream)
  let (kept, dropped) := h.jobs.streams.partition fun s => used.contains s.number
  if dropped.isEmpty then h
  else
    let disk := dropped.foldl (fun d s =>
      match s.target with
      | .file number => d.letGo number
      | _ => d) h.disk
    let pipes := h.jobs.pipes.filter fun p => kept.any fun s => s.target = .pipe p.number
    ⟨disk, { h.jobs with streams := kept, pipes }⟩

/-- The lowest number, from `lowest` on, that a process has nothing open under. -/
def freeFd (p : Process) (lowest : Nat) : Nat :=
  let taken := p.slots.map (·.fd)
  ((List.range (taken.length + 1)).map (lowest + ·)).find? (!taken.contains ·) |>.getD lowest

def addStream (target : Target) (reads writes appends : Bool) : Nat × Host :=
  let number := h.jobs.next
  (number, h.modifyJobs fun j => { j with
    streams := ⟨number, target, 0, reads, writes, appends⟩ :: j.streams
    next := number + 1 })

def addSlot (pid fd stream : Nat) (hidden : Bool) : Host :=
  h.modifyProcess pid fun p => { p with slots := ⟨fd, stream, hidden⟩ :: p.slots.filter (·.fd ≠ fd) }

end Host

namespace Host.Process

def handlingOf (p : Process) (signal : Nat) : Handling := (p.handlings.lookup signal).getD .default

def obey (p : Process) (signal : Nat) : Process :=
  match p.handlingOf signal with
  | .ignore => p
  | .catch => { p with caught := p.caught.filter (· ≠ signal) ++ [signal] }
  | .default =>
    match Signal.effect signal with
    | .terminate => { p with ending := some (.killed signal) }
    | .stop => { p with stopped := true }
    | _ => p

/-- A signal for a process. One that is stopped waits with all but the signals that end or resume
it. -/
def receive (p : Process) (signal : Nat) : Process :=
  if p.ending.isSome then p
  else if signal = Signal.kill then { p with ending := some (.killed signal) }
  else if signal = Signal.resume then
    (p.waiting ++ [signal]).foldl obey { p with stopped := false, waiting := [] }
  else if p.stopped then { p with waiting := p.waiting ++ [signal] }
  else p.obey signal

end Host.Process

namespace Host

variable (h : Host)

/-- What is left to do when a process has ended: its streams are closed, its children get another
parent, and its own parent hears of it. It stays known until its parent has asked for its end. -/
def bury (pid : Nat) : Host :=
  match h.process? pid with
  | none => h
  | some p =>
    let hasParent := p.parent = outside || (h.process? p.parent).isSome
    let others := h.jobs.processes.filterMap fun q =>
      if q.pid = pid then if hasParent then some { q with slots := [], program := .exit 0 } else none
      else if q.parent = pid then
        if q.ending.isSome then none else some { q with parent := orphanage }
      else if q.pid = p.parent then some (q.receive Signal.child)
      else some q
    (h.modifyJobs fun j => { j with processes := others }).tidy

def finish (pid : Nat) (ending : Ending) : Host :=
  (h.modifyProcess pid fun p => { p with ending := some ending }).bury pid

def signal (pid signal : Nat) : Host :=
  match h.process? pid with
  | none => h
  | some p =>
    let q := p.receive signal
    let h := h.modifyProcess pid fun _ => q
    if p.ending.isNone && q.ending.isSome then h.bury pid else h

def signalGroup (group signal : Nat) : Host :=
  ((h.jobs.processes.filter (·.group = group)).map (·.pid)).foldl (fun h pid => h.signal pid signal) h

def forget (pid : Nat) : Host :=
  h.modifyJobs fun j => { j with processes := j.processes.filter (·.pid ≠ pid) }

/-- Starts a process from outside, in a group of its own, with nothing to read and its output
dropped. -/
def launch (program : Program) : Nat × Host :=
  let (stream, h) := h.addStream .null true true false
  let pid := h.jobs.next
  let slots := [0, 1, 2].map fun fd => ⟨fd, stream, false⟩
  let process : Process := ⟨pid, outside, pid, slots, h.disk.cwd, 0o22, [], [], false, [], program, none⟩
  (pid, h.modifyJobs fun j => { j with processes := j.processes ++ [process], next := pid + 1 })

def split (p : Process) (program : Program) : Nat × Host :=
  let pid := h.jobs.next
  let child := { p with
    pid, parent := p.pid, caught := [], stopped := false, waiting := [], program, ending := none }
  (pid, h.modifyJobs fun j => { j with processes := j.processes ++ [child], next := pid + 1 })

end Host

end Prune
