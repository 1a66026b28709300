import Prune.Host.Answer

/-!
Letting processes run. They take turns; when all of them wait, the clock moves on to the next moment
at which one of them wants to be woken.
-/

namespace Prune.Host

def callTime : Nat := 5

def turnLength : Nat := 256

def tick (h : Host) : Host := h.setClock (h.jobs.clock + callTime)

/-- One process runs until it has to wait, ends, has had its turn, or the clock is at `limit`. -/
def turn (limit pid : Nat) : Nat → Host → Host
  | 0, h => h
  | n + 1, h =>
    match h.process? pid with
    | none => h
    | some p =>
      if limit ≤ h.jobs.clock || p.ending.isSome || p.stopped then h
      else
        match p.program with
        | .exit status => (h.finish pid (.exited (status % 256))).tick
        | .fork child next =>
          let (number, h) := h.split p child
          turn limit pid n (h.modifyProcess pid fun p => { p with program := next number }).tick
        | .call c next =>
          match h.attempt p c with
          | none => h
          | some (answer, h) =>
            turn limit pid n (h.modifyProcess pid fun p => { p with program := next answer }).tick

def turns (limit : Nat) (h : Host) : Host :=
  (h.jobs.processes.map (·.pid)).foldl (fun h pid => turn limit pid turnLength h) h

def due? (p : Process) : Option Nat :=
  if p.ending.isSome || p.stopped then none
  else
    match p.program with
    | .call (.sleepUntil time) _ => some time
    | _ => none

/-- The next moment at which something can happen, at most `limit`. -/
def nextMoment (limit : Nat) (h : Host) : Nat := (h.jobs.processes.filterMap due?).foldl min limit

/-- Lets the processes run until the clock is at `limit` or `halt` holds. Every round takes time, so
`fuel` need not be more than the time left. -/
def runFor (limit : Nat) (halt : Host → Bool) : Nat → Host → Host
  | 0, h => h
  | fuel + 1, h =>
    if halt h || limit ≤ h.jobs.clock then h
    else
      let moved := h.turns limit
      if h.jobs.clock < moved.jobs.clock then runFor limit halt fuel moved
      else runFor limit halt fuel (moved.setClock (max (moved.jobs.clock + 1) (nextMoment limit moved)))

def runUntil (limit : Nat) (halt : Host → Bool) (h : Host) : Host :=
  runFor limit halt (limit - h.jobs.clock + 1) h

def pass (micros : Nat) (h : Host) : Host := h.runUntil (h.jobs.clock + micros) fun _ => false

def ending? (h : Host) (pid : Nat) : Option Ending := (h.process? pid).bind (·.ending)

end Prune.Host
