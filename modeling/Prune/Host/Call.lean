import Prune.Disk.Basic
import Prune.Text.Chars

/-!
Programs as the system sees them: a program asks for something, waits for the answer and goes on with
it, or splits in two, or ends.
-/

namespace Prune.Host

structure Access where
  reads : Bool
  writes : Bool
  empties : Bool
  appends : Bool

namespace Access

def reading : Access := ⟨true, false, false, false⟩

def writing : Access := ⟨false, true, true, false⟩

def appending : Access := ⟨false, true, false, true⟩

def overwriting : Access := ⟨false, true, false, false⟩

def both : Access := ⟨true, true, false, false⟩

end Access

inductive Ending where
  | exited (status : Nat)
  | killed (signal : Nat)
deriving DecidableEq

def Ending.waitStatus : Ending → Nat
  | .exited status => status * 256
  | .killed signal => signal

inductive Handling where
  | default
  | ignore
  /-- It looks at the signal when it has time for it. -/
  | catch
deriving DecidableEq

inductive Awaited where
  | ended (pid : Nat) (how : Ending)
  | noneYet
  | noChild
  | interrupted

structure Description where
  isFile : Bool
  size : Nat
  place : Option Location

inductive Call where
  | work
  | now
  | sleepUntil (time : Nat)
  | disk
  | change (f : Disk → Except Fault Disk)
  | open (path : Path) (access : Access) (mode : Nat)
  | close (fd : Nat)
  /-- Another number, from `lowest` on, for what is open under `fd`; a program started later does not
  get it. -/
  | duplicate (fd lowest : Nat)
  | duplicateTo (fd target : Nat)
  | pipe
  /-- At most `count` characters, and none behind the end of a line if `line` is set. -/
  | read (fd count : Nat) (line : Bool)
  | write (fd : Nat) (text : Chars)
  /-- Back by `count` characters, where that is possible. -/
  | rewind (fd count : Nat)
  | describe (fd : Nat)
  | enter (path : Path)
  | umask (new : Option Nat)
  | self
  | parent
  | await (child : Option Nat) (patient interruptible : Bool)
  | kill (target : Int) (signal : Nat)
  | handle (signal : Nat) (how : Handling)
  | handling (signal : Nat)
  | signals
  /-- Another program takes over: it gets only the numbers and signals meant for it. -/
  | takeOver
  | lead

@[reducible] def Call.Answer : Call → Type
  | .work => Unit
  | .now => Nat
  | .sleepUntil _ => Unit
  | .disk => Disk
  | .change _ => Except Fault Unit
  | .open .. => Except Fault Nat
  | .close _ => Unit
  | .duplicate .. => Except Fault Nat
  | .duplicateTo .. => Except Fault Unit
  | .pipe => Nat × Nat
  | .read .. => Except Fault Chars
  | .write .. => Except Fault Nat
  | .rewind .. => Unit
  | .describe _ => Option Description
  | .enter _ => Except Fault Unit
  | .umask _ | .self | .parent => Nat
  | .await .. => Awaited
  | .kill .. => Except Fault Unit
  | .handle .. => Unit
  | .handling _ => Handling
  | .signals => List Nat
  | .takeOver | .lead => Unit

inductive Program where
  | exit (status : Nat)
  | call (c : Call) (next : c.Answer → Program)
  /-- A second process runs `child`; this one goes on with its number. -/
  | fork (child : Program) (next : Nat → Program)

instance : Inhabited Program := ⟨.exit 0⟩

/-- A part of a program that comes to a value, unless the program ends in it. -/
def Act (α : Type) : Type := (α → Program) → Program

namespace Act

instance : Monad Act where
  pure a := fun k => k a
  bind t f := fun k => t fun a => f a k

def ask (c : Call) : Act c.Answer := fun k => .call c k

def exit (status : Nat) : Act α := fun _ => .exit status

def fork (child : Act Nat) : Act Nat := fun k => .fork (child .exit) k

end Act

abbrev Env := List (Chars × Chars)

/-- Runs the program at a path, with its arguments from its own name on, in the place of the caller;
comes back only if that cannot be done. -/
abbrev Exec := Chars → List Chars → Env → Act Fault

end Prune.Host
