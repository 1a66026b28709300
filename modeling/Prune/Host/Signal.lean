/-!
Signals by number, with their names and what they do to a process that does not say otherwise.
-/

namespace Prune.Host

inductive Effect where
  | terminate | ignore | stop | resume

namespace Signal

def int : Nat := 2

def quit : Nat := 3

def kill : Nat := 9

def pipe : Nat := 13

def term : Nat := 15

def child : Nat := 17

def resume : Nat := 18

def names : List String :=
  ["HUP", "INT", "QUIT", "ILL", "TRAP", "ABRT", "BUS", "FPE", "KILL", "USR1", "SEGV", "USR2", "PIPE",
    "ALRM", "TERM", "STKFLT", "CHLD", "CONT", "STOP", "TSTP", "TTIN", "TTOU", "URG", "XCPU", "XFSZ",
    "VTALRM", "PROF", "WINCH", "IO", "PWR", "SYS"]

def last : Nat := 64

def name? (n : Nat) : Option String := if n = 0 then none else names[n - 1]?

def ofName? (name : String) : Option Nat := (names.findIdx? (· == name)).map (· + 1)

def effect (n : Nat) : Effect :=
  if n = child ∨ n = 23 ∨ n = 28 then .ignore
  else if n = resume then .resume
  else if 19 ≤ n ∧ n ≤ 22 then .stop
  else .terminate

def description (n : Nat) : String :=
  match n with
  | 1 => "Hangup"
  | 2 => "Interrupt"
  | 3 => "Quit"
  | 4 => "Illegal instruction"
  | 5 => "Trace/breakpoint trap"
  | 6 => "Aborted"
  | 7 => "Bus error"
  | 8 => "Floating point exception"
  | 9 => "Killed"
  | 10 => "User defined signal 1"
  | 11 => "Segmentation fault"
  | 12 => "User defined signal 2"
  | 13 => "Broken pipe"
  | 14 => "Alarm clock"
  | 15 => "Terminated"
  | 16 => "Stack fault"
  | 24 => "CPU time limit exceeded"
  | 25 => "File size limit exceeded"
  | 26 => "Virtual timer expired"
  | 27 => "Profiling timer expired"
  | 29 => "I/O possible"
  | 30 => "Power failure"
  | 31 => "Bad system call"
  | n => s!"Real-time signal {n - 34}"

end Signal

end Prune.Host
