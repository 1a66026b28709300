import Prune.Utility.Table
import Prune.World
import Prune.Host.Run

/-!
Builds by a tool: a process is started, its status decides, and it is killed when it takes too long.
The tools that can be started are the programs of the system and scripts on the disk.
-/

namespace Prune.Tool

open Host

def pollInterval : Nat := 100

/-- When a build is killed: at the first look that finds it running for longer than the timeout. The
first look comes at once. -/
def deadline (timeoutMillis : Nat) : Nat := (timeoutMillis + pollInterval - 1) / pollInterval * pollInterval

def noticed (millis : Nat) : Nat := (millis / pollInterval + 1) * pollInterval

def environment : Env := [("HOME", "/root"), ("LC_CTYPE", "C.UTF-8"), ("PATH", Shell.usualPath)]

/-- The program that is run for a tool, and its arguments; or why the tool cannot be started. A tool
without a directory is looked for. -/
def locate (d : Disk) (tool : Path) (args : List String) : Except Fault (String × List Chars) :=
  let args := args.map Bytes.ofString
  if tool.text.elem 0 || args.any (·.elem 0) then .error .zeroInArgument
  else
    let name := Chars.ofBytes tool.text
    let argv := name :: args.map Chars.ofBytes
    if name.isEmpty then .error .notFound
    else if name.contains '/' then Utility.runnable d environment Utility.scriptDepth name argv
    else
      let tried := (Utility.candidates environment name).map fun path =>
        Utility.runnable d environment Utility.scriptDepth path argv
      match tried.findSome? Except.toOption with
      | some found => .ok found
      | none => .error (if tried.any fun r => r matches .error .denied then .denied else .notFound)

/-- Runs a program to its end, or until it is killed: how it ended, none if it was killed, after how
many milliseconds that was noticed, and the host it leaves. What the program has left behind runs on
until then. -/
def run (h : Host) (timeoutMillis : Nat) (program : Program) : Option Ending × Nat × Host :=
  let begin' := h.jobs.clock
  let (pid, h) := h.launch program
  let h := h.runUntil (begin' + deadline timeoutMillis * 1000) fun h => (h.ending? pid).isSome
  match h.ending? pid with
  | some ending =>
    let millis := noticed ((h.jobs.clock - begin') / 1000)
    (some ending, millis, (h.runUntil (begin' + millis * 1000) fun _ => false).forget pid)
  | none => (none, deadline timeoutMillis, (h.signalGroup pid Signal.kill).forget pid)

def build (s : Settings) (call : BuildCall) (h : Host) : Reply :=
  let args := s.renderArguments call.project call.configuration
  let starting : Note := ⟨.debug, "starting build",
    [("tool", .path s.tool), ("args", .shown (Text.quotedList args))]⟩
  match locate h.disk s.tool args with
  | .error f =>
    { toHost := h
      verdict := some false
      notes := [starting, ⟨.warn, "build tool could not be launched; treating as failure",
        [("tool", .path s.tool), ("error", .shown f.message)]⟩] }
  | .ok (name, argv) =>
    let program := Utility.start Utility.exec name argv environment
    let (ending, millis, h) := run h s.timeoutMillis (program .exit)
    match ending with
    | none =>
      { toHost := h
        verdict := some false
        notes := [starting, ⟨.warn, "build timed out, killing process",
          [("timeout_secs", .number (s.timeoutMillis / 1000))]⟩] }
    | some ending =>
      { toHost := h
        verdict := some (ending.waitStatus == 0)
        notes := [starting, ⟨.debug, "build exited",
          [("status", .shown s!"ExitStatus(unix_wait_status({ending.waitStatus}))"),
            ("elapsed_ms", .number millis)]⟩] }

def oracle (s : Settings) : Oracle := fun _ call h => build s call h

end Prune.Tool
