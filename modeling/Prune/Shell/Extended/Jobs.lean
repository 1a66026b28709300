import Prune.Shell.Extended.Options

/-!
Built-in commands on processes and signals.
-/

namespace Prune.Shell.Builtin

open Host Sh

def note (pid : Nat) (ending : Ending) : Sh Unit := modify fun s =>
  { s with jobs := s.jobs.map fun j =>
      { j with members := j.members.map fun m => if m.1 = pid then (pid, some ending) else m } }

def running (j : Job) : List Nat :=
  j.members.filterMap fun (pid, ending) => if ending.isSome then none else some pid

def awaitEach : List Nat → Sh Bool
  | [] => return true
  | pid :: rest => do
    match ← ask (.await (some pid) true true) with
    | .ended _ ending =>
      note pid ending
      announce pid ending
      awaitEach rest
    | .interrupted => return false
    | _ =>
      note pid (.exited 127)
      awaitEach rest

/-- The job that a word beginning with `%` stands for: the current one, the one before it, or one by
its number. -/
def jobOf? (s : State) (word : Chars) : Option Job :=
  match word with
  | ['%'] | ['%', '%'] | ['%', '+'] => s.jobs.getLast?
  | ['%', '-'] => s.jobs.dropLast.getLast?
  | '%' :: digits => (Chars.toNat? digits).bind fun n => s.jobs.find? (·.number = n)
  | _ => none

def jobOf (command : String) (word : Chars) : Sh Job := do
  match jobOf? (← get) word with
  | some job => return job
  | none => refuse command ("No such job: " ++ word)

def cutShort (self : Self) : Sh Nat := do
  let signals ← ask .signals
  for signal in signals do
    let some text := (← get).traps.lookup signal | pure ()
    let _ ← self.runText text ⟨false, false⟩
  return 128 + signals.headD 0

def wait : Builtin := fun self _ args => do
  let markWaited (isMeant : Job → Bool) : Sh Unit := modify fun s =>
    { s with jobs := s.jobs.map fun j => if isMeant j then { j with waited := true } else j }
  if args.isEmpty then
    if ← awaitEach ((← get).jobs.flatMap running) then
      markWaited fun _ => true
      return 0
    else cutShort self
  else
    let mut status := 0
    for arg in args do
      let job? ← match arg with
        | '%' :: _ => some <$> jobOf "wait" arg
        | _ => do
          let pid ← count "wait" arg
          pure ((← get).jobs.find? (·.pid = pid))
      let some job := job? | status := 127
      if ← awaitEach (running job) then
        markWaited fun j => j.number = job.number
        let ending? := ((← get).jobs.find? (·.number = job.number)).bind Job.ending?
        status := (ending?.map statusOf).getD 127
      else return ← cutShort self
    return status

def signalOf? (text : Chars) : Option Nat :=
  match Chars.toNat? text with
  | some n => if n ≤ Signal.last then some n else none
  | none => Signal.ofName? (String.ofList (text.map Char.toUpper))

def killUsage : String :=
  "Usage: kill [-s sigspec | -signum | -sigspec] [pid | job]... or\nkill -l [exitstatus]"

def sendTo (signal : Nat) (args : List Chars) : Sh Nat :=
  forEach args fun arg => do
    let target : Option Int ← match arg with
      | '%' :: _ => do pure ((← jobOf "kill" arg).members.head?.map fun m => -(m.1 : Int))
      | '-' :: digits =>
        match Chars.toNat? digits with
        | some n => pure (some (-(n : Int)))
        | none => refuse "kill" ("Illegal number: " ++ arg)
      | digits => some <$> count "kill" digits
    let result ← match target with
      | some t => ask (.kill t signal)
      | none => pure (.error .noProcess)
    match result with
    | .ok _ => return 0
    | .error f => fail 1 ("kill: " ++ f.text ++ ['\n'])

def kill : Builtin := fun _ _ args => do
  match args with
  | [] => refuse "kill" killUsage.toList
  | ['-', 'l'] :: rest =>
    match rest with
    | [] => tell ("0\n" ++ (Signal.names.map fun n => n.toList ++ ['\n']).flatten)
    | text :: _ =>
      if text.head? = some '-' then refuse "kill" ("Illegal option -" ++ text.tail.take 1)
      let n ← count "kill" text
      match Signal.name? (if n > 128 then n - 128 else n) with
      | some name => tell (name ++ ['\n'])
      | none => refuse "kill" ("invalid signal number or exit status: " ++ text)
  | ['-', 's'] :: name :: rest =>
    match signalOf? name with
    | some n => sendTo n (behindDashes rest)
    | none => refuse "kill" ("invalid signal number or name: " ++ name)
  | ['-', '-'] :: rest => sendTo Signal.term rest
  | ('-' :: name) :: rest =>
    match signalOf? name with
    | some n => if rest.isEmpty then refuse "kill" killUsage.toList else sendTo n (behindDashes rest)
    | none => refuse "kill" ("Illegal option -" ++ name.take 1)
  | rest => sendTo Signal.term rest

def trapName (n : Nat) : Chars :=
  if n = 0 then "EXIT" else ((Signal.name? n).map String.toList).getD (Chars.ofNat n)

def trapSignal? (text : Chars) : Option Nat :=
  if String.ofList (text.map Char.toUpper) = "EXIT" then some 0 else signalOf? text

def setTrap (signal : Nat) (action : Option Chars) : Sh Unit := do
  modify fun s => { s with traps := (action.map (signal, ·)).toList ++ s.traps.filter (·.1 ≠ signal) }
  if signal ≠ 0 && signal ≤ 100 then
    ask (.handle signal (match action with
      | none => .default
      | some [] => .ignore
      | some _ => .catch))

def trap : Builtin := fun _ _ args => do
  let args := behindDashes args
  match args with
  | [] =>
    let traps := sortBy (fun (a : Nat × Chars) b => a.1 ≤ b.1) (← get).traps
    tell (traps.flatMap fun (n, text) => "trap -- " ++ Quoting.between text ++ ' ' :: trapName n ++ ['\n'])
  | first :: rest =>
    let (action, names) :=
      if rest.isEmpty || (Chars.toNat? first).isSome then (none, args)
      else (if first = ['-'] then none else some first, rest)
    for name in names do
      match trapSignal? name with
      | some n => setTrap n action
      | none =>
        let _ ← put 2 ("trap: " ++ name ++ ": bad trap\n")
        return 1
    return 0

end Prune.Shell.Builtin

/-!
Built-in commands of the extended dialect on processes and signals.
-/

namespace Prune.Shell.Extended

open Host Sh

def failureEvent : Nat := 101

def commandEvent : Nat := 102

def returnEvent : Nat := 103

def events : List (String × Nat) :=
  [("EXIT", 0), ("ERR", failureEvent), ("DEBUG", commandEvent), ("RETURN", returnEvent)]

def signalOf? (text : Chars) : Option Nat :=
  let upper := text.map Char.toUpper
  let short := if "SIG".toList.isPrefixOf upper then upper.drop 3 else upper
  Builtin.signalOf? short

def eventOf? (text : Chars) : Option Nat :=
  events.lookup (String.ofList (text.map Char.toUpper)) <|> signalOf? text

def eventName (n : Nat) : Chars :=
  match events.find? (·.2 = n), Signal.name? n with
  | some (name, _), _ => name
  | none, some name => "SIG" ++ name
  | none, none => Chars.ofNat n

def trap : Builtin := fun _ _ args => do
  let (letters, rest) ← match args with
    | ['-'] :: _ => pure ([], args)
    | args => given "trap" "trap [-lp] [[arg] signal_spec ...]" "lp" args
  let wide ← wide
  let line (p : Nat × Chars) : Chars :=
    "trap -- " ++ Quoting.single wide p.2 ++ ' ' :: eventName p.1 ++ ['\n']
  if has letters 'p' || rest.isEmpty then
    let traps := sortBy (fun (a : Nat × Chars) b => a.1 ≤ b.1) (← get).traps
    let wanted := rest.filterMap eventOf?
    return ← tell ((traps.filter fun p => rest.isEmpty || wanted.contains p.1).flatMap line)
  let first := rest.headD []
  let (action, names) :=
    if rest.length = 1 || ((Chars.toNat? first).isSome && (eventOf? first).isSome) then (none, rest)
    else (if first = ['-'] then none else some first, rest.tail)
  forEach names fun name => do
    let some n := eventOf? name | fail 1 ("trap: " ++ name ++ ": invalid signal specification")
    Builtin.setTrap n action
    return 0

def killUsage : String := "kill [-s sigspec | -n signum | -sigspec] pid | jobspec ... or kill -l [sigspec]"

def sendTo (signal : Nat) (args : List Chars) : Sh Nat :=
  forEach args fun arg => do
    match arg.head?, Builtin.jobOf? (← get) arg, Chars.toInt? arg with
    | some '%', none, _ => fail 1 ("kill: " ++ arg ++ ": no such job")
    | some '%', some job, _ =>
      for (pid, _) in job.members do
        let _ ← ask (.kill pid signal)
      return 0
    | _, _, none => fail 1 ("kill: " ++ arg ++ ": arguments must be process or job IDs")
    | _, _, some n =>
      match ← ask (.kill n signal) with
      | .ok _ => return 0
      | .error f => fail 1 ("kill: (" ++ arg ++ ") - " ++ f.text)

def kill : Builtin := fun _ _ args => do
  let send (name : Chars) (rest : List Chars) : Sh Nat := do
    let rest := Builtin.behindDashes rest
    match signalOf? name with
    | none => refuse "kill" (name ++ ": invalid signal specification")
    | some n => if rest.isEmpty then misused else sendTo n rest
  match args with
  | [] => misused
  | ['-', 's'] :: name :: rest | ['-', 'n'] :: name :: rest => send name rest
  | ['-', '-'] :: rest => sendTo Signal.term rest
  | ('-' :: name) :: rest => send name rest
  | rest => sendTo Signal.term rest
where
  misused : Sh Nat := do
    sayUsage "kill" killUsage
    return 2

def wait : Builtin := fun self mode args => do
  let (_, rest) ← given "wait" "wait [-fn] [-p var] [id ...]" "f" args
  if rest.isEmpty then Builtin.wait self mode []
  else
    let mut status := 0
    for word in rest do
      let s ← get
      match word.head?, Builtin.jobOf? s word, Chars.toNat? word with
      | some '%', none, _ => status := ← fail 127 ("wait: " ++ word ++ ": no such job")
      | some '%', some _, _ => status := ← Builtin.wait self mode [word]
      | _, _, none => status := ← fail 1 ("wait: \x60" ++ word ++ "': not a pid or valid job spec")
      | _, _, some pid =>
        status := ← if s.jobs.any (·.pid = pid) then Builtin.wait self mode [word]
          else fail 127 ("wait: pid " ++ word ++ " is not a child of this shell")
    return status

end Prune.Shell.Extended
