import Prune.Shell.Redirect
import Prune.Shell.Search

/-!
Running commands.
-/

namespace Prune.Shell

open Host

namespace Sh

variable (self : Self)

def declares (dialect : Dialect) (w : Word) : Bool :=
  let more := if dialect = .extended then ["declare", "typeset", "alias"] else []
  (literal? w).any fun text => (["export", "readonly", "local"] ++ more).contains (String.ofList text)

def assignmentText : Assignment → Sh Chars
  | .mk name index appends value => do
    let place ← match index with
      | some w => do pure ('[' :: (← single self w) ++ [']'])
      | none => pure []
    let front := name ++ place ++ (if appends then ['+', '='] else ['='])
    match value with
    | [.items ..] =>
      let text := front ++ '(' :: Chars.ofNat (← get).lists.length ++ [')']
      modify fun s => { s with lists := (text, .mk name index appends value) :: s.lists }
      return text
    | value => return front ++ (← assigned self value)

def arguments (words : List Word) : Sh (List Chars) := do
  let first :: rest := words | return []
  let dialect := (← get).dialect
  let name ← fields self first
  if declares dialect first then
    let args ← rest.mapM fun w => do
      match assignment? dialect w with
      | some a => return [← assignmentText self a]
      | none => fields self w
    return name ++ args.flatten
  return name ++ (← allFields self rest)

def giveBack (saved : List (Chars × Option Variable)) : Sh Unit := modify fun s =>
  let s := if saved.any (·.1 = "PATH") then { s with found := [] } else s
  saved.foldl (fun s (name, old) =>
    match old with
    | some v => withVar s v
    | none => { s with vars := s.vars.filter (·.name ≠ name) }) s

def assignedName : Assignment → Chars
  | .mk name _ _ _ => name

variable (assignments : List Assignment)

def assignFor : Sh (List (Chars × Option Variable) × List Chars) := do
  let saved := (← get).vars
  let texts ← assignments.mapM fun a => do
    let name := assignedName a
    let text ← match ← outcome (assignWord self true a) with
      | .ok text => pure text
      | .error (.drop status) => if (← var? name).any (·.fixed) then pure [] else throw (.drop status)
      | .error stop => throw stop
    modify fun s => { s with
      vars := s.vars.map fun v => if v.name = name then { v with exported := true } else v }
    return text
  let names := assignments.map assignedName
  return (names.map fun name => (name, saved.find? (·.name = name)), texts)

def trace (texts argv : List Chars) : Sh Unit := do
  let words := if ← isExtended then argv else texts ++ argv
  if !words.isEmpty then traceWords self words

def cannotRun (name : Chars) (f : Fault) : Sh Nat := do
  let (text, status) ← faultFor name f
  complain (name ++ ": " ++ text)
  return status

def become (path : Chars) (argv : List Chars) : Sh Nat := do
  let env := environment (← get)
  let fault ← act (self.exec path argv env)
  let fault ← if fault = .badFormat then
      let shell := (if ← isExtended then "/bin/bash" else "/bin/sh").toList
      act (self.exec shell (shell :: path :: argv.tail) env)
    else pure fault
  throw (.exit (← cannotRun (argv.headD []) fault))

def onEvent (event : Nat) : Sh Unit := do
  let some text := (← get).traps.lookup event | pure ()
  if !text.isEmpty then
    let s ← get
    set { s with traps := s.traps.filter (·.1 ≠ event) }
    let back : Sh Unit := modify fun t => { t with
      traps := if t.traps.any (·.1 = event) then t.traps else (event, text) :: t.traps
      status := s.status
      line := s.line }
    let _ ← always back (self.runText text ⟨true, false⟩)

/-- Runs a function. What is done on a failure or before a command does not hold in it unless an
option says so. -/
def runFunction (name : Chars) (body : Command) (args : List Chars) (mode : Mode) : Sh Nat := do
  let s ← get
  let isKept (p : Nat × Chars) : Bool :=
    (p.1 ≠ Extended.failureEvent || s.options.contains 'E') &&
      ((p.1 ≠ Extended.commandEvent && p.1 ≠ Extended.returnEvent) || s.options.contains 'T')
  set { s with
    args, calls := s.calls + 1, loops := 0, locals := [] :: s.locals
    frames := (name, s.line) :: s.frames
    traps := s.traps.filter isKept }
  let restore := do
    onEvent self Extended.returnEvent
    giveBack ((← get).locals.headD [])
    modify fun t =>
      let suspended := s.traps.filter fun p => !isKept p && !t.traps.any (·.1 = p.1)
      { t with
        args := s.args, calls := s.calls, loops := s.loops, locals := t.locals.tail
        frames := s.frames, traps := suspended ++ t.traps }
  always restore (backed (self.run body ⟨mode.tested, false⟩))

inductive Meaning where
  | function (body : Command)
  | builtin (known : Known)
  | exec
  | program

def meaning (name : Chars) (plain : Bool) : Sh Meaning := do
  let text := String.ofList name
  let s ← get
  match s.dialect with
  | .common =>
    let known := builtins.lookup text
    if text = "exec" then return .exec
    match if plain || known.any (·.special) then none else s.functions.lookup name with
    | some body => return .function body
    | none =>
      match known with
      | some k => return .builtin (if plain then { k with special := false } else k)
      | none => return if text = "type" then .builtin ⟨typeOf, false⟩ else .program
  | .extended =>
    match if plain then none else s.functions.lookup name with
    | some body => return .function body
    | none =>
      match text, extendedBuiltins.lookup text with
      | "exec", _ => return .exec
      | "type", _ => return .builtin ⟨extendedTypeOf, false⟩
      | _, some b => return .builtin ⟨b, false⟩
      | _, none => return .program

/-- A command without `command` in front, whether there was one, and whether it only asks about a
command, and how. -/
def unwrapped : Nat → List Chars → Bool → List Chars × Bool × Option Bool
  | n + 1, argv@(first :: rest), plain =>
    if first = "command" then
      match rest with
      | ['-', 'v'] :: rest => (rest, true, some false)
      | ['-', 'V'] :: rest => (rest, true, some true)
      | ['-', 'p'] :: rest | ['-', '-'] :: rest | rest => unwrapped n rest true
    else (argv, plain, none)
  | _, argv, plain => (argv, plain, none)

/-- Runs `body` with redirections and assignments in force; a failing redirection has the status two
and ends the shell if the command is `special`. -/
def prepared (redirections : List Redirection) (special keeps : Bool) (body : Sh Nat) : Sh Nat := do
  let feeds := (← get).feeds
  match ← redirect self redirections with
  | none =>
    let status ← redirectFault
    if special then throw (if ← isExtended then .exit status else .fault status) else return status
  | some u =>
    modify ({ · with traceTo := (u.lookup 2).bind id })
    let back := do
      if keeps then settle u else undo u
      closeFeeds feeds
    always back body

def contained (body : Sh Nat) : Sh Nat := do
  match ← outcome body with
  | .ok status | .error (.fault status) => return status
  | .error stop => throw stop

def withAssignments (argv : List Chars) (body : Sh Nat) : Sh Nat := do
  let (saved, texts) ← assignFor self assignments
  trace self texts argv
  always (giveBack saved) body

def behindAssignments (argv : List Chars) (body : Sh Nat) : Sh Nat := do
  trace self (← assignments.mapM (assignWord self true)) argv
  body

def arranged (redirecting assigning : Sh Nat → Sh Nat) (body : Sh Nat) : Sh Nat := do
  if ← isExtended then assigning (redirecting body) else redirecting (assigning body)

def accounted (name : Chars) (status : Nat) : Sh Nat := do
  if (← get).lost then
    modify ({ · with lost := false })
    complainPlain (name ++ ": " ++ (if ← isExtended then "write error: No space left on device".toList
      else name ++ ": I/O error"))
    return status ||| 1
  return status

def runProgram (path : Except Fault Chars) (argv : List Chars) (mode : Mode) : Sh Nat := do
  match path with
  | .error f => cannotRun (argv.headD []) f
  | .ok path =>
    if mode.last && !(← hasTraps) then become self path argv
    else awaitEnd (← splitOff self (become self path argv))

def becomeNamed (args : List Chars) : Sh Nat := do
  let extended ← isExtended
  let (letters, args) ← if extended then
      Extended.given "exec" "exec [-cl] [-a name] [command [argument ...]] [redirection ...]" "cla:" args
    else pure ([], args)
  let program :: rest := args | return 0
  if Extended.has letters 'c' then
    modify fun s => { s with vars := s.vars.map fun v => { v with exported := false } }
  let shown := (Extended.valueOf? letters 'a').getD program
  let shown := if Extended.has letters 'l' then '-' :: shown else shown
  match ← findProgram program with
  | .ok path => become self path (shown :: rest)
  | .error f =>
    let (text, status) ← faultFor program f
    let text := if extended && f = .notFound then "not found".toList else text
    complainPlain ("exec: " ++ program ++ ": " ++ text)
    throw (.exit status)

def runWords (words : List Chars)
    (redirections : List Redirection) (mode : Mode) : Sh Nat := do
  let extended ← isExtended
  let (argv, plain, asks) := unwrapped (words.length + 1) words false
  let usual := arranged (prepared self redirections false false) (withAssignments self assignments words)
  match asks, argv with
  | some verbose, name :: rest => usual do
      accounted "command" (← if extended then describeAll verbose (name :: rest) else describe verbose name)
  | _, [] => usual (return 0)
  | none, name :: args =>
    match ← meaning name plain with
    | .exec =>
      arranged (prepared self redirections true true) (behindAssignments self assignments words)
        (becomeNamed self args)
    | .builtin k =>
      if k.special then
        prepared self redirections true false do
          accounted name (← behindAssignments self assignments words (k.run self mode args))
      else usual do accounted name (← contained (k.run self mode args))
    | .function body => usual (runFunction self name body args mode)
    | .program => usual do runProgram self (← findProgram name) argv mode

def runSimple (line : Nat) (assignments : List Assignment) (words : List Word)
    (redirections : List Redirection) (mode : Mode) : Sh Nat := do
  modify ({ · with line, substituted := none })
  onEvent self Extended.commandEvent
  let lists := (← get).lists
  let feeds := (← get).feeds
  let argv ← arguments self words
  let back := do
    modify ({ · with lists })
    closeFeeds feeds
  always back do
    if argv.isEmpty then
      arranged (prepared self redirections false false) (behindAssignments self assignments []) do
        return (← get).substituted.getD 0
    else if argv.head? = some "builtin" && (← isExtended) then
      let name :: args := argv.tail | return 0
      match ← meaning name true with
      | .program => fail 1 ("builtin: " ++ name ++ ": not a shell builtin")
      | _ => runWords self assignments ("command" :: name :: args) redirections mode
    else runWords self assignments argv redirections mode

def plug (source target : Nat) : Act Unit := do
  if source ≠ target then
    let _ ← Act.ask (.duplicateTo source target)
    Act.ask (.close source)

def startStages (mode : Mode) (prelude : Act Unit) : List Command → Option Nat → Sh (List Nat)
  | [], _ => return []
  | stage :: rest, input => do
    let pipe ← if rest.isEmpty then pure none else some <$> ask .pipe
    let s ← get
    let pid ← act (Act.fork do
      prelude
      pipe.forM fun (out, _) => Act.ask (.close out)
      input.forM (plug · 0)
      pipe.forM fun (_, into) => plug into 1
      apart self (self.run stage ⟨mode.tested, true⟩) s)
    input.forM fun fd => ask (.close fd)
    pipe.forM fun (_, into) => ask (.close into)
    return pid :: (← startStages mode prelude rest (pipe.map (·.1)))

/-- Runs a pipeline; the status is that of its last stage, or of the last one that fails if an option
says so. -/
def runPipe (stages : List Command) (mode : Mode) : Sh Nat := do
  let _ ← claimNumber
  let pids ← startStages self mode (pure ()) stages none
  let statuses ← pids.mapM awaitEnd
  modify ({ · with stages := statuses })
  if ← option '\x03' then return (statuses.filter (· ≠ 0)).getLastD 0 else return statuses.getLastD 0

/-- What a process in the background does first: it lets pass what is typed at the keyboard, and has
nothing to read. -/
def retreat : Act Unit := do
  Act.ask (.handle Signal.int .ignore)
  Act.ask (.handle Signal.quit .ignore)
  match ← Act.openToRead "/dev/null" with
  | .ok fd => plug fd 0
  | .error _ => pure ()

def runBackground (body : Command) : Sh Nat := do
  let number ← claimNumber
  let stages := if let .pipe stages := body then stages else [body]
  let pids ← startStages self ⟨false, true⟩ retreat stages none
  pids.getLast?.forM fun pid => modify fun s =>
    { s with lastBackground := some pid, jobs := s.jobs ++ [⟨number, pids.map (·, none), false⟩] }
  return 0

def runSubshell (line : Nat) (body : Command) (redirections : List Redirection)
    (mode : Mode) : Sh Nat := do
  atLine line
  let inside : Sh Nat := do
    match ← redirect self redirections with
    | none => throw (.exit (← redirectFault))
    | some u =>
      settle u
      self.run body ⟨mode.tested, true⟩
  if mode.last && !(← hasTraps) then inside
  else awaitEnd (← splitOff self inside)

/-- What comes of a round of a loop: another round, or its end with a status. -/
inductive Round where
  | next (status : Nat)
  | done (status : Nat)

def roundOf (body : Sh Nat) : Sh Round := do
  match ← outcome body with
  | .ok status => return .next status
  | .error (.leave n) => if n ≤ 1 then return .done 0 else throw (.leave (n - 1))
  | .error (.again n) => if n ≤ 1 then return .next 0 else throw (.again (n - 1))
  | .error stop => throw stop

def roundThen (body : Command) (mode : Mode) (next : Nat → Sh Nat) : Sh Nat := do
  match ← roundOf (self.run body ⟨mode.tested, false⟩) with
  | .done status => return status
  | .next status => next status

def inLoop (body : Sh Nat) : Sh Nat := do
  let loops := (← get).loops
  modify ({ · with loops := loops + 1 })
  always (modify ({ · with loops })) body

def rounds (wanted : Bool) (test body : Command) (mode : Mode) : Nat → Nat → Sh Nat
  | 0, status => return status
  | n + 1, status => do
    match ← roundOf (self.run test ⟨true, false⟩) with
    | .done _ => return status
    | .next result =>
      if (result = 0) = wanted then roundThen self body mode (rounds wanted test body mode n) else return status

def traceHead (head : Chars) : Sh Unit := do
  if ← isExtended then traceText self (return head)

def roundsOver (head name : Chars) (body : Command) (mode : Mode) :
    List Chars → Nat → Sh Nat
  | [], status => return status
  | text :: rest, _ => do
    traceHead self head
    assign name text
    roundThen self body mode (roundsOver head name body mode rest)

def anyFits (text : Chars) : List Word → Sh Bool
  | [] => return false
  | w :: rest => do
    let pattern ← pattern self w
    if pattern.fits text then return true else anyFits text rest

/-- Runs the first arm of a selection that has a pattern for the text, and those that are to follow. With
`falls` the next arm is run in any case. -/
def runArms (text : Chars) (mode : Mode) :
    (falls : Bool) → (status : Nat) → List (List Word × Option Command × Follow) → Sh Nat
  | _, status, [] => return status
  | falls, status, (patterns, body, follow) :: rest => do
    let isMeant ← if falls then pure true else anyFits self text patterns
    if isMeant then
      let mode := if follow = .stop then mode else ⟨mode.tested, false⟩
      let status ← body.elim (pure 0) (self.run · mode)
      if follow = .stop then return status else runArms text mode (follow = .fall) status rest
    else runArms text mode false status rest

def expression (steers : Bool) (body : Word) : Sh (Option Int) := do
  let text := textOf [' '] (← Sh.expandParts self effort ⟨false, false⟩ body)
  traceHead self ("(( " ++ (if steers then text.dropWhile Arithmetic.isSpace else text) ++ " ))")
  match ← computed text with
  | .ok n => return some n
  | .error message =>
    complain ("((: " ++ message)
    return none

def goesOn (test : Word) : Sh Bool := do
  let isEmpty := test.all fun
    | .quoted c => Arithmetic.isSpace c
    | _ => false
  if isEmpty then return true else return (← expression self true test).any (· ≠ 0)

def countRounds (test step : Word) (body : Command) (mode : Mode) : Nat → Nat → Sh Nat
  | 0, status => return status
  | n + 1, status => do
    if ← goesOn self test then
      roundThen self body mode fun status => do
        let _ ← expression self true step
        countRounds test step body mode n status
    else return status

/-- Commands whose failure counts as such, not through a command in them. -/
def failsItself (c : Command) : Bool :=
  c matches .simple .. | .pipe _ | .subshell .. | .compute .. | .test ..

def timesText (common : Bool) : Chars :=
  if common then "real 0.00\nuser 0.00\nsys 0.00\n"
  else "\nreal\t0m0.000s\nuser\t0m0.000s\nsys\t0m0.000s\n"

def perform (c : Command) (mode : Mode) : Sh Nat := do
  if ← option 'n' then return 0
  let status ← match c with
    | .simple line assignments words redirections => do
      let status ← runSimple self line assignments words redirections mode
      modify ({ · with stages := [status] })
      pure status
    | .pipe stages => runPipe self stages mode
    | .subshell line body redirections => runSubshell self line body redirections mode
    | .background line body => do
      atLine line
      runBackground self body
    | .not body => do pure (if (← self.run body ⟨true, false⟩) = 0 then 1 else 0)
    | .and first second => do
      let status ← self.run first ⟨true, false⟩
      if status = 0 then self.run second mode else pure status
    | .or first second => do
      let status ← self.run first ⟨true, false⟩
      if status = 0 then pure status else self.run second mode
    | .seq first second => do
      let _ ← self.run first ⟨mode.tested, false⟩
      self.run second mode
    | .redirected line body redirections => do
      atLine line
      redirected self redirections (self.run body ⟨mode.tested, false⟩)
    | .cond test yes no => do
      if (← self.run test ⟨true, false⟩) = 0 then self.run yes mode else no.elim (pure 0) (self.run · mode)
    | .loop wanted test body => inLoop (rounds self wanted test body mode Act.patience 0)
    | .each line head name words body => do
      atLine line
      let texts ← words.elim (return (← get).args) (allFields self)
      inLoop (roundsOver self head name body mode texts 0)
    | .select line head subject arms => do
      atLine line
      traceHead self head
      let text ← single self subject
      runArms self text mode false 0 arms
    | .define _ name body => do
      modify fun s => { s with functions := (name, body) :: s.functions.filter (·.1 ≠ name) }
      pure 0
    | .compute line body => do
      atLine line
      onEvent self Extended.commandEvent
      pure (if (← expression self false body).any (· ≠ 0) then 0 else 1)
    | .test line condition => do
      atLine line
      onEvent self Extended.commandEvent
      holds self Extended.optionNames false condition
    | .count line start test step body => do
      atLine line
      if (← expression self true start).isNone then pure 1
      else inLoop (countRounds self test step body mode Act.patience 0)
    | .timed common body => do
      let status ← self.run body ⟨mode.tested, false⟩
      let _ ← put 2 (timesText common)
      pure status
  modify ({ · with status })
  heed self
  if failsItself c && status ≠ 0 && !mode.tested then
    onEvent self Extended.failureEvent
    if ← option 'e' then throw (.failed status)
  return status

end Sh

end Prune.Shell
