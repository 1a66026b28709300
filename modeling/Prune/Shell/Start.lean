import Prune.Shell.Run

/-!
A shell from its start to its end: its options, where its script comes from, and the script line by
line.
-/

namespace Prune.Shell

open Host Sh

namespace Sh

variable (self : Self)

def complainFlaw (whole : Chars) (f : Flaw) : Sh Unit := do
  let s ← get
  let front := s.name ++ ": " ++ (if s.given then "-c: ".toList else []) ++ "line " ++
    Chars.ofNat f.line ++ ": "
  let _ ← put 2 (front ++ f.message.toList ++ ['\n'])
  if "syntax error near".isPrefixOf f.message then
    let line := (Chars.splitAt '\n' whole).getD (f.line - 1) []
    let _ ← put 2 (front ++ '\x60' :: line ++ "'\n")

def runLines (whole : Chars) (mode : Mode) : Nat → Source → Nat → Sh Nat
  | 0, _, status => return status
  | n + 1, source, status => do
    let s ← get
    let extended := s.dialect = .extended
    let aliases := if !extended || s.choices.contains "expand_aliases" then s.aliases else []
    let source := { source with
      aliases, nextDocument := s.nextDocument, documents := [], dialect := s.dialect
      groups := extended && s.choices.contains "extglob" }
    match nextLine.run source with
    | .error f =>
      atLine f.line
      if extended then
        complainFlaw whole f
        throw (.exit 2)
      else giveUp ("Syntax error: " ++ f.message.toList)
    | .ok (line, source) =>
      modify fun s => { s with
        documents := source.documents ++ s.documents
        nextDocument := source.nextDocument }
      match line with
      | .done => return status
      | .blank => runLines whole mode n source status
      | .command c last =>
        let status ← match ← outcome (self.run c ⟨mode.tested, mode.last && last⟩) with
          | .ok status => pure status
          | .error (.drop status) =>
            modify ({ · with status })
            if s.level = 0 then pure status else throw (.exit status)
          | .error stop => throw stop
        if last then return status else runLines whole mode n source status

def runTextFrom (first : Nat) (text : Chars) (mode : Mode) : Sh Nat := do
  let (line, nesting) := ((← get).line, (← get).nesting)
  modify ({ · with nesting := nesting + 1 })
  let status ← always (modify ({ · with nesting }))
    (runLines self text mode (text.length + 2) { Source.ofText text with line := first } 0)
  atLine line
  return status

def runText (text : Chars) (mode : Mode) : Sh Nat := runTextFrom self 1 text mode

def runFile (path : Chars) : Sh Nat := do
  match ← Act.readFile path with
  | .ok text => runText self text ⟨false, false⟩
  | .error f => refuse "." ("cannot open " ++ path ++ ": " ++ openingFault false f)

end Sh

def selfAt (exec : Exec) : Nat → Self
  | 0 =>
    let tooDeep : Sh Nat := throw (.fault 2)
    ⟨fun _ _ => tooDeep, fun _ _ => tooDeep, fun _ _ => tooDeep, fun _ => tooDeep, exec⟩
  | n + 1 =>
    { run := fun c mode => perform (selfAt exec n) c mode
      runText := fun text mode => runText (selfAt exec n) text mode
      runPart := fun text mode => do runTextFrom (selfAt exec n) (← get).line text mode
      runFile := fun path => runFile (selfAt exec n) path
      exec }

structure Orders where
  /-- The text given in place of a file. -/
  isText : Bool
  fromInput : Bool
  rest : List Chars

/-- How a dialect reads the options a shell is started with: letters of its own, and long ones. -/
structure OrderRules extends Builtin.OptionRules where
  own : Char → Char → List Chars → Sh (Option (List Chars))
  long : Chars → List Chars → Sh (Option (List Chars))

def readOrders (r : OrderRules) : Nat → Orders → List Chars → Sh Orders
  | _, o, ['-', '-'] :: rest | _, o, ['-'] :: rest => return { o with rest }
  | n + 1, o, arg@(sign :: letters) :: rest => do
    if (sign = '-' || sign = '+') && !letters.isEmpty then
      match ← r.long arg rest with
      | some rest => readOrders r n o rest
      | none =>
        let rest ← r.read sign (r.own sign) letters rest
        let (isText, fromInput) := (o.isText || letters.contains 'c', o.fromInput || letters.contains 's')
        readOrders r n { o with isText, fromInput } rest
    else return { o with rest := arg :: rest }
  | _, o, rest => return { o with rest }

def commonOrders : OrderRules where
  toOptionRules := { Builtin.setRules with
    wrongName := fun _ name => giveUp ("Illegal option -o " ++ name)
    wrongLetter := fun sign letter => giveUp ("Illegal option " ++ [sign, letter]) }
  own _ letter rest := return if "csl".contains letter then some rest else none
  long _ _ := return none

/-- What a shell of the extended dialect says when it cannot start. -/
def failStart (text : Chars) (status : Nat) : Sh α := do
  let _ ← put 2 ((← get).name ++ ": " ++ text ++ ['\n'])
  throw (.exit status)

def extendedOrders : OrderRules where
  toOptionRules := { Extended.setRules with
    isLetter := Extended.letterOrder.contains
    wrongName := fun _ name => failStart (name ++ ": invalid option name") 2
    wrongLetter := fun sign letter => failStart ([sign, letter] ++ ": invalid option") 2 }
  own sign letter rest := do
    if "cslirD".contains letter then return some rest
    else if letter = 'O' then
      Extended.setChoice (sign = '-') (String.ofList (rest.headD []))
      return some rest.tail
    else return none
  long arg rest := do
    let some name := "--".toList.isPrefixOf? arg | return none
    let takesFile := name = "rcfile" || name = "init-file"
    let isKnown := takesFile || (["debug", "debugger", "dump-po-strings", "dump-strings", "login",
      "noediting", "noprofile", "norc", "posix", "restricted", "verbose", "wordexp"].map (·.toList)).contains name
    if name = "version" then
      say "GNU bash, version 5.2.15(1)-release (x86_64-pc-linux-gnu)\n"
      throw (.exit 0)
    else if isKnown then
      if name = "verbose" then Extended.setLetter true 'v'
      return some (if takesFile then rest.tail else rest)
    else failStart (arg ++ ": invalid option") 2

def preamble (self : Self) : Sh Unit := do
  match ← value "BASH_ENV" with
  | some (c :: cs) =>
    let .ok text ← Act.readFile (c :: cs) | pure ()
    let _ ← self.runText text ⟨false, false⟩
  | _ => pure ()

def work (self : Self) (args : List Chars) : Sh Nat := do
  let extended ← isExtended
  let fail (text : Chars) (status : Nat) : Sh Nat := if extended then failStart text status else giveUp text
  let orders ← readOrders (if extended then extendedOrders else commonOrders) (args.length + 1) ⟨false, false, []⟩ args
  if orders.isText then
    match orders.rest with
    | [] => fail (if extended then "-c: option requires an argument" else "-c requires an argument").toList 2
    | text :: rest =>
      modify fun s => { s with name := rest.headD s.name, args := rest.tail, line := 1, given := extended }
      if extended then preamble self
      self.runText text ⟨false, true⟩
  else
    match if orders.fromInput then [] else orders.rest with
    | [] =>
      modify ({ · with args := orders.rest, line := 1 })
      if extended then preamble self
      match ← Act.readAll 0 with
      | .ok text => self.runText text ⟨false, false⟩
      | .error _ => return 0
    | file :: args =>
      match ← Act.readFile file with
      | .ok text =>
        if extended && ((text.take 80).takeWhile (· ≠ '\n')).contains '\x00' then
          fail (file ++ ": " ++ file ++ ": cannot execute binary file") 126
        else
          modify ({ · with name := file, args, line := 1 })
          if extended then preamble self
          self.runText text ⟨false, false⟩
      | .error f =>
        match extended, f with
        | false, .isDirectory => return 0
        | false, f => fail ("cannot open " ++ file ++ ": " ++ openingFault false f) 2
        | true, .isDirectory => fail (file ++ ": " ++ file ++ ": Is a directory") 126
        | true, f => fail (file ++ ": " ++ f.text) (if f = .notFound then 127 else 126)

def usualPath : String := "/usr/local/sbin:/usr/local/bin:/usr/sbin:/usr/bin:/sbin:/bin"

def plainVars (vars : List (String × String)) : List Variable :=
  vars.map fun (name, value) => .ofText name.toList (some value.toList) false false

def ownVars : List Variable :=
  plainVars [("OPTIND", "1"), ("PS4", "+ "), ("PS2", "> "), ("PS1", "# "), ("PATH", usualPath), ("IFS", " \t\n")]

def extendedVars (name : Chars) : List Variable :=
  plainVars [("PS4", "+ "), ("OPTIND", "1"), ("OPTERR", "1"), ("IFS", " \t\n"), ("TERM", "dumb"),
    ("PATH", usualPath), ("SHELL", "/bin/bash"),
    ("HOSTNAME", "localhost"), ("HOSTTYPE", "x86_64"), ("OSTYPE", "linux-gnu"),
    ("MACHTYPE", "x86_64-pc-linux-gnu"), ("BASH_VERSION", "5.2.15(1)-release"), ("UID", "0"),
    ("EUID", "0")] ++
  [.ofText "BASH" (some (if name.contains '/' then name else "/usr/bin/" ++ name)) false false,
    ⟨"BASH_VERSINFO", some (.list ((["5", "2", "15", "1", "release", "x86_64-pc-linux-gnu"].zipIdx).map
      fun (v, i) => (i, v.toList))), false, true, []⟩,
    ⟨"GROUPS", some (.list [(0, ['0'])]), false, false, []⟩]

/-- Variables with values that were given, each where the variable is if there is one of that name. -/
def withGiven (own : List Variable) (env : Env) : List Variable :=
  env.foldl (fun vars (name, value) =>
    let new := .ofText name (some value) true false
    if vars.any (·.name = name) then vars.map fun v => if v.name = name then new else v
    else new :: vars) own

def deeper (env : Env) : Chars :=
  match (env.lookup "SHLVL".toList).bind Chars.toInt? with
  | some n => Chars.ofInt (n + 1)
  | none => ['1']

variable (dialect : Dialect)

def initialVars (name : Chars) (env : Env) (parent : Nat) (cwd : Location) :
    List Variable :=
  let ppid := Variable.ofText "PPID" (some (Chars.ofNat parent)) false (dialect = .extended)
  let here := Builtin.locationText cwd
  let named := env.filter fun (n, _) => isName n
  match dialect with
  | .common =>
    let given := named.filter fun (n, _) => n ≠ "IFS" && n ≠ "PWD" && n ≠ "OPTIND"
    .ofText "PWD" (some here) true false :: ppid :: withGiven ownVars given
  | .extended =>
    let given := named.filter fun (n, _) => !(["IFS", "PWD", "OPTIND", "SHLVL", "UID", "EUID", "BASH",
      "_"].map (·.toList)).contains n
    .ofText "SHLVL" (some (deeper env)) true false ::
      .ofText "PWD" (some here) true false :: ppid :: withGiven (extendedVars name) given

def State.initial (name : Chars) (env : Env) (pid parent : Nat) (cwd : Location)
    (started : Nat) : State :=
  let s : State := { dialect, name, pid, started, seed := pid, vars := initialVars dialect name env parent cwd }
  match dialect with
  | .common => s
  | .extended => { s with options := Extended.initialOptions, choices := Extended.initialChoices }

def depth : Nat := 2 ^ 60

def program (exec : Exec) (argv : List Chars) (env : Env) : Act Nat := do
  let pid ← Act.ask .self
  let parent ← Act.ask .parent
  let d ← Act.ask .disk
  let now ← Act.ask .now
  let self := selfAt exec depth
  let s := State.initial dialect (argv.headD "sh") env pid parent d.cwd now
  let (r, s) ← (work self argv.tail).run s
  conclude self r s

end Prune.Shell
