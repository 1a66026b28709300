import Prune.Host.Signal
import Prune.Utility.Basic
import Prune.Utility.Printf
import Prune.Utility.Test

/-!
Programs that print or test what they are told, and little else.
-/

namespace Prune.Utility

open Host Util

def trueProgram : Applet := return 0

def falseProgram : Applet := return 1

def echo : Applet := do
  print (echoProgram (← args))
  return 0

def printf : Applet := do
  let args ← args
  let args := if args.head? = some ['-', '-'] then args.tail else args
  let format :: rest := args | missing "missing operand"
  let r := Printf.run .program format rest
  print r.output
  for text in r.complaints do
    complain text
  if !(← get).parts.isEmpty then flush
  return if r.ok then 0 else 1

def test (bracket : Bool) : Applet := do
  let args ← args
  if bracket && args.getLast? ≠ some [']'] then failWith 2 ("missing " ++ quoted [']'])
  else
    let words := if bracket then args.dropLast else args
    if words.isEmpty then return 1
    match Test.holdsAlone (← disk) words with
    | .ok b => return if b then 0 else 1
    | .error text => failWith 2 text

def basename : Applet :=
  withOptions (optionsOf "as:z" "multiple=a suffix=s: zero=z") false 1 fun p => do
  let put (text : Chars) : Util Unit := print (text ++ [p.mark])
  let strip (suffix name : Chars) : Chars :=
    let base := baseName name
    if !suffix.isEmpty && suffix.isSuffixOf base && base ≠ suffix then base.take (base.length - suffix.length)
    else base
  let many := p.has "a" || p.has "s"
  match p.operands with
  | [] => missing "missing operand"
  | names =>
    match many, names with
    | true, _ | false, [_] => forEach names fun name => do put (strip ((p.value? "s").getD []) name); return 0
    | false, [name, suffix] => put (strip suffix name); return 0
    | false, _ => wrongOperands 2 names

def dirname : Applet :=
  withOptions (optionsOf "z" "zero=z") true 1 fun p => do
  if p.operands.isEmpty then missing "missing operand"
  else
    for name in p.operands do
      print (dirName name ++ [p.mark])
    return 0

def pwd : Applet := do
  printLine (locationText (← disk).cwd)
  return 0

def fixed (text : String) (status : Nat) : Applet := do
  printLine text.toList
  return status

def uname : Applet := do
  let args ← args
  fixed (if args.isEmpty || args = ["-s".toList] then "Linux" else "Linux x86_64") 0

def identity : Applet := do
  let args ← args
  let isNumber := args.any fun a => a.head? = some '-' && !a.contains 'n'
  fixed (if args.isEmpty then "uid=0(root) gid=0(root) groups=0(root)" else if isNumber then "0" else "root") 0

def whoami : Applet := fixed "root" 0

def printenv : Applet := do
  let args ← args
  let env := (← read).env
  if args.isEmpty then
    for (name, value) in env do
      printLine (name ++ '=' :: value)
    return 0
  forEach args fun name => do
    match env.lookup name with
    | some value => printLine value; return 0
    | none => return 1

def searchPath (env : Env) : List Chars :=
  Chars.splitAt ':' ((env.lookup "PATH".toList).getD "/usr/local/bin:/usr/bin:/bin")

def mayRun (d : Disk) (name : Chars) : Bool :=
  (d.stat name).toOption.any fun e => e.isFile && Test.mayUse e Disk.runBit

def candidates (env : Env) (name : Chars) : List Chars :=
  if name.contains '/' then [name]
  else (searchPath env).map fun dir => if dir.isEmpty then name else dir ++ '/' :: name

def which : Applet := do
  let args ← args
  let env := (← read).env
  let all := args.contains "-a"
  let names := args.filter (· ≠ "-a".toList)
  if names.isEmpty then return 1
  forEach names fun name => do
    let d ← disk
    match (candidates env name).filter (mayRun d) with
    | [] => return 1
    | found =>
      for path in if all then found else found.take 1 do
        printLine path
      return 0

/-!
Programs that run other programs, and that wait.
-/

def become (env : Env) (argv : List Chars) : Util Fault := do
  flush
  let exec := (← read).exec
  let d ← disk
  let name := argv.headD []
  let paths := candidates env name
  match if name.contains '/' then some name else paths.find? (mayRun d) with
  | some path => act (exec path argv env)
  | none => return if paths.any fun p => (d.stat p).isOk then .denied else .notFound

def notRun (f : Fault) : Nat := if f = .notFound then 127 else 126

/-- Becomes another program, or says in some words why that cannot be. -/
def becomeOr (named : Chars → Chars) (env : Env) (argv : List Chars) : Applet := do
  let f ← become env argv
  complain (named (argv.headD []) ++ ": " ++ f.text)
  return notRun f

def missingFor (status : Nat) (words : Chars) : Applet := do
  let _ ← missing words
  return status

/-- How a process ends that is waited for. -/
def endOf (pid : Nat) : Util (Option Ending) := do
  match ← ask (.await (some pid) true false) with
  | .ended _ ending => return some ending
  | _ => return none

def statusOf : Ending → Nat
  | .exited n => n
  | .killed n => 128 + n

/-- Runs a program, in a directory if one is given, and waits for its end. If it cannot be run, that is
said in some words. -/
def runWith (words : Chars → Fault → Chars) (dir : Option Chars) (env : Env) (argv : List Chars) :
    Util Ending := do
  flush
  let inv ← read
  let child : Util Nat := do
    let f ← match ← (match dir with
        | some dir => ask (.enter dir)
        | none => pure (.ok ())) with
      | .ok _ => become env argv
      | .error f => pure f
    complain (words (argv.headD []) f)
    return notRun f
  let pid ← Act.fork (run child inv)
  return (← endOf pid).getD (.exited 127)

def runAndWait (env : Env) (argv : List Chars) : Util Ending :=
  runWith (fun name f => name ++ ": " ++ f.text) none env argv

def duration? (text : Chars) : Option Nat :=
  let units : List (Char × Nat) := [('s', 1), ('m', 60), ('h', 3600), ('d', 86400)]
  let (number, unit) := match text.getLast?.bind fun c => units.lookup c with
    | some unit => (text.dropLast, unit)
    | none => (text, 1)
  if number = "infinity" || number = "inf" then some (2 ^ 50)
  else
    let (whole, places) := Chars.cut '.' number
    let places := places.getD []
    if (whole.isEmpty && places.isEmpty) || !(whole ++ places).all Char.isDigit then none
    else
      let n := (Chars.toNat? (whole ++ places)).getD 0
      some ((n * unit * 1000000 + 10 ^ places.length - 1) / 10 ^ places.length)

def sleep : Applet := do
  let args ← args
  if args.isEmpty then missing "missing operand"
  else
    match args.find? fun a => (duration? a).isNone with
    | some bad => missing ("invalid time interval " ++ quoted bad)
    | none =>
      let total := (args.filterMap duration?).foldl (· + ·) 0
      ask (.sleepUntil ((← ask .now) + total))
      return 0

def assignment? (arg : Chars) : Option (Chars × Chars) :=
  match Chars.cut '=' arg with
  | (name, some value) => if name.isEmpty then none else some (name, value)
  | _ => none

def withVars (env : Env) (vars : List (Chars × Chars)) : Env :=
  vars.foldl (fun env (name, value) =>
    if env.any (·.1 = name) then env.map fun (n, v) => (n, if n = name then value else v)
    else env ++ [(name, value)]) env

def env : Applet :=
  withOptions (optionsOf "0C:iS:u:v" "ignore-environment=i unset=u: chdir=C: null=0
    split-string=S:") false 125
    fun p => do
  let operands := match p.value? "S" with
    | some text => (Chars.splitAt ' ' text).filter (fun w => !List.isEmpty w) ++ p.operands
    | none => p.operands
  let (isEmpty, operands) := if operands.head? = some ['-'] then (true, operands.tail)
    else (p.has "i", operands)
  let given := (← read).env
  let base := if isEmpty then [] else given
  let base := base.filter fun (name, _) => !(p.values "u").contains name
  let vars := (operands.takeWhile fun a => (assignment? a).isSome).filterMap assignment?
  let argv := operands.dropWhile fun a => (assignment? a).isSome
  let env := withVars base vars
  (p.value? "C").forM fun dir => do let _ ← ask (.enter dir)
  if !argv.isEmpty then return ← becomeOr quoted env argv
  for (name, value) in env do
    print (name ++ '=' :: value ++ [if p.has "0" then '\x00' else '\n'])
  return 0

def runAsIs (specs : List OptionSpec) (status : Nat) (plain : Option String) : Applet :=
  withOptions specs false status fun p => do
  match p.operands, plain with
  | [], some text =>
    printLine text.toList
    return 0
  | [], none => missingFor status "missing operand"
  | _, _ => becomeOr quoted (← read).env p.operands

def nice : Applet := runAsIs (optionsOf "n:" "adjustment=n:") 125 (some "0")

def signalOf? (text : Chars) : Option Nat :=
  match Chars.toNat? text with
  | some n => if n ≤ Signal.last then some n else none
  | none =>
    let name := String.ofList (text.map Char.toUpper)
    Signal.ofName? (if name.startsWith "SIG" then (name.drop 3).toString else name)

def alarm (time : Nat) : Act Nat := do
  Act.ask (.sleepUntil time)
  return 0

def awaitEither (first : Nat) : Nat → Util (Bool × Ending)
  | 0 => return (true, .exited 0)
  | n + 1 => do
    match ← ask (.await none true false) with
    | .ended pid ending => return (pid = first, ending)
    | .noChild => return (true, .exited 0)
    | _ => awaitEither first n

def endWithin (micros pid : Nat) : Util (Option Ending) := do
  let time := (← ask .now) + micros
  let timer ← Act.fork (alarm time)
  let (isDone, ending) ← awaitEither pid 8
  if !isDone then return none
  let _ ← ask (.kill timer Signal.kill)
  return some ending

def timeout : Applet :=
  withOptions (optionsOf "k:s:v" "signal=s: kill-after=k: preserve-status=preserve foreground") false 125 fun p => do
  match p.operands with
  | [] => missingFor 125 "missing operand"
  | limit :: argv =>
    match duration? limit, signalOf? ((p.value? "s").getD "TERM") with
    | none, _ => missingFor 125 ("invalid time interval " ++ quoted limit)
    | _, none => missingFor 125 ((p.value? "s").getD [] ++ ": invalid signal")
    | some micros, some signal =>
      if argv.isEmpty then return ← missingFor 125 "missing operand"
      let inv ← read
      let isAlone := !p.has "foreground"
      if isAlone then ask .lead
      let send (pid signal : Nat) : Util Unit := do
        let _ ← ask (.kill pid signal)
        if isAlone then
          ask (.handle signal .ignore)
          let _ ← ask (.kill 0 signal)
        if signal ≠ Signal.kill && signal ≠ Signal.resume then
          let _ ← ask (.kill pid Signal.resume)
          if isAlone then let _ ← ask (.kill 0 Signal.resume)
      let child := becomeOr (fun name => "failed to run command " ++ quoted name) inv.env argv
      let pid ← Act.fork (run child inv)
      if micros = 0 then return ((← endOf pid).map statusOf).getD 125
      if let some ending ← endWithin micros pid then return statusOf ending
      send pid signal
      let ending ← match (p.value? "k").bind duration? with
        | none => do pure ((← endOf pid).getD (.exited 124))
        | some micros =>
          match ← endWithin micros pid with
          | some ending => pure ending
          | none => do
            send pid Signal.kill
            let _ ← endOf pid
            pure (.killed Signal.kill)
      return if p.has "preserve" then statusOf ending
        else if ending = .killed Signal.kill then 137
        else 124

def kill : Applet := do
  let args ← args
  let (signal, targets) := match args with
    | ['-', 's'] :: name :: rest => (signalOf? name, rest)
    | ('-' :: c :: name) :: rest =>
      if c = '-' then (some Signal.term, rest) else (signalOf? (c :: name), rest)
    | rest => (some Signal.term, rest)
  let targets := if targets.head? = some ['-', '-'] then targets.tail else targets
  let some n := signal | failWith 1 "invalid signal"
  forEach targets fun t => do
    let some target := Chars.toInt? t | failWith 1 (quoted t ++ ": invalid process id")
    match ← ask (.kill target n) with
    | .ok _ => return 0
    | .error f => failWith 1 ('(' :: t ++ "): " ++ f.text)

/-- The words of the input of `xargs`, with quotes and backslashes. -/
def quotedWords : Nat → Chars → Option Chars → List Chars → Except Chars (List Chars)
  | 0, _, _, done | _, [], none, done => .ok done.reverse
  | _, [], some w, done => .ok (w.reverse :: done).reverse
  | n + 1, c :: rest, word, done =>
    let w := word.getD []
    if c = ' ' || c = '\t' || c = '\n' then
      quotedWords n rest none ((word.map List.reverse).toList ++ done)
    else if c = '\'' || c = '"' then
      let inner := rest.takeWhile fun d => d ≠ c && d ≠ '\n'
      let behind := rest.drop inner.length
      if behind.head? = some c then quotedWords n behind.tail (some (inner.reverse ++ w)) done
      else
        .error ("unmatched " ++ (if c = '"' then "double" else "single").toList ++
          " quote; by default quotes are special to xargs unless you use the -0 option")
    else if c = '\\' then
      match rest with
      | d :: rest => quotedWords n rest (some (d :: w)) done
      | [] => quotedWords n [] (some w) done
    else quotedWords n rest (some (c :: w)) done

def replaceAll (old new : Chars) : Nat → Chars → Chars
  | 0, text => text
  | _, [] => []
  | n + 1, c :: rest =>
    if !old.isEmpty && old.isPrefixOf (c :: rest) then
      new ++ replaceAll old new n ((c :: rest).drop old.length)
    else c :: replaceAll old new n rest

def runAll (trace : Bool) (env : Env) : List (List Chars) → Nat → Util Nat
  | [], status => return status
  | argv :: rest, status => do
    if trace then let _ ← Act.write 2 (Chars.join [' '] argv ++ ['\n'])
    match ← runAndWait env argv with
    | .exited 0 => runAll trace env rest status
    | .exited 255 =>
      complain (argv.headD [] ++ ": exited with status 255; aborting")
      return 124
    | .exited 126 => return 126
    | .exited 127 => return 127
    | .exited _ => runAll trace env rest 123
    | .killed n =>
      complain (argv.headD [] ++ ": terminated by signal " ++ Chars.ofNat n)
      return 125

def xargs : Applet :=
  withOptions (optionsOf "0a:d:E:I:L:n:oP:prs:tx" "null=0 max-args=n: no-run-if-empty=r
    delimiter=d: max-lines=L: replace=I: verbose=t max-procs=P:") false 1 fun p => do
  let env := (← read).env
  let command := if p.operands.isEmpty then ["echo".toList] else p.operands
  let input ← match p.value? "a" with
    | some file => contents file
    | none => Act.readAll 0
  match input with
  | .error f => failWith 1 f.text
  | .ok text =>
    let delimiter := if p.has "0" then some '\x00' else (p.value? "d").map fun d =>
      match d with
      | ['\\', 'n'] => '\n'
      | ['\\', 't'] => '\t'
      | ['\\', '0'] => '\x00'
      | d => d.headD '\n'
    let lines := (Chars.lines text).1
    let items : Except Chars (List Chars) := match delimiter with
      | some d =>
        let parts := Chars.splitAt d text
        .ok (if parts.getLast? = some [] then parts.dropLast else parts)
      | none =>
        if p.has "I" then .ok ((lines.map fun l => l.dropWhile fun c => c = ' ' || c = '\t').filter (!·.isEmpty))
        else quotedWords (text.length + 2) text none []
    match items with
    | .error e => failWith 1 e
    | .ok items =>
      let commands := match p.value? "I" with
        | some mark => items.map fun item => command.map fun w => replaceAll mark item (w.length + 1) w
        | none =>
          match (p.value? "n").bind Chars.toNat?, (p.value? "L").bind Chars.toNat? with
          | some n, _ => (chunks n (items.length + 1) items).map (command ++ ·)
          | none, some n =>
            let filled := lines.filter (!·.isEmpty)
            (chunks n (filled.length + 1) filled).map fun group =>
              command ++ group.flatMap fun l => ((quotedWords (l.length + 2) l none []).toOption).getD []
          | none, none => if items.isEmpty then [] else [command ++ items]
      let commands := if commands.isEmpty && !p.has "r" && !p.has "I" then [command] else commands
      runAll (p.has "t") env commands 0

end Prune.Utility
