import Prune.Settings
import Prune.Text.Terminal

/-!
What the program says about itself.
-/

namespace Prune.CommandLine

def programName : String := "include-sweeper"

def versionText : String := programName ++ " 0.1.0\n"

def helpText : String := String.join [
  "Removes `#include` directives that a project can build without.\n",
  "\n",
  "Every candidate directive is removed in turn and kept out only if the project still ",
  "builds. Progress is saved after every file so an interrupted run can simply be started ",
  "again with the same arguments.\n",
  "\n",
  "Usage: include-sweeper [OPTIONS] <BUILD_TOOL> <PROJECT> <CONFIGURATION> <SOURCE_ROOT>\n",
  "\n",
  "Arguments:\n",
  "  <BUILD_TOOL>\n",
  "          Build tool executable (for example `msbuild`)\n",
  "\n",
  "  <PROJECT>\n",
  "          Project definition passed to the build tool\n",
  "\n",
  "  <CONFIGURATION>\n",
  "          Build configuration name (for example `Release`)\n",
  "\n",
  "  <SOURCE_ROOT>\n",
  "          Directory whose source files are swept\n",
  "\n",
  "Options:\n",
  "      --build-arg <ARG>\n",
  "          Replaces the build argument template; repeat once per argument. ",
  "`\x7bproject\x7d` and `\x7bconfiguration\x7d` are substituted\n",
  "\n",
  "      --build-timeout-secs <SECONDS>\n",
  "          Seconds a single build may run before it counts as failed\n",
  "          \n",
  "          [default: 3600]\n",
  "\n",
  "      --extension <EXT>\n",
  "          Replaces the eligible file extensions; repeatable\n",
  "\n",
  "      --directive <KEYWORD>\n",
  "          Replaces the directive keywords treated as inclusions; repeatable\n",
  "\n",
  "      --progress-file <PATH>\n",
  "          Progress file location. Defaults to the project directory\n",
  "\n",
  "      --log-file <PATH>\n",
  "          Log file location. Defaults to the project directory\n",
  "\n",
  "      --log-filter <FILTER>\n",
  "          Tracing filter expression\n",
  "          \n",
  "          [default: info]\n",
  "\n",
  "      --log-format <FORMAT>\n",
  "          Log output format: `compact` or `json`\n",
  "          \n",
  "          [default: compact]\n",
  "\n",
  "  -h, --help\n",
  "          Print help (see a summary with '-h')\n",
  "\n",
  "  -V, --version\n",
  "          Print version\n"]

def shortHelpText : String := String.join [
  "Removes `#include` directives that a project can build without\n",
  "\n",
  "Usage: include-sweeper [OPTIONS] <BUILD_TOOL> <PROJECT> <CONFIGURATION> <SOURCE_ROOT>\n",
  "\n",
  "Arguments:\n",
  "  <BUILD_TOOL>     Build tool executable (for example `msbuild`)\n",
  "  <PROJECT>        Project definition passed to the build tool\n",
  "  <CONFIGURATION>  Build configuration name (for example `Release`)\n",
  "  <SOURCE_ROOT>    Directory whose source files are swept\n",
  "\n",
  "Options:\n",
  "      --build-arg <ARG>               Replaces the build argument template; repeat once ",
  "per argument. `\x7bproject\x7d` and `\x7bconfiguration\x7d` are substituted\n",
  "      --build-timeout-secs <SECONDS>  Seconds a single build may run before it counts ",
  "as failed [default: 3600]\n",
  "      --extension <EXT>               Replaces the eligible file extensions; ",
  "repeatable\n",
  "      --directive <KEYWORD>           Replaces the directive keywords treated as ",
  "inclusions; repeatable\n",
  "      --progress-file <PATH>          Progress file location. Defaults to the project ",
  "directory\n",
  "      --log-file <PATH>               Log file location. Defaults to the project ",
  "directory\n",
  "      --log-filter <FILTER>           Tracing filter expression [default: info]\n",
  "      --log-format <FORMAT>           Log output format: `compact` or `json` [default: ",
  "compact]\n",
  "  -h, --help                          Print help (see more with '--help')\n",
  "  -V, --version                       Print version\n"]

/-!
Reading the arguments of the program. Options and the four operands may be mixed; the value of an
option is its next argument or stands behind `=`. An argument is checked when the next one is met, so
of two faults the earlier is told, but an unknown argument goes before the one in front of it.
-/

inductive Flag where
  | buildArgument | buildTimeout | extension | directive | progressFile | logFile | logFilter
  | logFormat
deriving DecidableEq, Repr

namespace Flag

def all : List Flag :=
  [.buildArgument, .buildTimeout, .extension, .directive, .progressFile, .logFile, .logFilter, .logFormat]

def name : Flag → String
  | .buildArgument => "build-arg"
  | .buildTimeout => "build-timeout-secs"
  | .extension => "extension"
  | .directive => "directive"
  | .progressFile => "progress-file"
  | .logFile => "log-file"
  | .logFilter => "log-filter"
  | .logFormat => "log-format"

def valueName : Flag → String
  | .buildArgument => "ARG"
  | .buildTimeout => "SECONDS"
  | .extension => "EXT"
  | .directive => "KEYWORD"
  | .progressFile | .logFile => "PATH"
  | .logFilter => "FILTER"
  | .logFormat => "FORMAT"

def usage (f : Flag) : String := "--" ++ f.name ++ " <" ++ f.valueName ++ ">"

def isRepeatable : Flag → Bool
  | .buildArgument | .extension | .directive => true
  | _ => false

/-- Whether any argument is taken for its value, even one that looks like an option. -/
def takesAnything : Flag → Bool
  | .buildArgument => true
  | _ => false

end Flag

def operandNames : List String := ["<BUILD_TOOL>", "<PROJECT>", "<CONFIGURATION>", "<SOURCE_ROOT>"]

inductive Misuse where
  | missing (operands : List String)
  | unexpected (argument : String)
  | unexpectedValue (value flag : String)
  | invalidValue (value : String) (flag : Flag) (reason : String)
  | valueRequired (flag : Flag)
  | repeated (flag : Flag)
  | notText
deriving DecidableEq, Repr

/-- A value as it is quoted to the user. It is set off by a control that ends any sequence it left
open, and then controls are taken out. -/
def told (value : String) : String := Text.shown (value ++ "\x1b[0m")

def Misuse.message : Misuse → String
  | .missing operands =>
    "the following required arguments were not provided:" ++ String.join (operands.map fun o => "\n  " ++ o)
  | .unexpected argument => s!"unexpected argument '{told argument}' found"
  | .unexpectedValue value flag =>
    s!"unexpected value '{told value}' for '{flag}' found; no more were expected"
  | .invalidValue value flag reason => s!"invalid value '{told value}' for '{flag.usage}': {reason}"
  | .valueRequired flag => s!"a value is required for '{flag.usage}' but none was supplied"
  | .repeated flag => s!"the argument '{flag.usage}' cannot be used multiple times"
  | .notText => "invalid UTF-8 was detected in one or more arguments"

inductive Halt where
  | help
  | shortHelp
  | version
  | misuse (m : Misuse)
deriving DecidableEq, Repr

def maxSeconds : Nat := 2 ^ 64 - 1

/-- A number of seconds from its digits, or why it is none. The first fault from the left counts. -/
def secondsFrom (n : Nat) : List Char → Except String Nat
  | [] => .ok n
  | c :: cs =>
    if !c.isDigit then .error "invalid digit found in string"
    else
      let m := 10 * n + (c.toNat - '0'.toNat)
      if maxSeconds < m then .error "number too large to fit in target type" else secondsFrom m cs

def seconds (s : String) : Except String Nat := do
  let n ← match s.toList with
    | [] => .error "cannot parse integer from empty string"
    | ['+'] => .error "invalid digit found in string"
    | '+' :: cs | cs => secondsFrom 0 cs
  if n = 0 then .error s!"0 is not in 1..{maxSeconds}" else .ok n

structure Arguments where
  operands : List String
  values : List (Flag × String)
deriving DecidableEq, Repr

namespace Arguments

def empty : Arguments := ⟨[], []⟩

def all (a : Arguments) (f : Flag) : List String := (a.values.filter (·.1 = f)).map (·.2)

def get? (a : Arguments) (f : Flag) : Option String := (a.all f).head?

end Arguments

inductive Pending where
  | nothing
  | operand (value : Bytes)
  | flag (f : Flag) (value : Option Bytes)
deriving DecidableEq, Repr

structure Reading where
  done : Arguments
  pending : Pending
  trailing : Bool
deriving DecidableEq, Repr

abbrev Read := Except Halt

def misuse {α : Type} (m : Misuse) : Read α := .error (.misuse m)

def text (value : Bytes) : Read String :=
  match Utf8.decode? value with
  | some s => .ok s
  | none => misuse .notText

def checkValue (f : Flag) (value : String) : Read Unit :=
  match f with
  | .buildTimeout =>
    match seconds value with
    | .ok _ => .ok ()
    | .error reason => misuse (.invalidValue value f reason)
  | .logFormat =>
    if (LogFormat.ofName? value).isSome then .ok ()
    else misuse (.invalidValue value f "Matching variant not found")
  | _ => .ok ()

def accept (a : Arguments) (f : Flag) (value : Bytes) : Read Arguments := do
  if !f.isRepeatable && a.values.any (·.1 = f) then misuse (.repeated f)
  let s ← text value
  checkValue f s
  return { a with values := a.values ++ [(f, s)] }

variable (r : Reading)

def Reading.resolve : Read Reading := do
  match r.pending with
  | .nothing => return r
  | .operand value =>
    let s ← text value
    return { r with done := { r.done with operands := r.done.operands ++ [s] }, pending := .nothing }
  | .flag f none => misuse (.valueRequired f)
  | .flag f (some value) => return { r with done := ← accept r.done f value, pending := .nothing }

def Reading.operandCount : Nat :=
  r.done.operands.length + match r.pending with
    | .operand _ => 1
    | _ => 0

variable (arg : Bytes)

def Reading.operand : Read Reading := do
  if operandNames.length ≤ r.operandCount then misuse (.unexpected (Utf8.lossy arg))
  let r ← r.resolve
  return { r with pending := .operand arg }

def dash : UInt8 := 0x2D

def equals : UInt8 := 0x3D

def Reading.long : Read Reading := do
  let name := arg.takeWhile (· != equals)
  let value? := if name.length < arg.length then some (arg.drop (name.length + 1)) else none
  let special (halt : Halt) : Read Reading := do
    match value? with
    | some value =>
      misuse (.unexpectedValue (Utf8.lossy value) ("--" ++ Utf8.lossy name))
    | none =>
      let _ ← r.resolve
      .error halt
  if name = "help" then special .help
  else if name = "version" then special .version
  else
    match Flag.all.find? fun f => Bytes.ofString f.name = name with
    | none => misuse (.unexpected ("--" ++ Utf8.lossy name))
    | some f =>
      let r ← r.resolve
      match value? with
      | some value => return { r with done := ← accept r.done f value }
      | none => return { r with pending := .flag f none }

/-- An argument that starts with one dash, without it. The first letter decides. -/
def Reading.short : Read Reading := do
  match Utf8.read arg with
  | some 'h' :: _ =>
    let _ ← r.resolve
    .error .shortHelp
  | some 'V' :: _ =>
    let _ ← r.resolve
    .error .version
  | some c :: _ => misuse (.unexpected (String.ofList ['-', c]))
  | _ => misuse (.unexpected ("-" ++ Utf8.lossy arg))

def Reading.optional (otherwise : Reading → Read Reading) :
    Read Reading :=
  if arg = [dash, dash] then .ok { r with trailing := true }
  else
    match arg with
    | a :: b :: rest =>
      if a = dash then if b = dash then r.long rest else r.short (b :: rest)
      else otherwise r
    | _ => otherwise r

def Reading.next : Read Reading :=
  if r.trailing then r.operand arg
  else
    match r.pending with
    | .flag f none =>
      let asValue (r : Reading) : Read Reading := .ok { r with pending := .flag f (some arg) }
      if f.takesAnything then asValue r else r.optional arg asValue
    | _ => r.optional arg (·.operand arg)

def Arguments.read (args : List Bytes) : Read Arguments := do
  let r ← args.foldlM Reading.next ⟨.empty, .nothing, false⟩
  let r ← r.resolve
  let missing := operandNames.drop r.done.operands.length
  if missing.isEmpty then return r.done else misuse (.missing missing)

def Arguments.settings? (a : Arguments) : Option Settings :=
  match a.operands with
  | [tool, project, configuration, root] =>
    let s := Settings.ofProject (.ofString tool) (.ofString project) configuration (.ofString root)
    let s := s.withArguments (a.all .buildArgument)
    let s := s.withExtensions (a.all .extension)
    let s := s.withDirectives (a.all .directive)
    some { s with
      timeoutMillis := match (a.get? .buildTimeout).map seconds with
        | some (.ok n) => n * 1000
        | _ => s.timeoutMillis
      progressFile := ((a.get? .progressFile).map Path.ofString).getD s.progressFile
      logFile := ((a.get? .logFile).map Path.ofString).getD s.logFile
      logFilter := (a.get? .logFilter).getD s.logFilter
      logFormat := ((a.get? .logFormat).bind LogFormat.ofName?).getD s.logFormat }
  | _ => none

end Prune.CommandLine
