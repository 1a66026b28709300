import Prune.Artefact
import Prune.Directive

/-!
What a sweep is told: the build tool and how to call it, the project, the sources to look at, and
where progress and log are kept.
-/

namespace Prune

inductive LogFormat where
  | compact | json
deriving DecidableEq, Repr

namespace LogFormat

def name : LogFormat → String
  | .compact => "compact"
  | .json => "json"

/-- Reads the name of a format; the case of its letters does not matter. -/
def ofName? (s : String) : Option LogFormat :=
  let s := s.toList.map Char.toLower
  if s = "compact".toList then some .compact
  else if s = "json".toList then some .json
  else none

end LogFormat

namespace Template

/-- Every occurrence of `pattern`, from left to right and without overlap, replaced by `value`.
`skip` characters belong to an occurrence already replaced. -/
def replaceFrom (pattern value : List Char) : Nat → List Char → List Char
  | _, [] => []
  | skip + 1, _ :: cs => replaceFrom pattern value skip cs
  | 0, c :: cs =>
    if pattern.isPrefixOf (c :: cs) then value ++ replaceFrom pattern value (pattern.length - 1) cs
    else c :: replaceFrom pattern value 0 cs

def replace (pattern value text : List Char) : List Char := replaceFrom pattern value 0 text

def projectHole : List Char := "\x7bproject\x7d".toList

def configurationHole : List Char := "\x7bconfiguration\x7d".toList

/-- The project goes in first, then the configuration, also into what the project brought in. -/
def render (project configuration : String) (argument : String) : String :=
  String.ofList
    (replace configurationHole configuration.toList (replace projectHole project.toList argument.toList))

def namesProject (argument : String) : Bool := go argument.toList
where
  go : List Char → Bool
    | [] => false
    | c :: cs => projectHole.isPrefixOf (c :: cs) || go cs

end Template

structure Settings where
  tool : Path
  project : Path
  configuration : String
  sourceRoot : Path
  arguments : List String
  timeoutMillis : Nat
  extensions : List Bytes
  directives : List String
  progressFile : Path
  logFile : Path
  logFilter : String
  logFormat : LogFormat
deriving DecidableEq, Repr

namespace Settings

def defaultArguments : List String :=
  ["\x7bproject\x7d", "/t:Rebuild", "/p:Configuration=\x7bconfiguration\x7d"]

def defaultTimeoutSeconds : Nat := 3600

def defaultExtensions : List Bytes :=
  ["c", "cc", "cpp", "cxx", "c++", "h", "hh", "hpp", "hxx", "h++", "inl", "ipp"].map Bytes.ofString

def defaultLogFilter : String := "info"

def ofProject (tool project : Path) (configuration : String) (sourceRoot : Path) : Settings where
  tool := tool
  project := project
  configuration := configuration
  sourceRoot := sourceRoot
  arguments := defaultArguments
  timeoutMillis := defaultTimeoutSeconds * 1000
  extensions := defaultExtensions
  directives := Directive.defaultKeywords
  progressFile := Artefact.progressFile project
  logFile := Artefact.logFile project
  logFilter := defaultLogFilter
  logFormat := .compact

variable (s : Settings)

def withArguments (arguments : List String) : Settings :=
  if arguments.isEmpty then s else { s with arguments }

def normalExtension (ext : String) : Bytes := Bytes.lower ((Bytes.ofString ext).dropWhile (· == Path.dot))

def withExtensions (extensions : List String) : Settings :=
  if extensions.isEmpty then s else { s with extensions := extensions.map normalExtension }

def withDirectives (directives : List String) : Settings :=
  if directives.isEmpty then s else { s with directives }

def trialProject : Path := Artefact.trial s.project

def matcher : Directive.Matcher := .ofKeywords s.directives

def renderArguments (project : Path) (configuration : String) : List String :=
  s.arguments.map (Template.render project.display configuration)

inductive Flaw where
  | emptyConfiguration | zeroTimeout | projectNotNamed | noExtension | noDirective
deriving DecidableEq, Repr

def Flaw.message : Flaw → String
  | .emptyConfiguration => "the build configuration name must not be empty"
  | .zeroTimeout => "the build timeout must be at least one second"
  | .projectNotNamed => "build arguments must reference \x7bproject\x7d"
  | .noExtension => "at least one source file extension is required"
  | .noDirective => "at least one directive keyword is required"

def flaw? : Option Flaw :=
  if Text.trim s.configuration = "" then some .emptyConfiguration
  else if s.timeoutMillis = 0 then some .zeroTimeout
  else if !s.arguments.any Template.namesProject then some .projectNotNamed
  else if s.extensions.all (·.isEmpty) then some .noExtension
  else if s.directives.all (Text.trim · = "") then some .noDirective
  else none

end Settings

end Prune
