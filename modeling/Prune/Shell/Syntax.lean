import Prune.Text.Chars

/-!
What a shell script is made of: words in parts, redirections and commands.
-/

namespace Prune.Shell

/-- The language of a script: the common one, or that with lists, conditions and more. -/
inductive Dialect where
  | common | extended
deriving DecidableEq

inductive Opening where
  | input
  | output
  /-- Output that replaces a file even where files are protected. -/
  | force
  | append
  | both
deriving DecidableEq

inductive Occurrence where
  | first
  | every
  /-- One at the start. -/
  | atStart
  /-- One at the end. -/
  | atEnd

inductive Recase where
  | upper | lower | toggle

inductive Follow where
  | stop
  /-- The next arm is run. -/
  | fall
  /-- The next arms are looked at. -/
  | look
deriving DecidableEq

mutual

/-- A part of a word. Parts that are `quoted` are not split, and stand for themselves in patterns. -/
inductive Part where
  | plain (c : Char)
  | quoted (c : Char)
  /-- There were quotes here, so there is a word even if it is empty. -/
  | mark
  | param (name : Chars) (index : Index) (form : Form) (quoted : Bool)
  | command (body : Command) (quoted : Bool)
  | sum (body : List Part) (quoted : Bool)
  /-- A malformed parameter, which fails when it is reached. -/
  | malformed (text : Chars)
  /-- The elements of a list that is assigned, and how they are written. -/
  | items (values : List (List Part)) (written : Chars)
  /-- A file to read what a command prints, or to write what it reads. -/
  | feed (body : Command) (reads : Bool)

inductive Index where
  | whole
  | every (joined : Bool)
  | element (place : List Part)

inductive Form where
  | value
  | length
  /-- With `colon` an empty value counts as none. -/
  | orElse (colon : Bool) (word : List Part)
  | orAssign (colon : Bool) (word : List Part)
  | orFail (colon : Bool) (word : List Part)
  | andThen (colon : Bool) (word : List Part)
  | withoutStart (longest : Bool) (pattern : List Part)
  | withoutEnd (longest : Bool) (pattern : List Part)
  | slice (start : List Part) (count : Option (List Part))
  | replace (which : Occurrence) (pattern new : List Part)
  | recase (change : Recase) (every : Bool) (pattern : List Part)
  /-- The places of the elements of a list. -/
  | keys
  /-- The names that start with that of the parameter. -/
  | names (joined : Bool)
  /-- The value is the name of the parameter that is meant. -/
  | through (form : Form)
  | transform (how : Char)

inductive Redirection where
  | file (fd : Nat) (opening : Opening) (name : List Part)
  /-- Another number for what the word names, or the number closed. -/
  | copy (fd : Nat) (source : List Part)
  /-- A document in the script itself, by its number. -/
  | document (fd number : Nat)
  | text (fd : Nat) (content : List Part)
  /-- The standard output and the errors go to a file. -/
  | both (appends : Bool) (name : List Part)
  /-- A number is chosen and assigned to a variable. -/
  | chosen (name : Chars) (redirection : Redirection)

inductive Assignment where
  | mk (name : Chars) (index : Option (List Part)) (appends : Bool) (value : List Part)

inductive Condition where
  | text (word : List Part)
  | unary (op : Chars) (word : List Part)
  | binary (left : List Part) (op : Chars) (right : List Part)
  | not (body : Condition)
  | and (first second : Condition)
  | or (first second : Condition)

inductive Command where
  | simple (line : Nat) (assignments : List Assignment) (words : List (List Part))
      (redirections : List Redirection)
  | pipe (stages : List Command)
  | background (line : Nat) (body : Command)
  | not (body : Command)
  | and (first second : Command)
  | or (first second : Command)
  | seq (first second : Command)
  | subshell (line : Nat) (body : Command) (redirections : List Redirection)
  | redirected (line : Nat) (body : Command) (redirections : List Redirection)
  | cond (test yes : Command) (no : Option Command)
  | loop (wanted : Bool) (test body : Command)
  /-- Without words it runs over the arguments. Its head is kept as it is written. -/
  | each (line : Nat) (head : Chars) (name : Chars) (words : Option (List (List Part))) (body : Command)
  | select (line : Nat) (head : Chars) (subject : List Part) (arms : List (List (List Part) × Option Command × Follow))
  | define (line : Nat) (name : Chars) (body : Command)
  | compute (line : Nat) (body : List Part)
  | test (line : Nat) (condition : Condition)
  /-- A loop that counts: what is done before it, before each round and behind each round. -/
  | count (line : Nat) (start test step : List Part) (body : Command)
  | timed (common : Bool) (body : Command)

end

abbrev Word := List Part

instance : Inhabited Command := ⟨.simple 0 [] [] []⟩

def literal? : Word → Option Chars
  | [] => some []
  | .plain c :: rest => (literal? rest).map (c :: ·)
  | _ => none

def plainWord (text : Chars) : Word := text.map .plain

def isNameStart (c : Char) : Bool := c.isAlpha || c = '_'

def isNameChar (c : Char) : Bool := c.isAlphanum || c = '_'

def isName : Chars → Bool
  | [] => false
  | c :: rest => isNameStart c && rest.all isNameChar

end Prune.Shell
