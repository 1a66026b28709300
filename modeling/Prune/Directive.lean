import Prune.Text.Letter
import Prune.Text.Bytes

/-!
Which lines are candidates for removal: a `#`, a keyword, and a byte that ends the keyword, with
gaps before and behind the `#`.
-/

namespace Prune.Directive

/-- Space, tab, vertical tab and form feed may stand around the `#`. -/
def isGap (b : UInt8) : Bool := b == 0x20 || b == 0x09 || b == 0x0B || b == 0x0C

def endsKeyword (b : UInt8) : Bool :=
  b == 0x20 || b == 0x09 || b == 0x0A || b == 0x0C || b == 0x0D || b == 0x3C || b == 0x22

structure Matcher where
  keywords : List Bytes
deriving DecidableEq, Repr

def defaultKeywords : List String := ["include"]

/-- Keywords are taken without blanks at their ends; what is then empty is dropped. -/
def Matcher.ofKeywords (keywords : List String) : Matcher where
  keywords := (keywords.map fun k => Bytes.ofString (Text.trim k)).filter (!·.isEmpty)

/-- Whether `body` starts with `keyword` and the keyword ends there. -/
def startsWith (keyword body : Bytes) : Bool :=
  keyword.isPrefixOf body &&
    match (body.drop keyword.length).head? with
    | some b => endsKeyword b
    | none => false

def Matcher.accepts (m : Matcher) (line : Bytes) : Bool :=
  match line.dropWhile isGap with
  | 0x23 :: tail => m.keywords.any (startsWith · (tail.dropWhile isGap))
  | _ => false

end Prune.Directive
