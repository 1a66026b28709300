import Prune.Utility.Amount

/-!
Digests of files: those that chain blocks of sixteen words, a cyclic sum, and a turned one.
-/

namespace Prune.Utility

namespace Digest

def bytesOf (n value : Nat) : List UInt8 :=
  ((List.range n).map fun i => UInt8.ofNat (value / 256 ^ i)).reverse

def ordered (lowFirst : Bool) (bytes : List UInt8) : List UInt8 := if lowFirst then bytes.reverse else bytes

/-- The blocks of a message, sixteen words of `w` bits each: it is followed by a one and zeros, so that
its length in bits fills up the last block. -/
def blocks (w : Nat) (lowFirst : Bool) (message : List UInt8) : List (List (BitVec w)) :=
  let zeros := (4 * w - 1 - w / 4 - message.length % (2 * w)) % (2 * w)
  let size := ordered lowFirst (bytesOf (w / 4) (message.length * 8))
  let padded := message ++ 0x80 :: List.replicate zeros 0 ++ size
  let words := (chunks (w / 8) padded.length padded).map fun bytes =>
    BitVec.ofNat w ((ordered lowFirst bytes).foldl (fun v b => 256 * v + b.toNat) 0)
  chunks 16 words.length words

/-- Each block is mixed into the words so far, which are then added to the outcome. -/
def digest {w : Nat} (lowFirst : Bool) (start : List (BitVec w))
    (mix : List (BitVec w) → List (BitVec w) → List (BitVec w)) (message : List UInt8) : Chars :=
  let words := (blocks w lowFirst message).foldl (fun s block => List.zipWith (· + ·) s (mix block s)) start
  words.flatMap fun x => (ordered lowFirst (bytesOf (w / 8) x.toNat)).flatMap fun b =>
    (Nat.toDigits 16 b.toNat).leftpad 2 '0'

/-- The words of a block and those made from them, by a rule on the words before; the latest first. -/
def schedule {w : Nat} (next : List (BitVec w) → BitVec w) (count : Nat) (block : List (BitVec w)) :
    List (BitVec w) :=
  ((List.range (count - 16)).foldl (fun ws _ => next ws :: ws) block.reverse).reverse

/-- The first 32 bits behind the point of a sine, by its series. -/
def sine (n : Nat) : BitVec 32 :=
  let step (sum : Int × Int) (k : Nat) : Int × Int :=
    (sum.1 + sum.2, -sum.2 * (n * n) / ((2 * k + 2) * (2 * k + 3)))
  .ofNat 32 (((List.range 120).foldl step (0, n * 2 ^ 256)).1.natAbs / 2 ^ 224)

def sines : List (BitVec 32) := (List.range 64).map fun i => sine (i + 1)

def turns : List (List Nat) := [[7, 12, 17, 22], [5, 9, 14, 20], [4, 11, 16, 23], [6, 10, 15, 21]]

def md5Round (block state : List (BitVec 32)) (i : Nat) : List (BitVec 32) :=
  match state with
  | [a, b, c, d] =>
    let (f, place) := match i / 16 with
      | 0 => ((b &&& c) ||| (~~~b &&& d), i)
      | 1 => ((d &&& b) ||| (~~~d &&& c), 5 * i + 1)
      | 2 => (b ^^^ c ^^^ d, 3 * i + 5)
      | _ => (c ^^^ (b ||| ~~~d), 7 * i)
    let sum := a + f + sines.getD i 0 + block.getD (place % 16) 0
    [d, b + sum.rotateLeft ((turns.getD (i / 16) []).getD (i % 4) 0), b, c]
  | state => state

def md5 : List UInt8 → Chars :=
  digest true [0x67452301, 0xefcdab89, 0x98badcfe, 0x10325476] fun block s =>
    (List.range 64).foldl (md5Round block) s

def sha1Round (state : List (BitVec 32)) (iw : BitVec 32 × Nat) : List (BitVec 32) :=
  match state with
  | [a, b, c, d, e] =>
    let (f, k) : BitVec 32 × BitVec 32 := match iw.2 / 20 with
      | 0 => ((b &&& c) ||| (~~~b &&& d), 0x5a827999)
      | 1 => (b ^^^ c ^^^ d, 0x6ed9eba1)
      | 2 => ((b &&& c) ||| (b &&& d) ||| (c &&& d), 0x8f1bbcdc)
      | _ => (b ^^^ c ^^^ d, 0xca62c1d6)
    [a.rotateLeft 5 + f + e + k + iw.1, a, b.rotateLeft 30, c, d]
  | state => state

def sha1 : List UInt8 → Chars :=
  let next (ws : List (BitVec 32)) : BitVec 32 :=
    (ws.getD 2 0 ^^^ ws.getD 7 0 ^^^ ws.getD 13 0 ^^^ ws.getD 15 0).rotateLeft 1
  digest false [0x67452301, 0xefcdab89, 0x98badcfe, 0x10325476, 0xc3d2e1f0] fun block s =>
    (schedule next 80 block).zipIdx.foldl sha1Round s

def primes : List Nat :=
  (List.range 410).filter fun n => 2 ≤ n && (List.range n).all fun k => k < 2 || n % k ≠ 0

/-- The first `w` bits behind the point of the `k`th root of a number. -/
def root (k w n : Nat) : BitVec w :=
  .ofNat w ((List.range (w + 5)).foldr
    (fun i r => if (r + 2 ^ i) ^ k ≤ n * 2 ^ (k * w) then r + 2 ^ i else r) 0)

/-- How far words are turned: those that new ones are made of, and those of a round. The third number
of the first two is a shift. -/
structure Turns where
  early : Nat × Nat × Nat
  late : Nat × Nat × Nat
  fifth : Nat × Nat × Nat
  first : Nat × Nat × Nat

def turned {w : Nat} (x : BitVec w) (n : Nat × Nat × Nat) : BitVec w :=
  x.rotateRight n.1 ^^^ x.rotateRight n.2.1 ^^^ x.rotateRight n.2.2

def shifted {w : Nat} (x : BitVec w) (n : Nat × Nat × Nat) : BitVec w :=
  x.rotateRight n.1 ^^^ x.rotateRight n.2.1 ^^^ (x >>> n.2.2)

def sha2Round {w : Nat} (t : Turns) (state : List (BitVec w)) (wk : BitVec w × BitVec w) : List (BitVec w) :=
  match state with
  | [a, b, c, d, e, f, g, h] =>
    let one := h + turned e t.fifth + ((e &&& f) ^^^ (~~~e &&& g)) + wk.2 + wk.1
    let two := turned a t.first + ((a &&& b) ^^^ (a &&& c) ^^^ (b &&& c))
    [one + two, a, b, c, d + one, e, f, g]
  | state => state

/-- In each round a part of the cube root of a prime is added. -/
def sha2 {w : Nat} (t : Turns) (rounds : Nat) (start : List (BitVec w)) : List UInt8 → Chars :=
  let next (ws : List (BitVec w)) : BitVec w :=
    ws.getD 15 0 + shifted (ws.getD 14 0) t.early + ws.getD 6 0 + shifted (ws.getD 1 0) t.late
  let roots := (primes.take rounds).map (root 3 w)
  digest false start fun block s => ((schedule next rounds block).zip roots).foldl (sha2Round t) s

def shortTurns : Turns := ⟨(7, 18, 3), (17, 19, 10), (6, 11, 25), (2, 13, 22)⟩

def longTurns : Turns := ⟨(1, 8, 7), (19, 61, 6), (14, 18, 41), (28, 34, 39)⟩

def sha256 : List UInt8 → Chars := sha2 shortTurns 64 ((primes.take 8).map (root 2 32))

variable (message : List UInt8)

def sha224 : Chars :=
  (sha2 shortTurns 64 (((primes.drop 8).take 8).map fun n => (root 2 64 n).setWidth 32) message).take 56

def sha512 : List UInt8 → Chars := sha2 longTurns 80 ((primes.take 8).map (root 2 64))

def cyclicStep (sum : UInt32) (b : UInt8) : UInt32 :=
  (List.range 8).foldl (fun s _ => if s &&& 0x80000000 = 0 then s <<< 1 else (s <<< 1) ^^^ 0x04c11db7)
    (sum ^^^ (b.toUInt32 <<< 24))

def cyclicSum : UInt32 :=
  let size := ((bytesOf 8 message.length).dropWhile (· = 0)).reverse
  ~~~((message ++ size).foldl cyclicStep 0)

def turnedSum : Nat :=
  message.foldl (fun s b => (s / 2 + s % 2 * 32768 + b.toNat) % 65536) 0

end Digest

open Host Util

/-- The lines of a list of digests: a digest, two characters, and a name; or what the digest is
called, a name in brackets, and the digest. -/
def digestLine? (label : String) (size : Nat) (line : Chars) : Option (Chars × Chars) :=
  let plain := match line.span Char.isAlphanum with
    | (sum, ' ' :: mark :: name) =>
      if sum.length = size && (mark = ' ' || mark = '*') && !name.isEmpty then some (sum, name) else none
    | _ => none
  let front := label.toList ++ " ("
  let last := line.drop (line.length - size)
  let middle := (line.take (line.length - size)).drop front.length
  let tagged := if front.isPrefixOf line && ") = ".toList.isSuffixOf middle && last.all Char.isAlphanum then
      some (last, middle.take (middle.length - 4))
    else none
  (plain <|> tagged).map fun (sum, name) => (sum.map Char.toLower, name)

def checkDigests (label : String) (digest : List UInt8 → Chars) (p : Parsed) (file : Chars) (text : Chars) :
    Util Nat := do
  let speaks := !(p.has "status")
  let size := (digest []).length
  let lines := (Chars.lines text).1
  let entries := lines.filterMap (digestLine? label size)
  if entries.isEmpty then failWith 1 (file ++ ": no properly formatted checksum lines found")
  else
    let mut unread := 0
    let mut wrong := 0
    for (sum, name) in entries do
      match ← contents name with
      | .error f =>
        complainOf name f
        unread := unread + 1
        if speaks then printLine (name ++ ": FAILED open or read")
      | .ok content =>
        if digest (Chars.toBytes content) = sum then
          if speaks && !p.has "quiet" then printLine (name ++ ": OK")
        else
          wrong := wrong + 1
          if speaks then printLine (name ++ ": FAILED")
    flush
    if speaks then
      for (n, one, many) in [
          (lines.length - entries.length, "line is improperly formatted", "lines are improperly formatted"),
          (unread, "listed file could not be read", "listed files could not be read"),
          (wrong, "computed checksum did NOT match", "computed checksums did NOT match")] do
        if n > 0 then
          complain ("WARNING: " ++ Chars.ofNat n ++ ' ' :: (if n = 1 then one else many).toList)
    return if unread + wrong > 0 then 1 else 0

def digestWith (label : String) (digest : List UInt8 → Chars) : Applet :=
  withOptions (optionsOf "bctwz" "check=c binary=b text=t quiet status warn=w tag zero=z") true 1 fun p => do
  forEach p.files fun file => Effort.status do
    let text ← Effort.text file
    if p.has "c" then checkDigests label digest p (if file = ['-'] then "'standard input'" else file) text
    else
      let sum := digest (Chars.toBytes text)
      let line := if p.has "tag" then label.toList ++ " (" ++ file ++ ") = " ++ sum
        else sum ++ [' ', if p.has "b" then '*' else ' '] ++ file
      print (line ++ [p.mark])
      return 0

def md5sum : Applet := digestWith "MD5" Digest.md5

def sha1sum : Applet := digestWith "SHA1" Digest.sha1

def sha224sum : Applet := digestWith "SHA224" Digest.sha224

def sha256sum : Applet := digestWith "SHA256" Digest.sha256

def sha512sum : Applet := digestWith "SHA512" Digest.sha512

def summed (line : Chars → Chars) (operands : List Chars) : Util Nat := do
  let files := if operands.isEmpty then [['-']] else operands
  forEach files fun file => Effort.status do
    let text ← Effort.text file
    printLine (line text ++ (if operands.isEmpty then [] else ' ' :: file))
    return 0

def cksum : Applet :=
  withOptions [] true 1 fun p =>
  summed (fun text => Chars.ofNat (Digest.cyclicSum (Chars.toBytes text)).toNat ++ ' ' ::
    Chars.ofNat text.length) p.operands

def sumLine (text : Chars) : Chars :=
  (Chars.ofNat (Digest.turnedSum (Chars.toBytes text))).leftpad 5 '0' ++ ' ' ::
    Chars.padLeft 5 (Chars.ofNat ((text.length + 1023) / 1024))

def sum : Applet := withOptions (lettersOf "r") true 1 fun p => summed sumLine p.operands

/-!
Bytes written with digits that stand for five or six bits.
-/

/-- A way to write bytes: the digits, how many bits one stands for, and how many make a group that is
filled up. -/
structure BitDigits where
  digits : Chars
  bits : Nat
  group : Nat

namespace BitDigits

def base32 : BitDigits := ⟨"ABCDEFGHIJKLMNOPQRSTUVWXYZ234567", 5, 8⟩

def base64 : BitDigits := ⟨"ABCDEFGHIJKLMNOPQRSTUVWXYZabcdefghijklmnopqrstuvwxyz0123456789+/", 6, 4⟩

variable (b : BitDigits)

def groupBytes : Nat := b.group * b.bits / 8

def encode : Nat → Chars → Chars
  | 0, _ | _, [] => []
  | n + 1, text =>
    let size := b.groupBytes
    let part := text.take size
    let value := (part.map Char.toNat ++ List.replicate (size - part.length) 0).foldl (256 * · + ·) 0
    let all := (List.range b.group).map fun i =>
      b.digits.getD (value / 2 ^ (b.bits * (b.group - 1 - i)) % 2 ^ b.bits) 'A'
    let count := (part.length * 8 + b.bits - 1) / b.bits
    all.take count ++ List.replicate (b.group - count) '=' ++ encode n (text.drop size)

def decode : Nat → Chars → Chars × Bool
  | 0, _ => ([], false)
  | _, [] => ([], true)
  | n + 1, text =>
    let part := text.take b.group
    let (digits, filling) := part.span b.digits.contains
    let isFull := part.length = b.group && filling.all (· = '=') && digits.length * b.bits ≥ 8
    let value := (digits.map (b.digits.idxOf ·) ++ List.replicate (b.group - digits.length) 0).foldl
      (2 ^ b.bits * · + ·) 0
    let size := b.groupBytes
    let bytes := (List.range size).map fun i => Char.ofNat (value / 256 ^ (size - 1 - i) % 256)
    let now := bytes.take (digits.length * b.bits / 8)
    if isFull then
      let (more, ok) := decode n (text.drop b.group)
      (now ++ more, ok)
    else (now, false)

end BitDigits

def digitsWith (b : BitDigits) (p : Parsed) : Applet := Effort.status do
  let text ← Effort.text (p.operands.headD ['-'])
  if p.has "d" then
    let keeps (c : Char) : Bool := if p.has "i" then c = '=' || b.digits.contains c else c ≠ '\n'
    let (result, ok) := b.decode (text.length + 1) (text.filter keeps)
    print result
    if !ok then Effort.refuse 1 "invalid input"
    return 0
  let width := ((p.value? "w").bind Chars.toNat?).getD 76
  let encoded := b.encode (text.length + 1) text
  if width = 0 then print encoded
  else
    for line in chunks width (encoded.length + 1) encoded do
      printLine line
  return 0

def digitOptions : List OptionSpec := optionsOf "diw:" "decode=d ignore-garbage=i wrap=w:"

def base32 : Applet := withOptions digitOptions true 1 (digitsWith .base32)

def base64 : Applet := withOptions digitOptions true 1 (digitsWith .base64)

end Prune.Utility
