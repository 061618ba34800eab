import RowStore.Text.Quoted

/-!
# SHA-1

The digest of a list of bytes. The message is padded to whole blocks of 64 bytes and each block is
mixed into a state of five words in eighty rounds; all arithmetic is that of 32-bit words.
-/

namespace RowStore.Sha1

/-- The five words that the blocks are mixed into. -/
structure State where
  a : UInt32
  b : UInt32
  c : UInt32
  d : UInt32
  e : UInt32

def initial : State := ⟨0x67452301, 0xEFCDAB89, 0x98BADCFE, 0x10325476, 0xC3D2E1F0⟩

def rotateLeft (x n : UInt32) : UInt32 := (x <<< n) ||| (x >>> (32 - n))

/-- The bytes of a number, most significant first. -/
def bigEndian (count n : Nat) : List UInt8 :=
  (List.range count).reverse.map fun i => UInt8.ofNat (n / 256 ^ i)

/-- The message, a one bit, zeros, and the length of the message in bits. -/
def pad (message : List UInt8) : List UInt8 :=
  message ++ 0x80 :: List.replicate ((119 - message.length % 64) % 64) 0 ++
    bigEndian 8 (8 * message.length)

/-- The words of a list of bytes. -/
def words : List UInt8 → List UInt32
  | p :: q :: r :: s :: rest =>
    ((p.toUInt32 <<< 24) ||| (q.toUInt32 <<< 16) ||| (r.toUInt32 <<< 8) ||| s.toUInt32) ::
      words rest
  | _ => []

/-- The eighty words of a block's rounds. -/
def schedule (block : List UInt32) : Array UInt32 :=
  (List.range 64).foldl (fun w i =>
    w.push (rotateLeft
      (w.getD (i + 13) 0 ^^^ w.getD (i + 8) 0 ^^^ w.getD (i + 2) 0 ^^^ w.getD i 0) 1))
    block.toArray

/-- The mixing function and the constant of a round. -/
def roundParts (i : Nat) (b c d : UInt32) : UInt32 × UInt32 :=
  if i < 20 then ((b &&& c) ||| (~~~b &&& d), 0x5A827999)
  else if i < 40 then (b ^^^ c ^^^ d, 0x6ED9EBA1)
  else if i < 60 then ((b &&& c) ||| (b &&& d) ||| (c &&& d), 0x8F1BBCDC)
  else (b ^^^ c ^^^ d, 0xCA62C1D6)

def round (w : Array UInt32) (s : State) (i : Nat) : State :=
  let (f, k) := roundParts i s.b s.c s.d
  ⟨rotateLeft s.a 5 + f + s.e + k + w.getD i 0, s.a, rotateLeft s.b 30, s.c, s.d⟩

/-- Mixes one block into the state. -/
def mix (s : State) (block : List UInt32) : State :=
  let t := (List.range 80).foldl (round (schedule block)) s
  ⟨s.a + t.a, s.b + t.b, s.c + t.c, s.d + t.d, s.e + t.e⟩

/-- The blocks of sixteen words, at most `count` of them. -/
def blocks : (count : Nat) → List UInt32 → List (List UInt32)
  | 0, _ => []
  | count + 1, ws => if ws.isEmpty then [] else ws.take 16 :: blocks count (ws.drop 16)

/-- The digest as forty hexadecimal digits. -/
def hexChars (message : List UInt8) : List Char :=
  let ws := words (pad message)
  let s := (blocks ws.length ws).foldl mix initial
  [s.a, s.b, s.c, s.d, s.e].flatMap fun w => Text.hexDigits 8 w.toNat

end RowStore.Sha1
