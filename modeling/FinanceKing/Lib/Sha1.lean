import Mathlib

/-! SHA-1 over byte strings, with words and bytes as natural numbers below their modulus, so that a
    digest of a short message can be evaluated by the kernel. -/

namespace Lib.Sha1

def word : ℕ := 2 ^ 32

def rotateLeft (n x : ℕ) : ℕ := (x <<< n ||| x >>> (32 - n)) % word

/-- The number a byte string spells, most significant byte first. -/
def fromBytes (bytes : List ℕ) : ℕ := bytes.foldl (fun total b => total * 256 + b) 0

/-- The `n` low bytes of a number, most significant first. -/
def toBytes : (n : ℕ) → ℕ → List ℕ
  | 0, _ => []
  | n + 1, x => toBytes n (x / 256) ++ [x % 256]

/-- The message, a one bit, zeros, and the length in bits, to a whole number of 64-byte blocks. -/
def pad (message : List ℕ) : List ℕ :=
  message ++ 0x80 :: List.replicate ((119 - message.length % 64) % 64) 0 ++
    toBytes 8 (8 * message.length)

/-- The first `count` pieces of `size` elements each. -/
def chunks (size : ℕ) : (count : ℕ) → List ℕ → List (List ℕ)
  | 0, _ => []
  | count + 1, l => l.take size :: chunks size count (l.drop size)

/-- Extend the schedule, newest word first. -/
def extend : (count : ℕ) → List ℕ → List ℕ
  | 0, ws => ws
  | count + 1, ws =>
    extend count
      (rotateLeft 1 (ws.getD 2 0 ^^^ ws.getD 7 0 ^^^ ws.getD 13 0 ^^^ ws.getD 15 0) :: ws)

structure Registers where
  a : ℕ
  b : ℕ
  c : ℕ
  d : ℕ
  e : ℕ

/-- The round function and constant of round `t`; `word - 1 - b` complements a word. -/
def mix (t b c d : ℕ) : ℕ × ℕ :=
  if t < 20 then ((b &&& c) ||| ((word - 1 - b) &&& d), 0x5A827999)
  else if t < 40 then (b ^^^ c ^^^ d, 0x6ED9EBA1)
  else if t < 60 then ((b &&& c) ||| (b &&& d) ||| (c &&& d), 0x8F1BBCDC)
  else (b ^^^ c ^^^ d, 0xCA62C1D6)

def round (r : Registers) (tw : ℕ × ℕ) : Registers where
  a := (rotateLeft 5 r.a + (mix tw.1 r.b r.c r.d).1 + r.e + (mix tw.1 r.b r.c r.d).2 + tw.2) % word
  b := r.a
  c := rotateLeft 30 r.b
  d := r.c
  e := r.d

/-- Fold one 64-byte block into the registers. -/
def block (h : Registers) (bytes : List ℕ) : Registers :=
  let schedule := (extend 64 ((chunks 4 16 bytes).map fromBytes).reverse).reverse
  let r := ((List.range 80).zip schedule).foldl round h
  ⟨(h.a + r.a) % word, (h.b + r.b) % word, (h.c + r.c) % word, (h.d + r.d) % word,
    (h.e + r.e) % word⟩

/-- The 20-byte digest. -/
def digest (message : List ℕ) : List ℕ :=
  let padded := pad message
  let h := (chunks 64 (padded.length / 64) padded).foldl block
    ⟨0x67452301, 0xEFCDAB89, 0x98BADCFE, 0x10325476, 0xC3D2E1F0⟩
  [h.a, h.b, h.c, h.d, h.e].flatMap (toBytes 4)

end Lib.Sha1
