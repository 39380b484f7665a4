/-
# Random numbers

A stream of numbers that depends on a seed only: the ChaCha key stream with twelve rounds, under a
key that the seed is stretched to.  Blocks are numbered from zero; each gives eight numbers.
-/

namespace CodeDiagram

/-! ## 1. The key -/

/-- The eight words of a key: the outputs of a small generator that starts at the seed. -/
def stretchSeed (seed : UInt64) : List UInt32 :=
  ((List.range 8).foldl (fun (words, s) _ =>
    let s : UInt64 := s * 6364136223846793005 + 11634580027462260723
    let x : UInt32 := (((s >>> 18) ^^^ s) >>> 27).toUInt32
    let turn : UInt32 := (s >>> 59).toUInt32
    (words ++ [(x >>> turn) ||| (x <<< ((32 - turn) % 32))], s))
    (([] : List UInt32), seed)).1

/-! ## 2. Blocks -/

/-- The sixteen words of a block. -/
abbrev CipherBlock := Vector UInt32 16

/-- Moves bits to the left; those that leave come in on the right. -/
def rotateLeft (x : UInt32) (n : UInt32) : UInt32 := (x <<< n) ||| (x >>> (32 - n))

/-- Mixes four words of a block. -/
def CipherBlock.quarter (v : CipherBlock) (i j k l : Fin 16) : CipherBlock :=
  let a := v[i] + v[j]
  let d := rotateLeft (v[l] ^^^ a) 16
  let c := v[k] + d
  let b := rotateLeft (v[j] ^^^ c) 12
  let a := a + b
  let d := rotateLeft (d ^^^ a) 8
  let c := c + d
  let b := rotateLeft (b ^^^ c) 7
  (((v.set i a).set j b).set k c).set l d

/-- Two rounds: the columns and then the diagonals are mixed. -/
def CipherBlock.doubleRound (v : CipherBlock) : CipherBlock :=
  let v := (((v.quarter 0 4 8 12).quarter 1 5 9 13).quarter 2 6 10 14).quarter 3 7 11 15
  (((v.quarter 0 5 10 15).quarter 1 6 11 12).quarter 2 7 8 13).quarter 3 4 9 14

/-- A block before it is mixed: constants, the key, and the number of the block. -/
def CipherBlock.fresh (key : List UInt32) (number : UInt64) : CipherBlock :=
  let constants : List UInt32 := [0x61707865, 0x3320646e, 0x79622d32, 0x6b206574]
  let words := constants ++ key ++ [number.toUInt32, (number >>> 32).toUInt32, 0, 0]
  Vector.ofFn fun i => words.getD i 0

/-- The block of a number. -/
def CipherBlock.numbered (key : List UInt32) (number : UInt64) : CipherBlock :=
  let start := fresh key number
  let mixed := (List.range 6).foldl (fun v _ => v.doubleRound) start
  start.zipWith (· + ·) mixed

/-! ## 3. The stream -/

/-- A stream of numbers: the block in use, and how many of its eight numbers are used up. -/
structure RandomStream where
  key : List UInt32
  number : UInt64
  block : CipherBlock
  used : Nat

namespace RandomStream

/-- The stream of a seed. -/
def ofSeed (seed : UInt64) : RandomStream :=
  let key := stretchSeed seed
  { key, number := 0, block := .numbered key 0, used := 0 }

/-- The next number, two words with the lower first, and the rest of the stream. -/
def next (s : RandomStream) : UInt64 × RandomStream :=
  let s :=
    if s.used < 8 then s
    else { s with number := s.number + 1, block := .numbered s.key (s.number + 1), used := 0 }
  let low := s.block.toArray.getD (2 * s.used) 0
  let high := s.block.toArray.getD (2 * s.used + 1) 0
  ((high.toUInt64 <<< 32) ||| low.toUInt64, { s with used := s.used + 1 })

/-- A fraction from zero to one, one excluded, in steps of `2⁻⁵³`. -/
def unit (s : RandomStream) : Float × RandomStream :=
  let (n, s) := s.next
  ((n >>> 11).toFloat * Float.scaleB 1.0 (-53), s)

/-- A number from `low` to `high`, in `2⁵²` steps. -/
def between (low high : Float) (s : RandomStream) : Float × RandomStream :=
  let (n, s) := s.next
  ((n >>> 12).toFloat * Float.scaleB 1.0 (-52) * (high - low) + low, s)

end RandomStream

end CodeDiagram
