import ComponentLoader.FilePath.Basic
import ComponentLoader.Text.Basic
set_option autoImplicit false

/-!
# Fingerprints (SPEC §4.4, §4.6)

The fingerprint of a text is a token of eight characters that may stand in a class name, an
attribute name and a query: the front of its SHA-256 digest in Base64, with `-` and `_` in place of
`+` and `/`.  A `Fingerprinter` remembers the texts it has seen; what it answers does not depend on
them.

Base64 has the standard alphabet with padding: three bytes become four symbols, and the last group
is filled up with `=`.  For SHA-256 the message is padded to whole blocks of sixty-four bytes, and
each block is mixed into a state of eight words by sixty-four rounds; the digest is the last state,
thirty-two bytes by construction.

A component is named after its file, or after the directory of a file named `index`.  Its scope
token is made from the fingerprint of its path as seen from the root directory, the scope seed, so
that it does not change when the project is moved.
-/

namespace ComponentLoader

/-! ## Base64 -/

namespace Base64

/-- The symbol of a number below sixty-four. -/
def symbol (n : Nat) : Char :=
  if n < 26 then Char.ofNat ('A'.toNat + n)
  else if n < 52 then Char.ofNat ('a'.toNat + (n - 26))
  else if n < 62 then Char.ofNat ('0'.toNat + (n - 52))
  else if n = 62 then '+'
  else '/'

/-- The character that fills up the last group. -/
def padding : Char := '='

/-- The symbols of a byte sequence. -/
def encode : List UInt8 → Text
  | [] => []
  | [a] =>
    let n := a.toNat * 0x10000
    [symbol (n / 0x40000), symbol (n / 0x1000 % 64), padding, padding]
  | [a, b] =>
    let n := a.toNat * 0x10000 + b.toNat * 0x100
    [symbol (n / 0x40000), symbol (n / 0x1000 % 64), symbol (n / 0x40 % 64), padding]
  | a :: b :: c :: rest =>
    let n := a.toNat * 0x10000 + b.toNat * 0x100 + c.toNat
    symbol (n / 0x40000) :: symbol (n / 0x1000 % 64) :: symbol (n / 0x40 % 64) ::
      symbol (n % 64) :: encode rest

end Base64

/-! ## SHA-256 -/

namespace Sha256

/-- The eight words that a block is mixed into. -/
structure State where
  a : UInt32
  b : UInt32
  c : UInt32
  d : UInt32
  e : UInt32
  f : UInt32
  g : UInt32
  h : UInt32
  deriving DecidableEq, Repr

/-- The state before the first block. -/
def State.initial : State :=
  ⟨0x6a09e667, 0xbb67ae85, 0x3c6ef372, 0xa54ff53a, 0x510e527f, 0x9b05688c, 0x1f83d9ab, 0x5be0cd19⟩

/-- The constants of the sixty-four rounds. -/
def roundConstants : List UInt32 := [
  0x428a2f98, 0x71374491, 0xb5c0fbcf, 0xe9b5dba5, 0x3956c25b, 0x59f111f1, 0x923f82a4, 0xab1c5ed5,
  0xd807aa98, 0x12835b01, 0x243185be, 0x550c7dc3, 0x72be5d74, 0x80deb1fe, 0x9bdc06a7, 0xc19bf174,
  0xe49b69c1, 0xefbe4786, 0x0fc19dc6, 0x240ca1cc, 0x2de92c6f, 0x4a7484aa, 0x5cb0a9dc, 0x76f988da,
  0x983e5152, 0xa831c66d, 0xb00327c8, 0xbf597fc7, 0xc6e00bf3, 0xd5a79147, 0x06ca6351, 0x14292967,
  0x27b70a85, 0x2e1b2138, 0x4d2c6dfc, 0x53380d13, 0x650a7354, 0x766a0abb, 0x81c2c92e, 0x92722c85,
  0xa2bfe8a1, 0xa81a664b, 0xc24b8b70, 0xc76c51a3, 0xd192e819, 0xd6990624, 0xf40e3585, 0x106aa070,
  0x19a4c116, 0x1e376c08, 0x2748774c, 0x34b0bcb5, 0x391c0cb3, 0x4ed8aa4a, 0x5b9cca4f, 0x682e6ff3,
  0x748f82ee, 0x78a5636f, 0x84c87814, 0x8cc70208, 0x90befffa, 0xa4506ceb, 0xbef9a3f7, 0xc67178f2]

/-! ## Mixing -/

/-- A word rotated to the right by `n` bits, `n` between 1 and 31. -/
def rotateRight (x : UInt32) (n : UInt32) : UInt32 :=
  (x >>> n) ||| (x <<< (32 - n))

/-- The state after one round with constant `k` and message word `w`. -/
def State.round (s : State) (k w : UInt32) : State :=
  let sum1 := rotateRight s.e 6 ^^^ rotateRight s.e 11 ^^^ rotateRight s.e 25
  let choice := (s.e &&& s.f) ^^^ (~~~s.e &&& s.g)
  let t1 := s.h + sum1 + choice + k + w
  let sum0 := rotateRight s.a 2 ^^^ rotateRight s.a 13 ^^^ rotateRight s.a 22
  let majority := (s.a &&& s.b) ^^^ (s.a &&& s.c) ^^^ (s.b &&& s.c)
  ⟨t1 + (sum0 + majority), s.a, s.b, s.c, s.d + t1, s.e, s.f, s.g⟩

/-- The word that follows a window of sixteen message words. -/
def nextWord (window : List UInt32) : UInt32 :=
  let older := window.getD 1 0
  let newer := window.getD 14 0
  let small0 := rotateRight older 7 ^^^ rotateRight older 18 ^^^ (older >>> 3)
  let small1 := rotateRight newer 17 ^^^ rotateRight newer 19 ^^^ (newer >>> 10)
  small1 + window.getD 9 0 + small0 + window.getD 0 0

/-- The next `n` message words, of which a window of sixteen is known. -/
def schedule : (n : Nat) → (window : List UInt32) → List UInt32
  | 0, _ => []
  | n + 1, window => window.getD 0 0 :: schedule n (window.drop 1 ++ [nextWord window])

/-- The wordwise sum of two states. -/
def State.add (s t : State) : State :=
  ⟨s.a + t.a, s.b + t.b, s.c + t.c, s.d + t.d, s.e + t.e, s.f + t.f, s.g + t.g, s.h + t.h⟩

/-- The state after a block of sixteen words. -/
def State.absorb (s : State) (block : List UInt32) : State :=
  s.add ((roundConstants.zip (schedule 64 block)).foldl (fun t (k, w) => t.round k w) s)

/-! ## Bytes and words -/

/-- Four bytes to a word, the most significant first. -/
def toWords : List UInt8 → List UInt32
  | a :: b :: c :: d :: rest =>
    ((a.toUInt32 <<< 24) ||| (b.toUInt32 <<< 16) ||| (c.toUInt32 <<< 8) ||| d.toUInt32) ::
      toWords rest
  | _ => []

/-- The bytes of a word, the most significant first. -/
def ofWord (w : UInt32) : List UInt8 :=
  [(w >>> 24).toUInt8, (w >>> 16).toUInt8, (w >>> 8).toUInt8, w.toUInt8]

/-- The bytes of a state in order. -/
def State.bytes (s : State) : List UInt8 :=
  ofWord s.a ++ ofWord s.b ++ ofWord s.c ++ ofWord s.d ++ ofWord s.e ++ ofWord s.f ++ ofWord s.g ++
    ofWord s.h

/-- The message, a one bit, zeros, and the length in bits as a 64-bit number, in whole blocks. -/
def pad (message : List UInt8) : List UInt8 :=
  let length := message.length
  let bits := UInt64.ofNat (8 * length)
  let zeros := (119 - length % 64) % 64
  message ++ ((0x80 : UInt8) :: List.replicate zeros 0) ++
    ofWord (bits >>> 32).toUInt32 ++ ofWord bits.toUInt32

/-- The state after `n` blocks of the given words. -/
def absorbBlocks : (n : Nat) → State → List UInt32 → State
  | 0, s, _ => s
  | n + 1, s, words => absorbBlocks n (s.absorb (words.take 16)) (words.drop 16)

/-- The digest of a message. -/
def digest (message : List UInt8) : List UInt8 :=
  let words := toWords (pad message)
  (absorbBlocks (words.length / 16) .initial words).bytes

theorem length_digest (message : List UInt8) : (digest message).length = 32 := rfl

end Sha256

/-! ## Fingerprints of texts -/

namespace Fingerprint

/-- The number of characters of a fingerprint. -/
def length : Nat := 8

/-- The Base64 symbol with the two that mean something in queries replaced. -/
def safeSymbol (c : Char) : Char :=
  if c = '+' then '-' else if c = '/' then '_' else c

/-- The fingerprint of a text (SPEC §4.6). -/
def ofText (text : Text) : Text :=
  (((Base64.encode (Sha256.digest text.utf8)).filter
    (· ≠ Base64.padding)).map safeSymbol).take length

end Fingerprint

/-- The texts whose fingerprints are known, each with its fingerprint. -/
structure Fingerprinter where
  known : List (Text × Text)
  deriving Repr, Inhabited

namespace Fingerprinter

/-- Nothing is known. -/
def empty : Fingerprinter := ⟨[]⟩

/-- The fingerprint of a text, and the state in which it is known. -/
def fingerprint (state : Fingerprinter) (text : Text) : Text × Fingerprinter :=
  match state.known.lookup text with
  | some token => (token, state)
  | none =>
    let token := Fingerprint.ofText text
    (token, ⟨(text, token) :: state.known⟩)

/-- The number of known texts. -/
def memoized (state : Fingerprinter) : Nat :=
  state.known.length

end Fingerprinter

/-! ## Names of components -/

namespace Naming

/-- The stem of a file that stands for its directory. -/
def indexStem : Text := "index"

/-- The name of the component at a path (SPEC §4.4). -/
def componentName (path : FilePath) : Text :=
  let stem := path.stem?.getD []
  if stem = indexStem then (path.parent?.bind FilePath.fileName?).getD stem else stem

/-- The text that the scope token of a template is made from. -/
def scopeSeed (root path : FilePath) : Text :=
  FilePath.relativeTo root path

/-- The scope token made from a seed. -/
def scopeToken (seed : Text) : Text :=
  's' :: Fingerprint.ofText seed

end Naming

end ComponentLoader
