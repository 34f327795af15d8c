import Shade.Host

/-!
# SHA-256

The hash the host computes on byte strings, on natural numbers kept below `2 ^ 32`.
-/

namespace Shade

namespace Sha256

/-- The round constants. -/
def roundConstants : List ℕ :=
  [0x428a2f98, 0x71374491, 0xb5c0fbcf, 0xe9b5dba5, 0x3956c25b, 0x59f111f1, 0x923f82a4, 0xab1c5ed5,
    0xd807aa98, 0x12835b01, 0x243185be, 0x550c7dc3, 0x72be5d74, 0x80deb1fe, 0x9bdc06a7, 0xc19bf174,
    0xe49b69c1, 0xefbe4786, 0x0fc19dc6, 0x240ca1cc, 0x2de92c6f, 0x4a7484aa, 0x5cb0a9dc, 0x76f988da,
    0x983e5152, 0xa831c66d, 0xb00327c8, 0xbf597fc7, 0xc6e00bf3, 0xd5a79147, 0x06ca6351, 0x14292967,
    0x27b70a85, 0x2e1b2138, 0x4d2c6dfc, 0x53380d13, 0x650a7354, 0x766a0abb, 0x81c2c92e, 0x92722c85,
    0xa2bfe8a1, 0xa81a664b, 0xc24b8b70, 0xc76c51a3, 0xd192e819, 0xd6990624, 0xf40e3585, 0x106aa070,
    0x19a4c116, 0x1e376c08, 0x2748774c, 0x34b0bcb5, 0x391c0cb3, 0x4ed8aa4a, 0x5b9cca4f, 0x682e6ff3,
    0x748f82ee, 0x78a5636f, 0x84c87814, 0x8cc70208, 0x90befffa, 0xa4506ceb, 0xbef9a3f7, 0xc67178f2]

/-- The initial hash value. -/
def initial : List ℕ :=
  [0x6a09e667, 0xbb67ae85, 0x3c6ef372, 0xa54ff53a, 0x510e527f, 0x9b05688c, 0x1f83d9ab, 0x5be0cd19]

/-- Rotate a 32-bit number to the right. -/
def rotr (n x : ℕ) : ℕ := (x >>> n ||| x <<< (32 - n)) % 2 ^ 32

/-- The complement of a 32-bit number. -/
def not32 (x : ℕ) : ℕ := 2 ^ 32 - 1 - x

/-- The next word of the message schedule after the sixteen given. -/
def scheduleNext : List ℕ → ℕ
  | w0 :: w1 :: _ :: _ :: _ :: _ :: _ :: _ :: _ :: w9 :: _ :: _ :: _ :: _ :: w14 :: _ =>
      ((rotr 17 w14 ^^^ rotr 19 w14 ^^^ w14 >>> 10) + w9
        + (rotr 7 w1 ^^^ rotr 18 w1 ^^^ w1 >>> 3) + w0) % 2 ^ 32
  | _ => 0

/-- One round on the eight working variables, with a round constant and a word. -/
def round (k w : ℕ) : List ℕ → List ℕ
  | [a, b, c, d, e, f, g, h] =>
      let t1 := h + (rotr 6 e ^^^ rotr 11 e ^^^ rotr 25 e) + (e &&& f ^^^ not32 e &&& g) + k + w
      let t2 := (rotr 2 a ^^^ rotr 13 a ^^^ rotr 22 a) + (a &&& b ^^^ a &&& c ^^^ b &&& c)
      [(t1 + t2) % 2 ^ 32, a, b, c, (d + t1) % 2 ^ 32, e, f, g]
  | s => s

/-- The rounds over a window of sixteen words of the message schedule. -/
def rounds : List ℕ → List ℕ → List ℕ → List ℕ
  | [], _, s => s
  | k :: ks, ws, s => rounds ks (ws.tail ++ [scheduleNext ws]) (round k (ws.headD 0) s)

/-- The hash value after one more block of sixteen words. -/
def compress (hash block : List ℕ) : List ℕ :=
  List.zipWith (fun x y => (x + y) % 2 ^ 32) hash (rounds roundConstants block hash)

/-- The message with its padding: a one bit, zeros, and its length in 64 bits. -/
def pad (message : Bytes) : Bytes :=
  message ++ 0x80 :: List.replicate ((119 - message.length % 64) % 64) 0
    ++ Endian.toBE 8 (8 * message.length)

/-- The 32-bit words of a byte string. -/
def words : ℕ → Bytes → List ℕ
  | 0, _ => []
  | n + 1, bytes => Endian.ofBE (bytes.take 4) :: words n (bytes.drop 4)

/-- The hash value after the given number of blocks of a padded message. -/
def blocks : ℕ → Bytes → List ℕ → List ℕ
  | 0, _, hash => hash
  | n + 1, bytes, hash => blocks n (bytes.drop 64) (compress hash (words 16 (bytes.take 64)))

end Sha256

/-- SHA-256, as a big-endian word. -/
def sha256 (message : Bytes) : Word :=
  let padded := Sha256.pad message
  BitVec.ofNat 256 ((Sha256.blocks (padded.length / 64) padded Sha256.initial).foldl
    (fun n x => n * 2 ^ 32 + x) 0)

example : sha256 [] = 0xe3b0c44298fc1c149afbf4c8996fb92427ae41e4649b934ca495991b7852b855#256 := by decide +kernel

example : sha256 [0x61, 0x62, 0x63] = 0xba7816bf8f01cfea414140de5dae2223b00361a396177a9cb410ff61f20015ad#256 := by decide +kernel

end Shade
