import OpaqueTokens.Crypto.Aead
import OpaqueTokens.Crypto.Aes256

/-!
# Galois counter mode

AES-256 in counter mode, with a tag of sixteen bytes that is a polynomial hash of the associated
data and the ciphertext. Decryption recomputes the tag and refuses the text where it differs.
-/

namespace OpaqueTokens.Crypto.Gcm

open Aes256 (State)

/-- An element of the field of 2^128 elements; its first coefficient is the highest bit. -/
structure Element where
  high : UInt64
  low : UInt64
  deriving DecidableEq, Repr

/-- The sum of two elements. -/
def Element.add (x y : Element) : Element :=
  ⟨x.high ^^^ y.high, x.low ^^^ y.low⟩

/-- An element times the indeterminate, reduced by the field polynomial. -/
def Element.timesX (x : Element) : Element :=
  let low := (x.low >>> 1) ||| (x.high <<< 63)
  let high := x.high >>> 1
  if x.low &&& 1 = 0 then ⟨high, low⟩ else ⟨high ^^^ 0xE100000000000000, low⟩

/-- The sixty-four bits of a word, the highest first. -/
def bits (w : UInt64) : List Bool :=
  (List.range 64).map fun i => (w >>> UInt64.ofNat (63 - i)) &&& 1 = 1

/-- The product of two elements, one coefficient of the left one at a time. -/
def Element.mul (x y : Element) : Element :=
  ((bits x.high ++ bits x.low).foldl
    (fun (acc : Element × Element) bit =>
      (if bit then acc.1.add acc.2 else acc.1, acc.2.timesX))
    (⟨0, 0⟩, y)).1

/-- The big-endian word of the first eight bytes of a list. -/
def word (bytes : List UInt8) : UInt64 :=
  (bytes.take 8).foldl (fun w b => (w <<< 8) ||| b.toUInt64) 0

/-- The eight bytes of a word, the highest first. -/
def wordBytes (w : UInt64) : List UInt8 :=
  (List.range 8).map fun i => (w >>> UInt64.ofNat (8 * (7 - i))).toUInt8

/-- The element that sixteen bytes stand for. -/
def Element.ofBytes (bytes : List UInt8) : Element :=
  ⟨word bytes, word (bytes.drop 8)⟩

/-- The sixteen bytes of an element. -/
def Element.bytes (x : Element) : List UInt8 :=
  wordBytes x.high ++ wordBytes x.low

/-- Bytes filled up with zeros to whole blocks. -/
def fillBlocks (bytes : List UInt8) : List UInt8 :=
  bytes ++ List.replicate ((16 - bytes.length % 16) % 16) 0

/-- Hashes this many blocks of sixteen bytes under the hash key. -/
def absorb (hashKey : Element) : Nat → List UInt8 → Element → Element
  | 0, _, acc => acc
  | count + 1, bytes, acc =>
    absorb hashKey count (bytes.drop 16) ((acc.add (.ofBytes bytes)).mul hashKey)

/-- The polynomial hash of the associated data, the ciphertext and their lengths in bits. -/
def hash (hashKey : Element) (associated hidden : List UInt8) : Element :=
  let data := fillBlocks associated ++ fillBlocks hidden ++
    wordBytes (UInt64.ofNat (8 * associated.length)) ++ wordBytes (UInt64.ofNat (8 * hidden.length))
  absorb hashKey (data.length / 16) data ⟨0, 0⟩

/-- The cipher's output on the nonce followed by a counter. -/
def counterBlock (keys : List State) (nonce : List UInt8) (counter : Nat) : List UInt8 :=
  (Aes256.encrypt keys (.ofBytes (nonce ++ (wordBytes (UInt64.ofNat counter)).drop 4))).bytes

/-- The bytes that hide a text of this length; the counter one is kept for the tag. -/
def keystream (keys : List State) (nonce : List UInt8) (length : Nat) : List UInt8 :=
  (List.range ((length + 15) / 16)).flatMap fun i => counterBlock keys nonce (i + 2)

/-- Hides a text, or uncovers a hidden one. -/
def mask (keys : List State) (nonce text : List UInt8) : List UInt8 :=
  List.zipWith (· ^^^ ·) text (keystream keys nonce text.length)

/-- The tag of a ciphertext and its associated data. -/
def tag (keys : List State) (nonce associated hidden : List UInt8) : List UInt8 :=
  let hashKey := Element.ofBytes (Aes256.encrypt keys (.ofBytes [])).bytes
  List.zipWith (· ^^^ ·) (hash hashKey associated hidden).bytes (counterBlock keys nonce 1)

/-- The longest text that one nonce may hide: past it the counter would come round. -/
def maxTextLength : Nat := Nat.pow 2 36

/-- Encrypts a text and appends its tag. -/
def encrypt (key nonce associated text : List UInt8) : Option (List UInt8) :=
  if text.length ≤ maxTextLength then
    let keys := Aes256.roundKeys key
    let hidden := mask keys nonce text
    some (hidden ++ tag keys nonce associated hidden)
  else none

/-- Checks the tag and decrypts the text before it. -/
def decrypt (key nonce associated hidden : List UInt8) : Option (List UInt8) :=
  let size := hidden.length - 16
  if hidden.length < 16 ∨ maxTextLength < size then none
  else
    let keys := Aes256.roundKeys key
    let body := hidden.take size
    if tag keys nonce associated body = hidden.drop size then some (mask keys nonce body)
    else none

/-- AES-256 in Galois counter mode. -/
def aead : Aead := ⟨encrypt, decrypt⟩

end OpaqueTokens.Crypto.Gcm
