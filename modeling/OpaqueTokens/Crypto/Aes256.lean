/-!
# The AES block cipher with a key of 256 bits

Only encryption of single blocks is needed: counter mode never runs the cipher backwards. A
block is four columns of four bytes; a round substitutes the bytes, rotates the rows, mixes the
columns and adds a round key.
-/

namespace OpaqueTokens.Crypto.Aes256

/-- A column of the state, and a word of the key schedule. -/
structure Column where
  a : UInt8
  b : UInt8
  c : UInt8
  d : UInt8
  deriving DecidableEq, Repr, Inhabited

/-- A block, or a round key, as its four columns. -/
structure State where
  c0 : Column
  c1 : Column
  c2 : Column
  c3 : Column
  deriving DecidableEq, Repr, Inhabited

/-- The substitution: the inverse in the field of 256 elements, then an affine map. -/
def substitution : Array UInt8 :=
  #[0x63, 0x7c, 0x77, 0x7b, 0xf2, 0x6b, 0x6f, 0xc5, 0x30, 0x01, 0x67, 0x2b,
    0xfe, 0xd7, 0xab, 0x76, 0xca, 0x82, 0xc9, 0x7d, 0xfa, 0x59, 0x47, 0xf0,
    0xad, 0xd4, 0xa2, 0xaf, 0x9c, 0xa4, 0x72, 0xc0, 0xb7, 0xfd, 0x93, 0x26,
    0x36, 0x3f, 0xf7, 0xcc, 0x34, 0xa5, 0xe5, 0xf1, 0x71, 0xd8, 0x31, 0x15,
    0x04, 0xc7, 0x23, 0xc3, 0x18, 0x96, 0x05, 0x9a, 0x07, 0x12, 0x80, 0xe2,
    0xeb, 0x27, 0xb2, 0x75, 0x09, 0x83, 0x2c, 0x1a, 0x1b, 0x6e, 0x5a, 0xa0,
    0x52, 0x3b, 0xd6, 0xb3, 0x29, 0xe3, 0x2f, 0x84, 0x53, 0xd1, 0x00, 0xed,
    0x20, 0xfc, 0xb1, 0x5b, 0x6a, 0xcb, 0xbe, 0x39, 0x4a, 0x4c, 0x58, 0xcf,
    0xd0, 0xef, 0xaa, 0xfb, 0x43, 0x4d, 0x33, 0x85, 0x45, 0xf9, 0x02, 0x7f,
    0x50, 0x3c, 0x9f, 0xa8, 0x51, 0xa3, 0x40, 0x8f, 0x92, 0x9d, 0x38, 0xf5,
    0xbc, 0xb6, 0xda, 0x21, 0x10, 0xff, 0xf3, 0xd2, 0xcd, 0x0c, 0x13, 0xec,
    0x5f, 0x97, 0x44, 0x17, 0xc4, 0xa7, 0x7e, 0x3d, 0x64, 0x5d, 0x19, 0x73,
    0x60, 0x81, 0x4f, 0xdc, 0x22, 0x2a, 0x90, 0x88, 0x46, 0xee, 0xb8, 0x14,
    0xde, 0x5e, 0x0b, 0xdb, 0xe0, 0x32, 0x3a, 0x0a, 0x49, 0x06, 0x24, 0x5c,
    0xc2, 0xd3, 0xac, 0x62, 0x91, 0x95, 0xe4, 0x79, 0xe7, 0xc8, 0x37, 0x6d,
    0x8d, 0xd5, 0x4e, 0xa9, 0x6c, 0x56, 0xf4, 0xea, 0x65, 0x7a, 0xae, 0x08,
    0xba, 0x78, 0x25, 0x2e, 0x1c, 0xa6, 0xb4, 0xc6, 0xe8, 0xdd, 0x74, 0x1f,
    0x4b, 0xbd, 0x8b, 0x8a, 0x70, 0x3e, 0xb5, 0x66, 0x48, 0x03, 0xf6, 0x0e,
    0x61, 0x35, 0x57, 0xb9, 0x86, 0xc1, 0x1d, 0x9e, 0xe1, 0xf8, 0x98, 0x11,
    0x69, 0xd9, 0x8e, 0x94, 0x9b, 0x1e, 0x87, 0xe9, 0xce, 0x55, 0x28, 0xdf,
    0x8c, 0xa1, 0x89, 0x0d, 0xbf, 0xe6, 0x42, 0x68, 0x41, 0x99, 0x2d, 0x0f,
    0xb0, 0x54, 0xbb, 0x16]

/-- Substitutes one byte. -/
def sub (b : UInt8) : UInt8 :=
  substitution.getD b.toNat 0

/-- The sum of two columns in the field. -/
def Column.add (x y : Column) : Column :=
  ⟨x.a ^^^ y.a, x.b ^^^ y.b, x.c ^^^ y.c, x.d ^^^ y.d⟩

/-- Substitutes the four bytes of a column. -/
def Column.sub (x : Column) : Column :=
  ⟨Aes256.sub x.a, Aes256.sub x.b, Aes256.sub x.c, Aes256.sub x.d⟩

/-- The bytes of a column, rotated up by one row. -/
def Column.rotate (x : Column) : Column :=
  ⟨x.b, x.c, x.d, x.a⟩

/-- Twice a byte in the field. -/
def double (b : UInt8) : UInt8 :=
  if b &&& 0x80 = 0 then b <<< 1 else (b <<< 1) ^^^ 0x1B

/-- The product of a column with the mixing matrix, whose first row is 2 3 1 1. -/
def Column.mix (x : Column) : Column :=
  let all := x.a ^^^ x.b ^^^ x.c ^^^ x.d
  ⟨x.a ^^^ all ^^^ double (x.a ^^^ x.b), x.b ^^^ all ^^^ double (x.b ^^^ x.c),
   x.c ^^^ all ^^^ double (x.c ^^^ x.d), x.d ^^^ all ^^^ double (x.d ^^^ x.a)⟩

/-- The sum of two blocks. -/
def State.add (x y : State) : State :=
  ⟨x.c0.add y.c0, x.c1.add y.c1, x.c2.add y.c2, x.c3.add y.c3⟩

/-- Substitutes all bytes and rotates row `i` to the left by `i` places. -/
def State.subAndShift (x : State) : State :=
  let c0 := x.c0.sub
  let c1 := x.c1.sub
  let c2 := x.c2.sub
  let c3 := x.c3.sub
  ⟨⟨c0.a, c1.b, c2.c, c3.d⟩, ⟨c1.a, c2.b, c3.c, c0.d⟩,
   ⟨c2.a, c3.b, c0.c, c1.d⟩, ⟨c3.a, c0.b, c1.c, c2.d⟩⟩

/-- A full round. -/
def State.round (x key : State) : State :=
  let s := x.subAndShift
  State.add ⟨s.c0.mix, s.c1.mix, s.c2.mix, s.c3.mix⟩ key

/-- The words of the key schedule that follow eight given ones, the latest first: each is the
word eight places back, added to the word before it, which every eighth time is rotated,
substituted and given a round constant, and half way between is substituted. -/
def expandKey : Nat → UInt8 → List Column → List Column
  | 0, _, words => words
  | left + 1, constant, words =>
    let previous := words.getD 0 default
    let back := words.getD 7 default
    let place := words.length % 8
    let turned :=
      if place = 0 then previous.rotate.sub.add ⟨constant, 0, 0, 0⟩
      else if place = 4 then previous.sub
      else previous
    expandKey left (if place = 0 then double constant else constant) (back.add turned :: words)

/-- Groups bytes into columns; bytes short of a column are dropped. -/
def toColumns : List UInt8 → List Column
  | a :: b :: c :: d :: rest => ⟨a, b, c, d⟩ :: toColumns rest
  | _ => []

/-- Groups columns into blocks; columns short of a block are dropped. -/
def toStates : List Column → List State
  | c0 :: c1 :: c2 :: c3 :: rest => ⟨c0, c1, c2, c3⟩ :: toStates rest
  | _ => []

/-- The fifteen round keys of a key of thirty-two bytes. -/
def roundKeys (key : List UInt8) : List State :=
  toStates (expandKey 52 1 (toColumns key).reverse).reverse

/-- The rounds after the first key addition; the last one does not mix. -/
def rounds : List State → State → State
  | [], x => x
  | [last], x => x.subAndShift.add last
  | key :: keys, x => rounds keys (x.round key)

/-- Encrypts one block under a list of round keys. -/
def encrypt (keys : List State) (x : State) : State :=
  match keys with
  | [] => x
  | first :: rest => rounds rest (x.add first)

/-- The four bytes of a column. -/
def Column.bytes (x : Column) : List UInt8 :=
  [x.a, x.b, x.c, x.d]

/-- The sixteen bytes of a block. -/
def State.bytes (x : State) : List UInt8 :=
  x.c0.bytes ++ x.c1.bytes ++ x.c2.bytes ++ x.c3.bytes

/-- The block of the first sixteen bytes of a list, with zeros for bytes it lacks. -/
def State.ofBytes (bytes : List UInt8) : State :=
  (toStates (toColumns (bytes.take 16 ++ List.replicate (16 - bytes.length) 0))).headD default

/-- A block has sixteen bytes. -/
theorem State.length_bytes (x : State) : x.bytes.length = 16 := rfl

end OpaqueTokens.Crypto.Aes256
