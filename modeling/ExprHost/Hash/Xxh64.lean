import ExprHost.Text.Utf8

/-!
# The 64-bit xxHash

The digest of a byte string under seed zero. Whole stripes of four words go through
four independent lanes; the words and bytes that are left are absorbed one by one.
-/

namespace ExprHost.Xxh64

def prime1 : UInt64 := 0x9E3779B185EBCA87
def prime2 : UInt64 := 0xC2B2AE3D27D4EB4F
def prime3 : UInt64 := 0x165667B19E3779F9
def prime4 : UInt64 := 0x85EBCA77C2B2AE63
def prime5 : UInt64 := 0x27D4EB2F165667C5

/-- The word turned to the left. -/
def rotate (w bits : UInt64) : UInt64 := (w <<< bits) ||| (w >>> (64 - bits))

/-- The word that bytes stand for, least significant first. -/
def littleEndian (bs : Bytes) : UInt64 := bs.foldr (fun b w => w * 256 + b.toUInt64) 0

/-- The whole eight-byte words at the front of a byte string, and the bytes after them. -/
def words : Bytes → List UInt64 × Bytes
  | a :: b :: c :: d :: e :: f :: g :: h :: rest =>
    let (ws, left) := words rest
    (littleEndian [a, b, c, d, e, f, g, h] :: ws, left)
  | left => ([], left)

/-- A word taken into a lane. -/
def mix (lane w : UInt64) : UInt64 := rotate (lane + w * prime2) 31 * prime1

/-- The four lanes. -/
structure Lanes where
  first : UInt64
  second : UInt64
  third : UInt64
  fourth : UInt64

/-- The lanes before the first stripe. -/
def Lanes.start : Lanes := ⟨prime1 + prime2, prime2, 0, 0 - prime1⟩

/-- The lanes after all whole stripes, and the words after those. -/
def Lanes.absorb : Lanes → List UInt64 → Lanes × List UInt64
  | v, a :: b :: c :: d :: rest =>
    Lanes.absorb ⟨mix v.first a, mix v.second b, mix v.third c, mix v.fourth d⟩ rest
  | v, left => (v, left)

/-- The four lanes as one word. -/
def Lanes.merge (v : Lanes) : UInt64 :=
  let sum := rotate v.first 1 + rotate v.second 7 + rotate v.third 12 + rotate v.fourth 18
  [v.first, v.second, v.third, v.fourth].foldl (fun h lane => (h ^^^ mix 0 lane) * prime1 + prime4) sum

/-- A word that no stripe holds. -/
def absorbWord (h w : UInt64) : UInt64 := rotate (h ^^^ mix 0 w) 27 * prime1 + prime4

/-- A byte that no half word holds. -/
def absorbByte (h : UInt64) (b : UInt8) : UInt64 := rotate (h ^^^ b.toUInt64 * prime5) 11 * prime1

/-- Fewer than eight bytes: a half word if there is one, then single bytes. -/
def absorbRest (h : UInt64) : Bytes → UInt64
  | a :: b :: c :: d :: rest =>
    rest.foldl absorbByte (rotate (h ^^^ littleEndian [a, b, c, d] * prime1) 23 * prime2 + prime3)
  | rest => rest.foldl absorbByte h

/-- Spreads every bit over the whole word. -/
def avalanche (h : UInt64) : UInt64 :=
  let h := (h ^^^ (h >>> 33)) * prime2
  let h := (h ^^^ (h >>> 29)) * prime3
  h ^^^ (h >>> 32)

/-- **The digest of a byte string.** -/
def digest (bs : Bytes) : UInt64 :=
  let (ws, left) := words bs
  let (lanes, single) := Lanes.start.absorb ws
  let start := if ws.length < 4 then prime5 else lanes.merge
  avalanche (absorbRest (single.foldl absorbWord (start + UInt64.ofNat bs.length)) left)

/-- The digest of a string's bytes. -/
def digestText (s : String) : UInt64 := digest (Utf8.bytes s)

end ExprHost.Xxh64
