import RayTracer.Image.Jpeg.Tables

/-!
The cosine transform between the samples of a block and its coefficients, in whole numbers. It is made of
transforms of eight numbers, first for the rows and then for the columns of a block or the other way round.
-/

namespace RayTracer.Jpeg

structure Octet where
  a : Int
  b : Int
  c : Int
  d : Int
  e : Int
  f : Int
  g : Int
  h : Int
  deriving DecidableEq, Repr

namespace Octet

/-- Eight numbers of a block at equal distances. -/
def ofBlock (block : Block) (start step : Nat) : Octet :=
  let entry (index : Nat) : Int := block.getD (start + step * index) 0
  ⟨entry 0, entry 1, entry 2, entry 3, entry 4, entry 5, entry 6, entry 7⟩

def toList (x : Octet) : List Int := [x.a, x.b, x.c, x.d, x.e, x.f, x.g, x.h]

end Octet

def rowsOf (block : Block) : List Octet :=
  (List.range blockSide).map fun row => .ofBlock block (blockSide * row) 1

def columnsOf (block : Block) : List Octet :=
  (List.range blockSide).map fun column => .ofBlock block column blockSide

def ofRows (rows : List Octet) : Block := (rows.flatMap Octet.toList).toArray

def ofColumns (columns : List Octet) : Block :=
  let byColumn := ofRows columns
  ofRows (columnsOf byColumn)

/-- A number without its lowest bits, rounded. -/
def withoutBits (bits : Nat) (x : Int) : Int := (x + ((1 <<< (bits - 1) : Nat) : Int)) >>> bits

/-- A transform of eight numbers. The first coefficient and the fifth are as large as the numbers; the others
carry the thirteen bits of the factors and lose `bits` of them. -/
def forward (bits : Nat) (x : Octet) : Octet :=
  let s₀ := x.a + x.h
  let s₁ := x.b + x.g
  let s₂ := x.c + x.f
  let s₃ := x.d + x.e
  let d₀ := x.a - x.h
  let d₁ := x.b - x.g
  let d₂ := x.c - x.f
  let d₃ := x.d - x.e
  let even := (s₀ - s₃ + (s₁ - s₂)) * 4433
  let odd := (d₀ + d₂ + (d₁ + d₃)) * 9633
  let odd₀ := odd - (d₀ + d₂) * 3196
  let odd₁ := odd - (d₁ + d₃) * 16069
  let outer := (d₀ + d₃) * 7373
  let inner := (d₁ + d₂) * 20995
  { a := s₀ + s₃ + (s₁ + s₂)
    b := withoutBits bits (d₀ * 12299 - outer + odd₀)
    c := withoutBits bits (even + (s₀ - s₃) * 6270)
    d := withoutBits bits (d₁ * 25172 - inner + odd₁)
    e := s₀ + s₃ - (s₁ + s₂)
    f := withoutBits bits (d₂ * 16819 - inner + odd₀)
    g := withoutBits bits (even - (s₁ - s₂) * 15137)
    h := withoutBits bits (d₃ * 2446 - outer + odd₁) }

/-- A row of coefficients, four times as large; samples count from the middle of their range. -/
def forwardRow (x : Octet) : Octet :=
  let y := forward 11 x
  { y with a := 4 * (y.a - 8 * 128), e := 4 * y.e }

/-- A column of coefficients of which the rows are four times as large. -/
def forwardColumn (x : Octet) : Octet :=
  let y := forward 15 x
  { y with a := withoutBits 2 y.a, e := withoutBits 2 y.e }

def coefficientsOf (samples : Block) : Block :=
  ofColumns ((columnsOf (ofRows ((rowsOf samples).map forwardRow))).map forwardColumn)

/-- The nearest number of sixteen bits. -/
def clip (x : Int) : Int := max (-32768) (min 32767 x)

/-- A number of sixteen bits modulo their range. -/
def wrap (x : Int) : Int := Int.bmod x UInt16.size

/-- A number times a fraction of so many parts of 32768, rounded. -/
def scaled (parts x : Int) : Int := (parts * x + 16384) >>> (15 : Nat)

/-- The transform back of eight numbers of sixteen bits. No sum leaves their range. -/
def backward (x : Octet) : Octet :=
  let plus (p q : Int) : Int := clip (p + q)
  let minus (p q : Int) : Int := clip (p - q)
  let even := scaled 17734 (plus x.c x.g)
  let even₂ := minus (minus even x.g) (scaled 27779 x.g)
  let even₃ := plus even (scaled 25079 x.c)
  let even₀ := plus x.a x.e
  let even₁ := minus x.a x.e
  let s₀ := plus even₀ even₃
  let s₁ := plus even₁ even₂
  let s₂ := minus even₁ even₂
  let s₃ := minus even₀ even₃
  let sum := plus (plus x.h x.d) (plus x.f x.b)
  let whole := plus sum (scaled 5763 sum)
  let outer := plus whole (scaled (-29490) (plus x.h x.b))
  let cross := plus x.f x.d
  let inner := minus (minus (minus whole cross) cross) (scaled 18446 cross)
  let low := minus (scaled (-31509) (plus x.h x.d)) (plus x.h x.d)
  let high := scaled (-12785) (plus x.f x.b)
  let d₀ := plus (plus outer high) (plus x.b (scaled 16427 x.b))
  let d₁ := plus (plus inner low) (plus (plus x.d (plus x.d x.d)) (scaled 2383 x.d))
  let d₂ := plus (plus inner high) (plus (plus x.f x.f) (scaled 1741 x.f))
  let d₃ := plus (plus outer low) (scaled 9786 x.h)
  { a := plus s₀ d₀
    b := plus s₁ d₁
    c := plus s₂ d₂
    d := plus s₃ d₃
    e := minus s₃ d₃
    f := minus s₂ d₂
    g := minus s₁ d₁
    h := minus s₀ d₀ }

/-- The byte of a number that is 64 times as large and counts from the middle of the bytes. -/
def sampleByte (x : Int) : UInt8 :=
  UInt8.ofNat (min 255 (clip (x + (128 * 64 + 32)) >>> (6 : Nat)).toNat)

/-- The samples of a block, row by row, whose coefficients count quantization steps. -/
def samplesOf (steps : Array Nat) (block : Block) : Array UInt8 :=
  let large := block.mapIdx fun index count => wrap (8 * wrap (count * steps.getD index 0))
  (ofRows ((rowsOf (ofColumns ((columnsOf large).map backward))).map backward)).map sampleByte

end RayTracer.Jpeg
