/-!
Floating-point literals, kept as their 64 bits. Two literals are the same when
their bits are; `ieeeEq` is the comparison of the values they denote, for which
a NaN differs from itself and the two zeros agree.
-/

namespace TensorProgram

structure Binary64 where
  bits : UInt64
  deriving DecidableEq, Repr

namespace Binary64

/-- The biased exponent: eleven bits. -/
def exponent (x : Binary64) : Nat := x.bits.toNat >>> 52 % 1 <<< 11

/-- The significand without its leading bit. -/
def fraction (x : Binary64) : Nat := x.bits.toNat % 1 <<< 52

def isNaN (x : Binary64) : Bool := x.exponent = 2047 && x.fraction ≠ 0

def isZero (x : Binary64) : Bool := x.bits.toNat % 1 <<< 63 = 0

/-- Equality of values, by the IEEE rules. -/
def ieeeEq (x y : Binary64) : Bool :=
  !x.isNaN && !y.isNaN && (x.bits == y.bits || (x.isZero && y.isZero))

def ofFields (negative : Bool) (exponent fraction : Nat) : Binary64 :=
  ⟨UInt64.ofNat ((if negative then 1 <<< 63 else 0) + exponent <<< 52 + fraction)⟩

/-- The value of a 32-bit float. Every such value is exact in 64 bits: a subnormal
becomes normal, and a NaN keeps its payload and turns quiet. -/
def ofBinary32 (w : UInt32) : Binary64 :=
  let negative := 1 <<< 31 ≤ w.toNat
  let exponent := w.toNat >>> 23 % 1 <<< 8
  let fraction := w.toNat % 1 <<< 23
  if exponent = 255 then
    let quiet := if fraction = 0 ∨ 1 <<< 22 ≤ fraction then 0 else 1 <<< 51
    ofFields negative 2047 (fraction <<< 29 + quiet)
  else if exponent = 0 then
    if fraction = 0 then ofFields negative 0 0
    else
      let lead := fraction.log2
      ofFields negative (lead + 874) ((fraction - 1 <<< lead) <<< (52 - lead))
  else ofFields negative (exponent + 896) (fraction <<< 29)

end Binary64

end TensorProgram
