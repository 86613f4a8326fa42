/-!
Numbers as bytes, the highest byte first; signed numbers in two's complement. Main statement:
reading gives back what was written, as far as the width holds it.
-/
namespace Relata.Number

/-- How many numbers so many bytes tell apart. -/
def wordSize (width : Nat) : Nat := 1 <<< (8 * width)

theorem wordSize_succ (width : Nat) : wordSize (width + 1) = wordSize width * 256 := by
  rw [wordSize, Nat.mul_succ, Nat.shiftLeft_add, Nat.shiftLeft_eq, wordSize]

/-- The lowest `width` bytes of a number. -/
def toBytes : (width : Nat) → Nat → List UInt8
  | 0, _ => []
  | width + 1, n => UInt8.ofNat (n / wordSize width % 256) :: toBytes width n

def ofBytes (bs : List UInt8) : Nat := bs.foldl (fun n b => 256 * n + b.toNat) 0

@[simp] theorem length_toBytes (width n : Nat) : (toBytes width n).length = width := by
  induction width with
  | zero => rfl
  | succ w ih => simp [toBytes, ih]

theorem foldl_toBytes (width n acc : Nat) :
    (toBytes width n).foldl (fun n b => 256 * n + b.toNat) acc =
      wordSize width * acc + n % wordSize width := by
  induction width generalizing acc with
  | zero => simp [toBytes, wordSize, Nat.mod_one]
  | succ w ih =>
    simp only [toBytes, List.foldl_cons, ih, UInt8.toNat_ofNat', Nat.reducePow, Nat.mod_mod]
    rw [wordSize_succ, Nat.mod_mul]
    generalize n / wordSize w % 256 = d
    generalize n % wordSize w = r
    simp only [Nat.mul_add, Nat.mul_assoc]
    omega

theorem ofBytes_toBytes (width n : Nat) : ofBytes (toBytes width n) = n % wordSize width := by
  simp [ofBytes, foldl_toBytes]

/-- Two's complement of so many bytes. -/
def toWord (width : Nat) (z : Int) : List UInt8 := toBytes width (z % wordSize width).toNat

/-- The signed number that the bytes stand for. -/
def ofWord (bs : List UInt8) : Int :=
  let n : Int := ofBytes bs
  if 2 * n < wordSize bs.length then n else n - wordSize bs.length

end Relata.Number
