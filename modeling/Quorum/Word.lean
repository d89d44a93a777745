/-! Arithmetic on 64-bit words that reports an overflow, or stops at the limits. -/

namespace Quorum

-- Powers and sums of numbers are those of the core library, whatever else is imported.
@[default_instance high + 1]
scoped instance (priority := 2000) corePower : Pow Nat Nat := instPowNat

scoped instance (priority := 2000) coreZero : Zero Nat := ⟨0⟩

/-- Why a word operation has no result: its value does not fit 64 bits. -/
inductive Overflow where
  | addition
  | multiplication
  deriving DecidableEq

def Overflow.message : Overflow → String
  | .addition => "attempt to add with overflow"
  | .multiplication => "attempt to multiply with overflow"

namespace Word

def add (left right : UInt64) : Except Overflow UInt64 :=
  if left.toNat + right.toNat < UInt64.size then .ok (left + right) else .error .addition

def multiply (left right : UInt64) : Except Overflow UInt64 :=
  if left.toNat * right.toNat < UInt64.size then .ok (left * right) else .error .multiplication

/-- The sum, or the largest word where that is smaller. -/
def saturatingAdd (left right : UInt64) : UInt64 :=
  if left.toNat + right.toNat < UInt64.size then left + right else UInt64.ofNat (UInt64.size - 1)

/-- The difference, or zero where it would be negative. -/
def saturatingSub (left right : UInt64) : UInt64 :=
  if right ≤ left then left - right else 0

/-- A sum that fits is that of the numbers. -/
theorem add_eq_ok {left right sum : UInt64}
    : add left right = .ok sum ↔ sum.toNat = left.toNat + right.toNat := by
  unfold add
  split
  · next room =>
      rw [Except.ok.injEq, ← UInt64.toNat_inj, UInt64.toNat_add, Nat.mod_eq_of_lt room]
      exact eq_comm
  · next exceeds => exact ⟨nofun, fun same => absurd (same ▸ sum.toNat_lt_size) exceeds⟩

theorem multiply_eq_ok {left right product : UInt64}
    : multiply left right = .ok product ↔ product.toNat = left.toNat * right.toNat := by
  unfold multiply
  split
  · next room =>
      rw [Except.ok.injEq, ← UInt64.toNat_inj, UInt64.toNat_mul, Nat.mod_eq_of_lt room]
      exact eq_comm
  · next exceeds => exact ⟨nofun, fun same => absurd (same ▸ product.toNat_lt_size) exceeds⟩

theorem toNat_saturatingAdd (left right : UInt64)
    : (saturatingAdd left right).toNat = min (left.toNat + right.toNat) (UInt64.size - 1) := by
  unfold saturatingAdd
  split
  · next fits =>
      rw [UInt64.toNat_add, Nat.mod_eq_of_lt fits]
      omega
  · next exceeds =>
      rw [UInt64.toNat_ofNat_of_lt' (by decide)]
      omega

theorem toNat_saturatingSub (left right : UInt64)
    : (saturatingSub left right).toNat = left.toNat - right.toNat := by
  unfold saturatingSub
  split
  · next fits => exact UInt64.toNat_sub_of_le _ _ fits
  · next exceeds =>
      have := UInt64.not_le.mp exceeds
      rw [UInt64.lt_iff_toNat_lt] at this
      simp
      omega

end Word

end Quorum
