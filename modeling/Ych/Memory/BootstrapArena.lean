import Ych.Base.Words

/-! The bump allocator the kernel boots with. Pointers are 64-bit numbers, NULL is 0. -/
namespace Ych.BootstrapArena
open Words

structure Arena where
  pBase : Nat
  pPtr : Nat
  pEnd : Nat
deriving DecidableEq

def krInitBootstrapArena (a : Arena) (pBase szArena : Nat) : Bool × Arena :=
  if szArena = 0 ∨ a.pBase ≠ 0 ∨ a.pPtr ≠ 0 ∨ a.pEnd ≠ 0 then (false, a)
  else (true, { pBase := pBase, pPtr := pBase, pEnd := wrap64 (pBase + szArena) })

def krBootstrapArenaAlign (a : Arena) (alignment : Nat) : Bool × Arena :=
  let pAligned := sub64 (wrap64 (a.pPtr + alignment)) 1 &&& not64 (sub64 alignment 1)
  if pAligned > a.pEnd then (false, a) else (true, { a with pPtr := pAligned })

def krBootstrapArenaAcquire (a : Arena) (n : Nat) : Nat × Arena :=
  let n := sub64 (wrap64 (n + 16)) 1 &&& not64 15
  if n = 0 ∨ wrap64 (a.pPtr + n) > a.pEnd then (0, a)
  else (a.pPtr, { a with pPtr := wrap64 (a.pPtr + n) })

def krBootstrapArenaGetSpaceLeft (a : Arena) : Nat :=
  if a.pPtr ≠ 0 then sub64 a.pEnd a.pPtr else 0

def granule (n : Nat) : Nat := wrap64 (n + 15) / 16 * 16

theorem krBootstrapArenaAlign_pow (a : Arena) {k : Nat} (hk : k < 32) :
    krBootstrapArenaAlign a (2 ^ k) =
      if wrap64 (a.pPtr + (2 ^ k - 1)) / 2 ^ k * 2 ^ k > a.pEnd then (false, a)
      else (true, { a with pPtr := wrap64 (a.pPtr + (2 ^ k - 1)) / 2 ^ k * 2 ^ k }) := by
  have hpos : 0 < 2 ^ k := Nat.two_pow_pos k
  have hlt : 2 ^ k < 2 ^ 32 := Nat.pow_lt_pow_right (by decide) hk
  rw [krBootstrapArenaAlign, sub64_wrap64_add a.pPtr hpos, sub64_of_le hpos (by omega),
    and_not64_mask (wrap64_lt _) (by omega)]

theorem krBootstrapArenaAcquire_granule (a : Arena) (n : Nat) :
    krBootstrapArenaAcquire a n =
      if granule n = 0 ∨ wrap64 (a.pPtr + granule n) > a.pEnd then (0, a)
      else (a.pPtr, { a with pPtr := wrap64 (a.pPtr + granule n) }) := by
  have hround : sub64 (wrap64 (n + 16)) 1 &&& not64 15 = granule n := by
    rw [sub64_wrap64_add n (by decide)]
    exact and_not64_mask (wrap64_lt _) (show 4 ≤ 64 by decide)
  rw [krBootstrapArenaAcquire, hround]

end Ych.BootstrapArena
