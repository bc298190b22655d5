import Mathlib.Order.Bounds.Basic
import Mathlib.Tactic.ByContra
import SandboxedGo.Settings

/-!
# Memory in whole pages

The memory limit is rounded up to whole pages by counting the pages and multiplying back, in words
of sixty-four bits.  Counting is exact for every request.  The product is too, unless the request
reaches into the last page of the range: then it is the first number that no word holds, and zero is
left of it.  Main statement: `memoryCeiling_iff`.
-/

set_option autoImplicit false

namespace SandboxedGo.ResourceLimits

/-- The least number of bytes in whole pages that holds a request. -/
def IsRoundedUp (request whole : Nat) : Prop :=
  IsLeast {n : Nat | pageSize.toNat ∣ n ∧ request ≤ n} whole

/-- What the ceiling for a request has to be: the request rounded up to whole pages, or the largest
word if no word holds that. -/
def IsCeiling (request ceiling : UInt64) : Prop :=
  ∃ whole, IsRoundedUp request.toNat whole ∧ ceiling.toNat = min whole (UInt64.size - 1)

/-- Whether the request ends before the last page of the range, or with the page before it. -/
def SparesLastPage (request : UInt64) : Prop := request.toNat + pageSize.toNat ≤ UInt64.size

theorem toNat_pageSize : pageSize.toNat = 65536 := rfl

/-- The number of pages is the quotient, rounded up. -/
theorem toNat_memoryPages (l : ResourceLimits) :
    l.memoryPages.toNat = (l.memoryBytes.toNat + 65535) / 65536 := by
  have bounded := l.memoryBytes.toNat_lt
  have remainder : l.memoryBytes % pageSize = 0 ↔ l.memoryBytes.toNat % 65536 = 0 := by
    rw [← UInt64.toNat_inj, UInt64.toNat_mod, toNat_pageSize, UInt64.toNat_zero]
  unfold memoryPages
  rw [UInt64.toNat_add, UInt64.toNat_div, toNat_pageSize]
  split
  · rename_i whole
    rw [remainder] at whole
    rw [UInt64.toNat_zero]
    omega
  · rename_i rest
    rw [remainder] at rest
    rw [UInt64.toNat_one]
    omega

theorem isRoundedUp_memoryPages (l : ResourceLimits) :
    IsRoundedUp l.memoryBytes.toNat (l.memoryPages.toNat * pageSize.toNat) := by
  rw [IsRoundedUp, toNat_memoryPages, toNat_pageSize]
  constructor
  · exact ⟨Nat.dvd_mul_left _ _, by omega⟩
  · rintro n ⟨⟨pages, rfl⟩, holds⟩
    omega

/-- The product needs no more than a word if the request spares the last page, and otherwise it is
one more than the largest word. -/
theorem product_lt_iff (l : ResourceLimits) :
    l.memoryPages.toNat * pageSize.toNat < UInt64.size ↔ SparesLastPage l.memoryBytes := by
  rw [SparesLastPage, toNat_memoryPages, toNat_pageSize, UInt64.size]
  omega

theorem product_of_not_spares {l : ResourceLimits} (reaches : ¬SparesLastPage l.memoryBytes) :
    l.memoryPages.toNat * pageSize.toNat = UInt64.size := by
  have bounded := l.memoryBytes.toNat_lt
  rw [SparesLastPage, toNat_pageSize, UInt64.size] at reaches
  rw [toNat_memoryPages, toNat_pageSize, UInt64.size]
  omega

theorem toNat_memoryCeiling (l : ResourceLimits) :
    l.memoryCeiling.toNat = l.memoryPages.toNat * pageSize.toNat % UInt64.size := by
  rw [memoryCeiling, UInt64.toNat_mul]

theorem memoryCeiling_of_not_spares {l : ResourceLimits}
    (reaches : ¬SparesLastPage l.memoryBytes) : l.memoryCeiling = 0 := by
  rw [← UInt64.toNat_inj, toNat_memoryCeiling, product_of_not_spares reaches, Nat.mod_self]
  rfl

/-- Where the product is a word, the ceiling is the request in whole pages. -/
theorem isRoundedUp_memoryCeiling {l : ResourceLimits} (spares : SparesLastPage l.memoryBytes) :
    IsRoundedUp l.memoryBytes.toNat l.memoryCeiling.toNat := by
  rw [toNat_memoryCeiling, Nat.mod_eq_of_lt ((product_lt_iff l).mpr spares)]
  exact isRoundedUp_memoryPages l

/-- The ceiling is what it has to be if and only if the request spares the last page of the range;
then the product is exact and the ceiling not below the request.  Otherwise the product overflows
and no memory is left. -/
theorem memoryCeiling_iff (l : ResourceLimits) :
    IsRoundedUp l.memoryBytes.toNat (l.memoryPages.toNat * pageSize.toNat) ∧
      (l.memoryPages.toNat * pageSize.toNat < UInt64.size ↔ SparesLastPage l.memoryBytes) ∧
      (IsCeiling l.memoryBytes l.memoryCeiling ↔ SparesLastPage l.memoryBytes) ∧
      (l.memoryBytes ≤ l.memoryCeiling ↔ SparesLastPage l.memoryBytes) ∧
      (¬SparesLastPage l.memoryBytes → l.memoryCeiling = 0) := by
  refine ⟨isRoundedUp_memoryPages l, product_lt_iff l, ⟨?_, ?_⟩, ⟨?_, ?_⟩,
    memoryCeiling_of_not_spares⟩
  · rintro ⟨whole, rounded, is⟩
    by_contra reaches
    rw [memoryCeiling_of_not_spares reaches, UInt64.toNat_zero,
      rounded.unique (isRoundedUp_memoryPages l), product_of_not_spares reaches] at is
    cases is
  · intro spares
    refine ⟨_, isRoundedUp_memoryCeiling spares, (Nat.min_eq_left ?_).symm⟩
    exact Nat.le_sub_one_of_lt l.memoryCeiling.toNat_lt
  · intro covers
    by_contra reaches
    rw [memoryCeiling_of_not_spares reaches, UInt64.le_iff_toNat_le, UInt64.toNat_zero] at covers
    rw [SparesLastPage, toNat_pageSize, UInt64.size] at reaches
    omega
  · intro spares
    rw [UInt64.le_iff_toNat_le]
    exact (isRoundedUp_memoryCeiling spares).1.2

/-- The largest request gets no memory at all, where the largest word is due. -/
theorem largest_request_wraps :
    memoryCeiling { memoryBytes := 0xffffffffffffffff } = 0 ∧
      ¬IsCeiling 0xffffffffffffffff (memoryCeiling { memoryBytes := 0xffffffffffffffff }) := by
  refine ⟨by decide, ?_⟩
  rintro ⟨whole, ⟨⟨-, holds⟩, -⟩, is⟩
  have large : 0xffffffffffffffff ≤ whole := holds
  have none : 0 = min whole (UInt64.size - 1) := is
  rw [UInt64.size] at none
  omega

end SandboxedGo.ResourceLimits
