import Mathlib.Algebra.Group.Nat.Defs
import Mathlib.Data.Nat.Basic
import Mathlib.Tactic.Common

/-!
# Aligned blocks of fixed-width addresses

A block of `w`-bit addresses is given by the number of its leading bits and by its first address.
Two blocks are nested or disjoint, and renumbering keeps the host bits.
-/

namespace Addressing

/-- The leading bits. -/
def mask (w len : Nat) : BitVec w := BitVec.allOnes w <<< (w - len)

/-- An aligned block: its host bits are zero, so the base is the first address. -/
structure Block (w : Nat) where
  /-- First address of the block. -/
  base : BitVec w
  /-- Number of leading bits shared by the whole block. -/
  len : Nat
  len_le : len ≤ w
  aligned : base &&& mask w len = base
  deriving DecidableEq

theorem getLsbD_mask {w : Nat} (len i : Nat) :
    (mask w len).getLsbD i = (decide (i < w) && decide (w - len ≤ i)) := by
  simp only [mask]
  by_cases inside : i < w
  · by_cases leading : w - len ≤ i
    · have shifted : i - (w - len) < w := by omega
      simp [leading, shifted]
    · simp [leading]
  · simp [inside]

namespace Block

variable {w : Nat}

/-- The block of an address. -/
def around (address : BitVec w) (len : Nat) (len_le : len ≤ w) : Block w where
  base := address &&& mask w len
  len := len
  len_le := len_le
  aligned := by rw [BitVec.and_assoc, BitVec.and_self]

variable (block : Block w) (address : BitVec w)

/-- Membership compares the masked address with the masked base. -/
def contains : Bool :=
  address &&& mask w block.len == block.base &&& mask w block.len

variable (left right : Block w)

/-- Two blocks overlap when one of them contains the base of the other. -/
def overlaps : Bool :=
  left.contains right.base || right.contains left.base

/-- Replace the leading bits of an address by those of the block. -/
def renumber : BitVec w :=
  block.base ||| (address &&& ~~~mask w block.len)

theorem base_getLsbD {i : Nat} (host : i < w - block.len) : block.base.getLsbD i = false := by
  rw [← block.aligned, BitVec.getLsbD_and, getLsbD_mask]
  have outside : ¬ w - block.len ≤ i := by omega
  simp [outside]

theorem contains_iff :
    block.contains address = true ↔
      ∀ i, w - block.len ≤ i → address.getLsbD i = block.base.getLsbD i := by
  rw [contains, beq_iff_eq]
  constructor
  · intro masked i leading
    by_cases inside : i < w
    · have bit := congrArg (fun x => BitVec.getLsbD x i) masked
      simpa only [BitVec.getLsbD_and, getLsbD_mask, inside, leading, decide_true,
        Bool.and_true] using bit
    · rw [BitVec.getLsbD_of_ge _ _ (by omega), BitVec.getLsbD_of_ge _ _ (by omega)]
  · intro bits
    apply BitVec.eq_of_getLsbD_eq
    intro i inside
    simp only [BitVec.getLsbD_and, getLsbD_mask]
    by_cases leading : w - block.len ≤ i
    · simp [bits i leading]
    · simp [leading]

@[simp] theorem contains_base : block.contains block.base = true :=
  (block.contains_iff _).mpr fun _ _ => rfl

theorem getLsbD_renumber (i : Nat) :
    (block.renumber address).getLsbD i =
      if i < w - block.len then address.getLsbD i else block.base.getLsbD i := by
  rw [renumber, BitVec.getLsbD_or, BitVec.getLsbD_and, BitVec.getLsbD_not, getLsbD_mask]
  by_cases inside : i < w
  · by_cases host : i < w - block.len
    · have outside : ¬ w - block.len ≤ i := by omega
      simp only [block.base_getLsbD host, inside, outside, host, decide_true, decide_false,
        Bool.and_false, Bool.not_false, Bool.and_true, Bool.false_or, if_true]
    · have leading : w - block.len ≤ i := by omega
      simp only [inside, leading, host, decide_true, Bool.and_true, Bool.not_true,
        Bool.and_false, Bool.or_false, if_false]
  · have beyond : ∀ x : BitVec w, x.getLsbD i = false :=
      fun x => BitVec.getLsbD_of_ge x i (by omega)
    simp [beyond]

theorem contains_renumber : block.contains (block.renumber address) = true := by
  rw [contains_iff]
  intro i leading
  rw [getLsbD_renumber, if_neg (by omega)]

theorem renumber_of_contains {address : BitVec w}
    (mem : block.contains address = true) : block.renumber address = address := by
  apply BitVec.eq_of_getLsbD_eq
  intro i _
  rw [getLsbD_renumber]
  split
  · rfl
  · exact ((block.contains_iff _).mp mem i (by omega)).symm

theorem renumber_renumber (source target : Block w) (same_len : source.len = target.len)
    {address : BitVec w} (mem : source.contains address = true) :
    source.renumber (target.renumber address) = address := by
  apply BitVec.eq_of_getLsbD_eq
  intro i _
  rw [getLsbD_renumber, getLsbD_renumber, same_len]
  split
  · rfl
  · exact ((source.contains_iff _).mp mem i (by omega)).symm

/-- No address lies in both blocks. -/
def Disjoint : Prop :=
  ∀ address, ¬ (left.contains address = true ∧ right.contains address = true)

theorem Disjoint.symm {left right : Block w} (disjoint : left.Disjoint right) :
    right.Disjoint left :=
  fun address both => disjoint address both.symm

instance : Std.Symm (Disjoint : Block w → Block w → Prop) :=
  ⟨fun _ _ disjoint => disjoint.symm⟩

theorem contains_of_contains {outer inner : Block w} (len_le : outer.len ≤ inner.len)
    {shared : BitVec w} (in_outer : outer.contains shared = true)
    (in_inner : inner.contains shared = true) {address : BitVec w}
    (mem : inner.contains address = true) : outer.contains address = true := by
  rw [contains_iff] at *
  intro i leading
  rw [mem i (by omega), ← in_inner i (by omega), in_outer i leading]

theorem eq_of_contains {left right : Block w} (same_len : left.len = right.len)
    {shared : BitVec w} (in_left : left.contains shared = true)
    (in_right : right.contains shared = true) : left = right := by
  have same_base : left.base = right.base := by
    apply BitVec.eq_of_getLsbD_eq
    intro i _
    by_cases host : i < w - left.len
    · rw [left.base_getLsbD host, right.base_getLsbD (by omega)]
    · rw [← (left.contains_iff _).mp in_left i (by omega),
        (right.contains_iff _).mp in_right i (by omega)]
  obtain ⟨leftBase, leftLen, leftLe, leftAligned⟩ := left
  subst same_base same_len
  rfl

/-- The test of the two bases decides whether the blocks share an address. -/
theorem overlaps_iff :
    left.overlaps right = true ↔
      ∃ address, left.contains address = true ∧ right.contains address = true := by
  rw [overlaps, Bool.or_eq_true]
  constructor
  · rintro (mem | mem)
    · exact ⟨right.base, mem, right.contains_base⟩
    · exact ⟨left.base, left.contains_base, mem⟩
  · rintro ⟨address, in_left, in_right⟩
    rcases Nat.le_total left.len right.len with shorter | longer
    · exact Or.inl (contains_of_contains shorter in_left in_right right.contains_base)
    · exact Or.inr (contains_of_contains longer in_right in_left left.contains_base)

theorem overlaps_comm : left.overlaps right = right.overlaps left := by
  rw [overlaps, overlaps, Bool.or_comm]

theorem disjoint_iff_not_overlaps :
    left.Disjoint right ↔ left.overlaps right = false := by
  rw [Bool.eq_false_iff, ne_eq, overlaps_iff, not_exists]
  rfl

theorem overlaps_iff_contains_base {outer inner : Block w} (len_le : outer.len ≤ inner.len) :
    outer.overlaps inner = true ↔ outer.contains inner.base = true := by
  rw [overlaps_iff]
  constructor
  · rintro ⟨address, in_outer, in_inner⟩
    exact contains_of_contains len_le in_outer in_inner inner.contains_base
  · exact fun mem => ⟨inner.base, mem, inner.contains_base⟩

theorem contains_around_full (address other : BitVec w) :
    (around address w le_rfl).contains other = true ↔ other = address := by
  have full : mask w w = BitVec.allOnes w := by simp [mask]
  rw [contains, beq_iff_eq]
  change other &&& mask w w = address &&& mask w w &&& mask w w ↔ other = address
  simp [full]

@[simp] theorem around_base :
    around block.base block.len block.len_le = block := by
  simp only [around, aligned]

theorem renumber_eq_iff {key outer inner : Block w} (outer_le : outer.len ≤ inner.len)
    (inner_len : inner.len = key.len) {address : BitVec w}
    (mem : key.contains address = true) :
    outer.renumber address = inner.renumber address ↔ outer.renumber key.base = inner.base := by
  have leadingBits := (key.contains_iff _).mp mem
  constructor
  · intro agree
    apply BitVec.eq_of_getLsbD_eq
    intro i _
    have bit := congrArg (fun x => BitVec.getLsbD x i) agree
    simp only [getLsbD_renumber] at bit ⊢
    by_cases host : i < w - inner.len
    · rw [if_pos (by omega), key.base_getLsbD (by omega), inner.base_getLsbD host]
    · rw [if_neg host] at bit
      rw [← bit]
      split
      · exact (leadingBits i (by omega)).symm
      · rfl
  · intro agree
    apply BitVec.eq_of_getLsbD_eq
    intro i _
    have bit := congrArg (fun x => BitVec.getLsbD x i) agree
    simp only [getLsbD_renumber] at bit ⊢
    by_cases host : i < w - inner.len
    · rw [if_pos (by omega), if_pos host]
    · rw [← bit]
      split
      · exact leadingBits i (by omega)
      · rfl

theorem renumber_eq_self_iff {source target : Block w} (same_len : source.len = target.len)
    {address : BitVec w} (mem : source.contains address = true) :
    target.renumber address = address ↔ target = source := by
  constructor
  · intro fixed
    refine eq_of_contains same_len.symm ?_ mem
    rw [← fixed]
    exact target.contains_renumber address
  · rintro rfl
    exact target.renumber_of_contains mem

theorem toNat_and_mask (len : Nat) :
    (address &&& mask w len).toNat = address.toNat / 2 ^ (w - len) * 2 ^ (w - len) := by
  rw [mask, ← BitVec.shiftLeft_ushiftRight, BitVec.toNat_shiftLeft, BitVec.toNat_ushiftRight,
    Nat.shiftRight_eq_div_pow, Nat.shiftLeft_eq]
  apply Nat.mod_eq_of_lt
  exact lt_of_le_of_lt (Nat.div_mul_le_self _ _) address.isLt

theorem aligned_iff (base : BitVec w) (len : Nat) :
    base &&& mask w len = base ↔ 2 ^ (w - len) ∣ base.toNat := by
  rw [← BitVec.toNat_inj, toNat_and_mask]
  constructor
  · exact fun product => ⟨_, by rw [Nat.mul_comm]; exact product.symm⟩
  · exact Nat.div_mul_cancel

theorem contains_iff_div :
    block.contains address = true ↔
      address.toNat / 2 ^ (w - block.len) = block.base.toNat / 2 ^ (w - block.len) := by
  rw [contains, beq_iff_eq, ← BitVec.toNat_inj, toNat_and_mask, toNat_and_mask]
  exact Nat.mul_left_inj (Nat.ne_of_gt (Nat.two_pow_pos _))

theorem contains_around_iff_div (center address : BitVec w) {len quotient : Nat}
    (fits : len ≤ w) (center_eq : center.toNat / 2 ^ (w - len) = quotient) :
    (around center len fits).contains address = true ↔
      address.toNat / 2 ^ (w - len) = quotient := by
  have base : (around center len fits).base.toNat =
      center.toNat / 2 ^ (w - len) * 2 ^ (w - len) := toNat_and_mask center len
  rw [contains_iff_div, base, around, Nat.mul_div_cancel _ (Nat.two_pow_pos _), center_eq]

theorem exists_offset_of_contains {address : BitVec w} (mem : block.contains address = true) :
    ∃ off < 2 ^ (w - block.len), address.toNat = block.base.toNat + off := by
  have aligned := Nat.div_mul_cancel ((aligned_iff _ _).mp block.aligned)
  refine ⟨address.toNat % 2 ^ (w - block.len), Nat.mod_lt _ (Nat.two_pow_pos _), ?_⟩
  rw [← aligned, ← (block.contains_iff_div address).mp mem]
  exact (Nat.div_add_mod' _ _).symm

/-- An aligned base leaves room for the whole block. -/
theorem base_add_size_le : block.base.toNat + 2 ^ (w - block.len) ≤ 2 ^ w := by
  obtain ⟨quotient, product⟩ := (aligned_iff _ _).mp block.aligned
  have size : 2 ^ w = 2 ^ (w - block.len) * 2 ^ block.len := by
    rw [← Nat.pow_add, Nat.sub_add_cancel block.len_le]
  have below : quotient < 2 ^ block.len := by
    have bound := block.base.isLt
    rw [product, size] at bound
    exact Nat.lt_of_mul_lt_mul_left bound
  calc
    block.base.toNat + 2 ^ (w - block.len) = 2 ^ (w - block.len) * (quotient + 1) := by
      rw [product, Nat.mul_succ]
    _ ≤ 2 ^ (w - block.len) * 2 ^ block.len := Nat.mul_le_mul_left _ below
    _ = 2 ^ w := size.symm

variable (pool : Block w)

theorem carve_offset_lt {len index : Nat} (pool_le : pool.len ≤ len)
    (len_le : len ≤ w) (index_lt : index < 2 ^ (len - pool.len)) :
    index * 2 ^ (w - len) + 2 ^ (w - len) ≤ 2 ^ (w - pool.len) := by
  have size : 2 ^ (w - pool.len) = 2 ^ (len - pool.len) * 2 ^ (w - len) := by
    rw [← Nat.pow_add]
    congr 1
    omega
  rw [size, ← Nat.succ_mul]
  exact Nat.mul_le_mul_right _ index_lt

/-- Base of the sub-block of the given size and index. -/
def carveBase (len index : Nat) : BitVec w :=
  pool.base + BitVec.ofNat w index <<< (w - len)

theorem toNat_carveBase {len index : Nat} (pool_le : pool.len ≤ len)
    (len_le : len ≤ w) (index_lt : index < 2 ^ (len - pool.len)) :
    (pool.carveBase len index).toNat = pool.base.toNat + index * 2 ^ (w - len) := by
  have offset := pool.carve_offset_lt pool_le len_le index_lt
  have room := pool.base_add_size_le
  have positive := Nat.two_pow_pos (w - len)
  have index_fits : index < 2 ^ w := by
    have scaled : index ≤ index * 2 ^ (w - len) := Nat.le_mul_of_pos_right _ positive
    omega
  rw [carveBase, BitVec.toNat_add, BitVec.toNat_shiftLeft, BitVec.toNat_ofNat,
    Nat.mod_eq_of_lt index_fits, Nat.shiftLeft_eq,
    Nat.mod_eq_of_lt (show index * 2 ^ (w - len) < 2 ^ w by omega)]
  exact Nat.mod_eq_of_lt (by omega)

/-- The sub-block of a pool with the given size and index. -/
def carve (len index : Nat) (pool_le : pool.len ≤ len) (len_le : len ≤ w)
    (index_lt : index < 2 ^ (len - pool.len)) : Block w where
  base := pool.carveBase len index
  len := len
  len_le := len_le
  aligned := by
    rw [aligned_iff, pool.toNat_carveBase pool_le len_le index_lt]
    have pool_aligned := (aligned_iff _ _).mp pool.aligned
    exact Nat.dvd_add (Nat.dvd_trans (Nat.pow_dvd_pow 2 (by omega)) pool_aligned)
      (Nat.dvd_mul_left _ _)

/-- Carved blocks meet when the longer one's index leads to that of the shorter one. -/
theorem carve_overlaps_iff {shortLen longLen shortIndex longIndex : Nat}
    (pool_le : pool.len ≤ shortLen) (short_le : shortLen ≤ longLen) (len_le : longLen ≤ w)
    (short_lt : shortIndex < 2 ^ (shortLen - pool.len))
    (long_lt : longIndex < 2 ^ (longLen - pool.len)) :
    (pool.carve shortLen shortIndex pool_le (Nat.le_trans short_le len_le) short_lt).overlaps
        (pool.carve longLen longIndex (Nat.le_trans pool_le short_le) len_le long_lt) = true ↔
      longIndex / 2 ^ (longLen - shortLen) = shortIndex := by
  rw [overlaps_iff_contains_base short_le, contains_iff_div]
  change (pool.carveBase longLen longIndex).toNat / 2 ^ (w - shortLen) =
    (pool.carveBase shortLen shortIndex).toNat / 2 ^ (w - shortLen) ↔ _
  rw [pool.toNat_carveBase (Nat.le_trans pool_le short_le) len_le long_lt,
    pool.toNat_carveBase pool_le (Nat.le_trans short_le len_le) short_lt]
  obtain ⟨quotient, product⟩ : 2 ^ (w - shortLen) ∣ pool.base.toNat :=
    Nat.dvd_trans (Nat.pow_dvd_pow 2 (by omega)) ((aligned_iff _ _).mp pool.aligned)
  have split_size : 2 ^ (w - shortLen) = 2 ^ (w - longLen) * 2 ^ (longLen - shortLen) := by
    rw [← Nat.pow_add]
    congr 1
    omega
  have positive := Nat.two_pow_pos (w - shortLen)
  rw [product, Nat.mul_add_div positive, Nat.mul_add_div positive, Nat.mul_div_cancel _ positive,
    Nat.mul_comm longIndex, split_size,
    Nat.mul_div_mul_left _ _ (Nat.two_pow_pos (w - longLen))]
  exact Nat.add_left_cancel_iff

end Block
end Addressing
