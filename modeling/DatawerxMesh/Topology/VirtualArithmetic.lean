import DatawerxMesh.Topology.VirtualRange

/-!
# The arithmetic of virtual ranges

`VirtualCIDR` computes in 32 and 64 bits with shifts by up to 32 bits.  For a pool and a real range
in dotted notation nothing wraps, whatever the hash is.
-/

namespace DatawerxMesh.Topology

open Go Addressing Program

/-- The `index` of `VirtualCIDR`. -/
def poolIndex (hash : BitVec 32) (poolOnes realOnes : Nat) : BitVec 64 :=
  hash.setWidth 64 % shl 1#64 (realOnes - poolOnes)

/-- What `VirtualCIDR` adds to the base of the pool. -/
def poolOffset (hash : BitVec 32) (poolOnes realOnes : Nat) : BitVec 32 :=
  shl ((poolIndex hash poolOnes realOnes).setWidth 32) (blockBits realOnes)

/-- Each step has the value that it has on natural numbers, and the block ends inside the pool. -/
structure ExactArithmetic (poolBlock : Block 32) (realOnes : Nat) (hash : BitVec 32) : Prop where
  index : (poolIndex hash poolBlock.len realOnes).toNat =
    hash.toNat % 2 ^ (realOnes - poolBlock.len)
  truncated : ((poolIndex hash poolBlock.len realOnes).setWidth 32).toNat =
    (poolIndex hash poolBlock.len realOnes).toNat
  shifted : (poolOffset hash poolBlock.len realOnes).toNat =
    (poolIndex hash poolBlock.len realOnes).toNat * 2 ^ (32 - realOnes)
  inside : (poolOffset hash poolBlock.len realOnes).toNat + 2 ^ (32 - realOnes) ≤
    2 ^ (32 - poolBlock.len)
  added : (poolBlock.base + poolOffset hash poolBlock.len realOnes).toNat =
    poolBlock.base.toNat + (poolOffset hash poolBlock.len realOnes).toNat

theorem exactArithmetic {poolBlock : Block 32} {realOnes : Nat} (fits : poolBlock.len ≤ realOnes)
    (realOnes_le : realOnes ≤ 32) (hash : BitVec 32) : ExactArithmetic poolBlock realOnes hash := by
  have index : (poolIndex hash poolBlock.len realOnes).toNat =
      hash.toNat % 2 ^ (realOnes - poolBlock.len) := toNat_umod_numBlocks hash (by omega)
  have index_lt : (poolIndex hash poolBlock.len realOnes).toNat <
      2 ^ (realOnes - poolBlock.len) := by
    rw [index]
    exact Nat.mod_lt _ (Nat.two_pow_pos _)
  have inside := poolBlock.carve_offset_lt fits realOnes_le index_lt
  have room := poolBlock.base_add_size_le
  have positive := Nat.two_pow_pos (32 - realOnes)
  have scaled : (poolIndex hash poolBlock.len realOnes).toNat ≤
      (poolIndex hash poolBlock.len realOnes).toNat * 2 ^ (32 - realOnes) :=
    Nat.le_mul_of_pos_right _ positive
  have truncated : ((poolIndex hash poolBlock.len realOnes).setWidth 32).toNat =
      (poolIndex hash poolBlock.len realOnes).toNat := by
    rw [BitVec.toNat_setWidth]
    exact Nat.mod_eq_of_lt (by omega)
  have shifted : (poolOffset hash poolBlock.len realOnes).toNat =
      (poolIndex hash poolBlock.len realOnes).toNat * 2 ^ (32 - realOnes) := by
    rw [poolOffset, shl_eq, blockBits_eq realOnes_le, BitVec.toNat_shiftLeft, truncated,
      Nat.shiftLeft_eq]
    exact Nat.mod_eq_of_lt (by omega)
  refine ⟨index, truncated, shifted, by rw [shifted]; exact inside, ?_⟩
  rw [BitVec.toNat_add, shifted]
  exact Nat.mod_eq_of_lt (by omega)

section Blocks

variable {pool clusterID real : Str} {poolBlock realBlock : Block 32}

theorem virtualBlock_base (fits : poolBlock.len ≤ realBlock.len) :
    (virtualBlock poolBlock clusterID real realBlock.len fits realBlock.len_le).base =
      poolBlock.base +
        poolOffset (hash32 (hashKey clusterID real)) poolBlock.len realBlock.len := by
  have exact_ := exactArithmetic fits realBlock.len_le (hash32 (hashKey clusterID real))
  rw [← BitVec.toNat_inj, exact_.added, exact_.shifted, exact_.index]
  exact poolBlock.toNat_carveBase fits realBlock.len_le (blockIndex_lt poolBlock clusterID real _)

theorem contains_of_virtualBlock (fits : poolBlock.len ≤ realBlock.len) {address : BitVec 32}
    (mem : (virtualBlock poolBlock clusterID real realBlock.len fits realBlock.len_le).contains
      address = true) : poolBlock.contains address = true := by
  have exact_ := exactArithmetic fits realBlock.len_le (hash32 (hashKey clusterID real))
  obtain ⟨quotient, product⟩ := (Block.aligned_iff _ _).mp poolBlock.aligned
  have positive := Nat.two_pow_pos (32 - poolBlock.len)
  have offset_lt : (poolOffset (hash32 (hashKey clusterID real)) poolBlock.len
      realBlock.len).toNat < 2 ^ (32 - poolBlock.len) :=
    Nat.lt_of_lt_of_le (Nat.lt_add_of_pos_right (Nat.two_pow_pos _)) exact_.inside
  have in_pool : poolBlock.contains (virtualBlock poolBlock clusterID real realBlock.len fits
      realBlock.len_le).base = true := by
    rw [virtualBlock_base fits, Block.contains_iff_div, exact_.added, product,
      Nat.mul_add_div positive, Nat.mul_div_cancel_left _ positive, Nat.div_eq_of_lt offset_lt,
      Nat.add_zero]
  refine Block.contains_of_contains ?_ in_pool (Block.contains_base _) mem
  exact fits

variable (pool_eq : parseNet pool = some (.four poolBlock))
  (real_eq : parseNet real = some (.four realBlock))

include pool_eq real_eq

theorem virtualCIDR_of_fits (fits : poolBlock.len ≤ realBlock.len) :
    virtualCIDR pool clusterID real = .ok (IPNet.four (virtualBlock poolBlock clusterID real
      realBlock.len fits realBlock.len_le)).string :=
  (virtualCIDR_eq_ok pool_eq).mpr
    ⟨_, presentedBlock_eq_some.mpr ⟨realBlock, real_eq, fits, rfl⟩, rfl⟩

theorem virtualCIDR_of_larger (larger : realBlock.len < poolBlock.len) :
    virtualCIDR pool clusterID real = .err (.tooLarge real realBlock.len pool poolBlock.len) := by
  rw [virtualCIDR_of_views pool_eq real_eq rfl rfl]
  exact if_pos larger

end Blocks

/-- `VirtualCIDR` fails exactly on a text that does not parse or a range larger than the pool.
Otherwise no step wraps for any hash, and the result is the text of an aligned block of the wanted
size inside the pool, which is equal to or disjoint from every other one of its size. -/
theorem virtual_range_arithmetic (pool clusterID real : Str)
    (pool_dotted : parseNet pool = none ∨ DottedCIDR pool)
    (real_dotted : parseNet real = none ∨ DottedCIDR real) :
    ((∃ error, virtualCIDR pool clusterID real = .err error) ↔
      parseNet pool = none ∨ parseNet real = none ∨
        ∃ poolBlock realBlock, parseNet pool = some (.four poolBlock) ∧
          parseNet real = some (.four realBlock) ∧ realBlock.len < poolBlock.len) ∧
    ∀ poolBlock realBlock, parseNet pool = some (.four poolBlock) →
      parseNet real = some (.four realBlock) → poolBlock.len ≤ realBlock.len →
      (∀ hash, ExactArithmetic poolBlock realBlock.len hash) ∧
      ∃ block : Block 32, virtualCIDR pool clusterID real = .ok (IPNet.four block).string ∧
        parseNet (IPNet.four block).string = some (.four block) ∧ block.len = realBlock.len ∧
        block.base = poolBlock.base +
          poolOffset (hash32 (hashKey clusterID real)) poolBlock.len realBlock.len ∧
        2 ^ (32 - realBlock.len) ∣ block.base.toNat ∧
        (∀ address, block.contains address = true → poolBlock.contains address = true) ∧
        ∀ otherID other otherBlock,
          virtualCIDR pool otherID other = .ok (IPNet.four otherBlock).string →
          otherBlock.len = block.len → otherBlock = block ∨ otherBlock.Disjoint block := by
  refine ⟨⟨?_, ?_⟩, fun poolBlock realBlock pool_eq real_eq fits => ?_⟩
  · rintro ⟨error, failed⟩
    rcases pool_dotted with pool_eq | ⟨poolBlock, pool_eq⟩
    · exact .inl pool_eq
    · rcases real_dotted with real_eq | ⟨realBlock, real_eq⟩
      · exact .inr (.inl real_eq)
      · refine .inr (.inr ⟨poolBlock, realBlock, pool_eq, real_eq, ?_⟩)
        by_contra fits
        rw [virtualCIDR_of_fits pool_eq real_eq (Nat.le_of_not_lt fits)] at failed
        cases failed
  · rintro (pool_eq | real_eq | ⟨poolBlock, realBlock, pool_eq, real_eq, larger⟩)
    · exact ⟨_, by rw [virtualCIDR, pool_eq]⟩
    · obtain failed | ⟨_, _, _, _, _, parsed, _⟩ := virtualCIDR_err_or_views pool clusterID real
      · exact failed
      · rw [real_eq] at parsed
        cases parsed
    · exact ⟨_, virtualCIDR_of_larger pool_eq real_eq larger⟩
  · refine ⟨exactArithmetic fits realBlock.len_le, virtualBlock poolBlock clusterID real
      realBlock.len fits realBlock.len_le, virtualCIDR_of_fits pool_eq real_eq fits,
      parseNet_blockText _, rfl, virtualBlock_base fits, ?_, ?_, ?_⟩
    · exact (Block.aligned_iff _ _).mp (virtualBlock poolBlock clusterID real realBlock.len fits
        realBlock.len_le).aligned
    · exact fun address mem => contains_of_virtualBlock fits mem
    · intro otherID other otherBlock _ same_len
      by_cases shares : otherBlock.overlaps (virtualBlock poolBlock clusterID real realBlock.len
        fits realBlock.len_le) = true
      · obtain ⟨address, in_other, in_block⟩ := (Block.overlaps_iff _ _).mp shares
        exact .inl (Block.eq_of_contains same_len in_other in_block)
      · exact .inr ((Block.disjoint_iff_not_overlaps _ _).mpr (Bool.eq_false_iff.mpr shares))

theorem virtual_range_arithmetic_host :
    (∀ hash, ExactArithmetic (.around 0 0 (by decide)) 32 hash) ∧
      ∃ block : Block 32, block.len = 32 ∧
        virtualCIDR "0.0.0.0/0" "east" "10.0.0.1/32" =
          .ok (IPNet.four block).string := by
  have pool_eq : parseNet "0.0.0.0/0" = some (.four (.around 0 0 (by decide))) := by
    decide +kernel
  have real_eq : parseNet "10.0.0.1/32" =
      some (.four (.around 0x0A000001 32 (by decide))) := by
    decide +kernel
  obtain ⟨-, succeeds⟩ := virtual_range_arithmetic "0.0.0.0/0" "east"
    "10.0.0.1/32" (.inr ⟨_, pool_eq⟩) (.inr ⟨_, real_eq⟩)
  obtain ⟨exact_, block, allocated, -, len_eq, -⟩ := succeeds _ _ pool_eq real_eq (by decide)
  exact ⟨exact_, block, len_eq, allocated⟩

end DatawerxMesh.Topology
