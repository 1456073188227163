import DatawerxMesh.Topology.Remap

/-!
# What `VirtualCIDR` returns

With a dotted pool, a dotted real range that fits is given the block of the pool that its hash
selects.  In IPv4-mapped notation the number of blocks wraps to zero.
-/

namespace DatawerxMesh.Topology

open Go Addressing Program

variable {count len : Nat} {pool clusterID real virtual : Str}

/-- The text is an IPv4 network in dotted notation. -/
def DottedCIDR (text : Str) : Prop := ∃ block, parseNet text = some (.four block)

/-- The text is an IPv4 network in IPv4-mapped IPv6 notation. -/
def MappedCIDR (text : Str) : Prop :=
  ∃ block low, parseNet text = some (.sixteen block) ∧ unmap block.base = some low

/-- Index of the pool block that the hash of a range selects. -/
def blockIndex (pool : Block 32) (clusterID text : Str) (len : Nat) : Nat :=
  (hash32 (hashKey clusterID text)).toNat % 2 ^ (len - pool.len)

theorem blockIndex_lt (pool : Block 32) (clusterID text : Str) (len : Nat) :
    blockIndex pool clusterID text len < 2 ^ (len - pool.len) :=
  Nat.mod_lt _ (Nat.two_pow_pos _)

/-- The block of the pool in which a range of the given size is presented. -/
def virtualBlock (pool : Block 32) (clusterID text : Str) (len : Nat) (fits : pool.len ≤ len)
    (len_le : len ≤ 32) : Block 32 :=
  pool.carve len (blockIndex pool clusterID text len) fits len_le
    (blockIndex_lt pool clusterID text len)

@[simp] theorem virtualBlock_len (pool : Block 32) (clusterID text : Str) (len : Nat)
    (fits : pool.len ≤ len) (len_le : len ≤ 32) :
    (virtualBlock pool clusterID text len fits len_le).len = len := rfl

theorem shl_eq {w : Nat} (x : BitVec w) (count : Nat) : shl x count = x <<< count := by
  rw [shl]
  split
  · rename_i wide
    exact (BitVec.shiftLeft_eq_zero wide).symm
  · rfl

theorem toNat_numBlocks (small : count < 64) : (shl 1#64 count).toNat = 2 ^ count := by
  have bound : 2 ^ count < 2 ^ 64 := Nat.pow_lt_pow_right (by decide) small
  rw [shl_eq, BitVec.toNat_shiftLeft, BitVec.toNat_ofNat, Nat.mod_eq_of_lt (by decide : 1 < 2 ^ 64),
    Nat.shiftLeft_eq, Nat.one_mul, Nat.mod_eq_of_lt bound]

theorem numBlocks_eq_zero : shl 1#64 count = 0 ↔ 64 ≤ count := by
  constructor
  · intro zero
    by_contra small
    have positive := Nat.two_pow_pos count
    rw [← toNat_numBlocks (by omega), zero] at positive
    exact absurd positive (by decide)
  · intro wide
    rw [shl, if_pos wide]

theorem toNat_umod_numBlocks (hash : BitVec 32) (small : count < 64) :
    (hash.setWidth 64 % shl 1#64 count).toNat = hash.toNat % 2 ^ count := by
  have bound := hash.isLt
  rw [BitVec.toNat_umod, toNat_numBlocks small, BitVec.toNat_setWidth,
    Nat.mod_eq_of_lt (show hash.toNat < 2 ^ 64 by omega)]

theorem toNat_index (pool : Block 32) (clusterID text : Str) (len_le : len ≤ 32) :
    ((hash32 (hashKey clusterID text)).setWidth 64 % shl 1#64 (len - pool.len)).toNat =
      blockIndex pool clusterID text len :=
  toNat_umod_numBlocks _ (by omega)

/-- The second half panics exactly when the prefix lengths are at least 64 apart. -/
theorem allocateVirtual_eq_panic {poolBase : BitVec 32} {poolOnes realOnes : Nat} :
    allocateVirtual pool clusterID real poolBase poolOnes realOnes = .panic ↔
      64 ≤ realOnes - poolOnes := by
  rw [allocateVirtual]
  by_cases small : realOnes < poolOnes
  · rw [if_pos small]
    have narrow : ¬ 64 ≤ realOnes - poolOnes := by omega
    simp [narrow]
  · rw [if_neg small]
    by_cases wide : 64 ≤ realOnes - poolOnes
    · simp [numBlocks_eq_zero.mpr wide, wide]
    · have nonzero : shl 1#64 (realOnes - poolOnes) ≠ 0 := by
        rw [ne_eq, numBlocks_eq_zero]
        exact wide
      simp only [if_neg nonzero, wide, reduceCtorEq]

theorem blockBits_eq (len_le : len ≤ 32) : blockBits len = 32 - len := by
  simp only [blockBits]
  omega

theorem allocateVirtual_eq_block (poolBlock : Block 32) (fits : poolBlock.len ≤ len)
    (len_le : len ≤ 32) :
    allocateVirtual pool clusterID real poolBlock.base poolBlock.len len =
      .ok (blockText (virtualBlock poolBlock clusterID real len fits len_le)) := by
  have truncated :
      ((hash32 (hashKey clusterID real)).setWidth 64 % shl 1#64 (len - poolBlock.len)).setWidth 32 =
        BitVec.ofNat 32 (blockIndex poolBlock clusterID real len) := by
    rw [← toNat_index poolBlock clusterID real len_le]
    exact (BitVec.ofNat_toNat _ _).symm
  rw [allocateVirtual, if_neg (by omega)]
  simp only
  rw [if_neg (by rw [numBlocks_eq_zero]; omega), blockBits_eq len_le, truncated, shl_eq]
  rfl

theorem virtualCIDR_of_views {poolNet realNet : IPNet} (pool_eq : parseNet pool = some poolNet)
    (real_eq : parseNet real = some realNet) {poolBase realBase : BitVec 32}
    (pool_view : poolNet.ip.to4 = some poolBase) (real_view : realNet.ip.to4 = some realBase) :
    virtualCIDR pool clusterID real =
      allocateVirtual pool clusterID real poolBase poolNet.ones realNet.ones := by
  rw [virtualCIDR, pool_eq]
  simp only [pool_view, real_eq, real_view]

theorem virtualCIDR_err_or_views (pool clusterID real : Str) :
    (∃ error, virtualCIDR pool clusterID real = .err error) ∨
      ∃ poolNet realNet poolBase realBase, parseNet pool = some poolNet ∧
        parseNet real = some realNet ∧ poolNet.ip.to4 = some poolBase ∧
        realNet.ip.to4 = some realBase := by
  rw [virtualCIDR]
  cases pool_eq : parseNet pool with
  | none => exact Or.inl ⟨_, rfl⟩
  | some poolNet =>
    cases pool_view : poolNet.ip.to4 with
    | none => exact Or.inl ⟨_, by simp only [pool_view]; rfl⟩
    | some poolBase =>
      cases real_eq : parseNet real with
      | none => exact Or.inl ⟨_, by simp only [pool_view]; rfl⟩
      | some realNet =>
        cases real_view : realNet.ip.to4 with
        | none => exact Or.inl ⟨_, by simp only [pool_view, real_view]; rfl⟩
        | some realBase =>
          exact Or.inr ⟨poolNet, realNet, poolBase, realBase, rfl, rfl, pool_view, real_view⟩

theorem ones_of_to4 {net : IPNet} {base : BitVec 32} (view : net.ip.to4 = some base) :
    (∃ block, net = .four block ∧ net.ones ≤ 32) ∨
      ∃ block, net = .sixteen block ∧ unmap block.base = some base ∧ 96 ≤ net.ones ∧
        net.ones ≤ 128 := by
  cases net with
  | four block => exact Or.inl ⟨block, rfl, block.len_le⟩
  | sixteen block => exact Or.inr ⟨block, rfl, view, len_of_unmap view, block.len_le⟩

theorem virtualCIDR_eq_panic :
    virtualCIDR pool clusterID real = .panic ↔ DottedCIDR pool ∧ MappedCIDR real := by
  constructor
  · intro panics
    obtain ⟨error, failed⟩ | ⟨poolNet, realNet, poolBase, realBase, pool_eq, real_eq, pool_view,
      real_view⟩ := virtualCIDR_err_or_views pool clusterID real
    · rw [failed] at panics
      cases panics
    · rw [virtualCIDR_of_views pool_eq real_eq pool_view real_view,
        allocateVirtual_eq_panic] at panics
      obtain ⟨poolBlock, rfl, _⟩ | ⟨poolBlock, rfl, _, pool_long, _⟩ := ones_of_to4 pool_view
      · obtain ⟨realBlock, rfl, real_short⟩ | ⟨realBlock, rfl, low_eq, _, _⟩ :=
          ones_of_to4 real_view
        · omega
        · exact ⟨⟨poolBlock, pool_eq⟩, realBlock, realBase, real_eq, low_eq⟩
      · obtain ⟨_, _, real_short⟩ | ⟨_, _, _, _, real_short⟩ := ones_of_to4 real_view <;> omega
  · rintro ⟨⟨poolBlock, pool_eq⟩, realBlock, low, real_eq, low_eq⟩
    rw [virtualCIDR_of_views pool_eq real_eq rfl low_eq, allocateVirtual_eq_panic]
    have long := len_of_unmap low_eq
    have short := poolBlock.len_le
    change 64 ≤ realBlock.len - poolBlock.len
    omega

/-- The block of a dotted pool for the range that a text names, which has to be dotted and to fit.
-/
def presentedBlock (poolBlock : Block 32) (clusterID text : Str) : Option (Block 32) :=
  match parseNet text with
  | some (.four realBlock) =>
    if fits : poolBlock.len ≤ realBlock.len then
      some (virtualBlock poolBlock clusterID text realBlock.len fits realBlock.len_le)
    else none
  | _ => none

theorem presentedBlock_eq_some {poolBlock virtual : Block 32} {text : Str} :
    presentedBlock poolBlock clusterID text = some virtual ↔
      ∃ realBlock, parseNet text = some (.four realBlock) ∧ ∃ fits : poolBlock.len ≤ realBlock.len,
        virtual = virtualBlock poolBlock clusterID text realBlock.len fits realBlock.len_le := by
  rw [presentedBlock]
  split
  · rename_i realBlock parsed
    split
    · rename_i fits
      simp [parsed, fits, eq_comm]
    · rename_i larger
      simp [parsed, larger]
  · rename_i other
    simp only [reduceCtorEq, false_iff, not_exists, not_and]
    intro realBlock parsed
    exact absurd parsed (other realBlock)

theorem virtualCIDR_eq_ok {poolBlock : Block 32}
    (pool_eq : parseNet pool = some (.four poolBlock)) :
    virtualCIDR pool clusterID real = .ok virtual ↔ ∃ block,
        presentedBlock poolBlock clusterID real = some block ∧ virtual = blockText block := by
  constructor
  · intro allocated
    obtain ⟨error, failed⟩ | ⟨poolNet, realNet, poolBase, realBase, pool_eq', real_eq, pool_view,
      real_view⟩ := virtualCIDR_err_or_views pool clusterID real
    · rw [failed] at allocated
      cases allocated
    · obtain ⟨realBlock, rfl, _⟩ | ⟨realBlock, rfl, low_eq, _, _⟩ := ones_of_to4 real_view
      · rw [virtualCIDR_of_views pool_eq real_eq rfl rfl] at allocated
        by_cases fits : poolBlock.len ≤ realBlock.len
        · refine ⟨_, presentedBlock_eq_some.mpr ⟨realBlock, real_eq, fits, rfl⟩, ?_⟩
          exact Outcome.ok.inj
            (allocated.symm.trans (allocateVirtual_eq_block poolBlock fits realBlock.len_le))
        · change allocateVirtual pool clusterID real poolBlock.base poolBlock.len realBlock.len = _
            at allocated
          rw [allocateVirtual, if_pos (by omega)] at allocated
          cases allocated
      · rw [virtualCIDR_eq_panic.mpr ⟨⟨poolBlock, pool_eq⟩, realBlock, realBase, real_eq, low_eq⟩]
          at allocated
        cases allocated
  · rintro ⟨block, presented, rfl⟩
    obtain ⟨realBlock, real_eq, fits, rfl⟩ := presentedBlock_eq_some.mp presented
    rw [virtualCIDR_of_views pool_eq real_eq rfl rfl]
    exact allocateVirtual_eq_block poolBlock fits realBlock.len_le

/-- With an IPv4-mapped pool the mask is too long for the dotted text. -/
theorem presentedBlock_of_parseNet {net : IPNet}
    (allocated : virtualCIDR pool clusterID real = .ok virtual)
    (parsed : parseNet virtual = some net) :
    ∃ poolBlock block, parseNet pool = some (.four poolBlock) ∧
      presentedBlock poolBlock clusterID real = some block ∧ net = .four block := by
  obtain ⟨error, failed⟩ | ⟨poolNet, realNet, poolBase, realBase, pool_eq, real_eq, pool_view,
    real_view⟩ := virtualCIDR_err_or_views pool clusterID real
  · rw [failed] at allocated
    cases allocated
  · obtain ⟨poolBlock, rfl, -⟩ | ⟨poolBlock, rfl, -, pool_long, -⟩ := ones_of_to4 pool_view
    · obtain ⟨block, presented, rfl⟩ := (virtualCIDR_eq_ok pool_eq).mp allocated
      rw [parseNet_blockText] at parsed
      exact ⟨poolBlock, block, pool_eq, presented, (Option.some.inj parsed).symm⟩
    · exfalso
      have real_le : realNet.ones ≤ 128 := by
        obtain ⟨_, _, short⟩ | ⟨_, _, _, _, short⟩ := ones_of_to4 real_view <;> omega
      rw [virtualCIDR_of_views pool_eq real_eq pool_view real_view, allocateVirtual] at allocated
      split at allocated
      case isTrue => cases allocated
      case isFalse fits =>
        simp only at allocated
        split at allocated
        case isTrue => cases allocated
        case isFalse =>
          obtain rfl := Outcome.ok.inj allocated
          rw [parseNet_dotted_long _ (by omega) real_le] at parsed
          cases parsed

theorem isSome_of_virtualCIDR_ok (allocated : virtualCIDR pool clusterID real = .ok virtual) :
    (parseNet real).isSome := by
  obtain ⟨error, failed⟩ | ⟨_, realNet, _, _, -, real_eq, -⟩ :=
    virtualCIDR_err_or_views pool clusterID real
  · rw [failed] at allocated
    cases allocated
  · rw [real_eq]
    rfl

/-- With an IPv4-mapped pool the rendered dotted range counts as too large. -/
theorem dotted_of_overlapping_pair {peerID cidr localID routed presented : Str}
    {remote localNet : IPNet} (parsed : parseNet cidr = some remote)
    (overlap : cidrsOverlap remote localNet = true)
    (routed_ok : virtualCIDR pool peerID cidr = .ok routed)
    (presented_ok : virtualCIDR pool localID localNet.string = .ok presented) :
    DottedCIDR pool := by
  obtain ⟨error, failed⟩ | ⟨poolNet, remoteNet, poolBase, remoteBase, pool_eq, remote_eq, pool_view,
    remote_view⟩ := virtualCIDR_err_or_views pool peerID cidr
  · rw [failed] at routed_ok
    cases routed_ok
  · obtain ⟨poolBlock, rfl, -⟩ | ⟨poolBlock, rfl, -, pool_long, -⟩ := ones_of_to4 pool_view
    · exact ⟨poolBlock, pool_eq⟩
    · exfalso
      obtain rfl := Option.some.inj (parsed.symm.trans remote_eq)
      have remote_four : remote.block4.isSome := by
        rw [IPNet.to4_ip] at remote_view
        obtain ⟨block, view, -⟩ := Option.map_eq_some_iff.mp remote_view
        rw [view]
        rfl
      rw [block4_of_cidrsOverlap overlap] at remote_four
      obtain ⟨localBlock, view⟩ := Option.isSome_iff_exists.mp remote_four
      rw [IPNet.string_of_block4 view,
        virtualCIDR_of_views pool_eq (parseNet_blockText localBlock) pool_view rfl] at presented_ok
      have short : localBlock.len ≤ 32 := localBlock.len_le
      change allocateVirtual _ _ _ _ poolBlock.len localBlock.len = _ at presented_ok
      change 96 ≤ poolBlock.len at pool_long
      rw [allocateVirtual, if_pos (by omega)] at presented_ok
      cases presented_ok

end DatawerxMesh.Topology
