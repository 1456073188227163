import DatawerxMesh.Topology.RemapRun

/-!
# Agreement of two planners

Two clusters plan without talking to each other: one hashes the text that the other advertises, and
the other the rendering of its own parsed range.
-/

namespace DatawerxMesh.Topology

open Go Addressing Program

/-- Every text is a dotted CIDR that is not dangerous. -/
def PlainCIDRs (texts : List Str) : Prop :=
  ∀ text ∈ texts, DottedCIDR text ∧ dangerousText text = false

/-- Decision procedure for plain texts. -/
def plainText (text : Str) : Bool :=
  match parseNet text with
  | some (.four block) => !isDangerousCIDR (.four block)
  | _ => false

theorem plainCIDRs_of_check {texts : List Str} (checked : texts.all plainText = true) :
    PlainCIDRs texts := by
  intro text mem
  have plain := List.all_eq_true.mp checked text mem
  unfold plainText at plain
  split at plain
  · rename_i block parsed
    exact ⟨⟨block, parsed⟩, by simpa [dangerousText, parsed] using plain⟩
  · cases plain

/-- A range that meets one of the others. -/
def Overlapping (texts others : List Str) (text : Str) (block : Block 32) : Prop :=
  text ∈ texts ∧ parseNet text = some (.four block) ∧
    ∃ other ∈ others, ∃ otherBlock, parseNet other = some (.four otherBlock) ∧
      block.overlaps otherBlock = true

/-- Size and hash index of an overlapping range, hashed as it is advertised. -/
def AdvertisedIndex (poolBlock : Block 32) (clusterID : Str) (texts others : List Str)
    (len index : Nat) : Prop :=
  ∃ text block, Overlapping texts others text block ∧ block.len = len ∧
    blockIndex poolBlock clusterID text len = index

/-- Size and hash index of an overlapping range, hashed as it is rendered. -/
def RenderedIndex (poolBlock : Block 32) (clusterID : Str) (texts others : List Str)
    (len index : Nat) : Prop :=
  ∃ text block, Overlapping texts others text block ∧ block.len = len ∧
    blockIndex poolBlock clusterID (blockText block) len = index

/-- The advertised texts of the overlapping ranges select the same blocks as their renderings. -/
def IndicesAgree (pool clusterID : Str) (texts others : List Str) : Prop :=
  ∀ poolBlock, parseNet pool = some (.four poolBlock) → ∀ len index,
    AdvertisedIndex poolBlock clusterID texts others len index ↔
      RenderedIndex poolBlock clusterID texts others len index

/-- The routed ranges of one plan are the virtual ranges of the local pairs of the other. -/
def RoutesPresented (routing presenting : RemapPlan) : Prop :=
  ∀ virtual, virtual ∈ routing.routeVirtual ↔ ∃ pair ∈ presenting.locals, pair.virtual = virtual

section Lists

variable {texts others : List Str}

theorem mem_parse_of_plain (plain : PlainCIDRs texts) {net : IPNet} :
    net ∈ parseCIDRList texts ↔ ∃ text ∈ texts, ∃ block, parseNet text = some (.four block) ∧
      net = .four block := by
  rw [mem_parseCIDRList]
  constructor
  · rintro ⟨text, mem, parsed⟩
    obtain ⟨⟨block, dotted⟩, -⟩ := plain text mem
    exact ⟨text, mem, block, dotted, Option.some.inj (parsed.symm.trans dotted)⟩
  · rintro ⟨text, mem, block, parsed, rfl⟩
    exact ⟨text, mem, parsed⟩

theorem cidrsOverlap_four (left right : Block 32) :
    cidrsOverlap (.four left) (.four right) = left.overlaps right :=
  cidrsOverlap_of_block4 rfl rfl

variable (plain : PlainCIDRs texts) (plain_others : PlainCIDRs others)

include plain plain_others

theorem mem_conflicts_of_plain {text : Str} :
    text ∈ (partition texts others).2 ↔ ∃ block, Overlapping texts others text block := by
  constructor
  · intro conflict
    have mem : text ∈ texts := by
      rw [partition_snd, List.mem_filter] at conflict
      exact conflict.1
    obtain ⟨⟨block, parsed⟩, safe⟩ := plain text mem
    rw [dangerousText, parsed] at safe
    obtain ⟨-, net, in_others, overlap⟩ := (mem_conflicts_iff parsed safe).mp conflict
    obtain ⟨other, other_mem, otherBlock, other_parsed, rfl⟩ :=
      (mem_parse_of_plain plain_others).mp in_others
    rw [cidrsOverlap_four] at overlap
    exact ⟨block, mem, parsed, other, other_mem, otherBlock, other_parsed, overlap⟩
  · rintro ⟨block, mem, parsed, other, other_mem, otherBlock, other_parsed, overlap⟩
    obtain ⟨-, safe⟩ := plain text mem
    rw [dangerousText, parsed] at safe
    refine (mem_conflicts_iff parsed safe).mpr ⟨mem, .four otherBlock, ?_, ?_⟩
    · exact mem_parseCIDRList.mpr ⟨other, other_mem, other_parsed⟩
    · rw [cidrsOverlap_four, overlap]

theorem peer_placed_iff {text : Str} :
    .peer text ∈ placements (parseCIDRList others) (partition texts others).2 ↔
      ∃ block, Overlapping texts others text block := by
  rw [mem_placements_peer, mem_conflicts_of_plain plain plain_others]
  refine and_iff_left_of_imp ?_
  rintro ⟨block, -, parsed, -⟩
  rw [parsed]
  rfl

theorem local_placed_iff {real : Str} :
    .local real ∈ placements (parseCIDRList texts) (partition others texts).2 ↔
      ∃ text block, Overlapping texts others text block ∧ real = blockText block := by
  rw [mem_placements_local]
  constructor
  · rintro ⟨other, conflict, otherNet, other_parsed, localNet, in_texts, overlap, rfl⟩
    obtain ⟨otherBlock, other_mem, other_eq, -⟩ :=
      (mem_conflicts_of_plain plain_others plain).mp conflict
    obtain rfl := Option.some.inj (other_parsed.symm.trans other_eq)
    obtain ⟨text, text_mem, block, parsed, rfl⟩ := (mem_parse_of_plain plain).mp in_texts
    rw [cidrsOverlap_four, Block.overlaps_comm] at overlap
    exact ⟨text, block, ⟨text_mem, parsed, other, other_mem, otherBlock, other_eq, overlap⟩,
      IPNet.string_of_block4 rfl⟩
  · rintro ⟨text, block, ⟨mem, parsed, other, other_mem, otherBlock, other_parsed, overlap⟩, rfl⟩
    rw [Block.overlaps_comm] at overlap
    refine ⟨other, (mem_conflicts_of_plain plain_others plain).mpr
      ⟨otherBlock, other_mem, other_parsed, text, mem, block, parsed, overlap⟩,
      .four otherBlock, other_parsed, .four block, ?_, ?_, (IPNet.string_of_block4 rfl).symm⟩
    · exact mem_parseCIDRList.mpr ⟨text, mem, parsed⟩
    · rw [cidrsOverlap_four, overlap]

end Lists

theorem virtualBlock_eq_iff {poolBlock : Block 32} {leftID leftText rightID rightText : Str}
    {leftLen rightLen : Nat} {left_fits : poolBlock.len ≤ leftLen}
    {right_fits : poolBlock.len ≤ rightLen} {left_le : leftLen ≤ 32} {right_le : rightLen ≤ 32} :
    virtualBlock poolBlock leftID leftText leftLen left_fits left_le =
        virtualBlock poolBlock rightID rightText rightLen right_fits right_le ↔
      leftLen = rightLen ∧ blockIndex poolBlock leftID leftText leftLen =
          blockIndex poolBlock rightID rightText rightLen := by
  constructor
  · intro same
    obtain rfl : leftLen = rightLen := congrArg Block.len same
    have overlap : (virtualBlock poolBlock leftID leftText leftLen left_fits left_le).overlaps
        (virtualBlock poolBlock rightID rightText leftLen right_fits right_le) = true := by
      rw [same, Block.overlaps_iff_contains_base (Nat.le_refl _)]
      exact Block.contains_base _
    have index_eq := (poolBlock.carve_overlaps_iff left_fits (Nat.le_refl _) left_le
      (blockIndex_lt _ _ _ _) (blockIndex_lt _ _ _ _)).mp overlap
    rw [Nat.sub_self, Nat.pow_zero, Nat.div_one] at index_eq
    exact ⟨rfl, index_eq.symm⟩
  · rintro ⟨rfl, index_eq⟩
    simp only [virtualBlock, index_eq]

section Selection

variable (poolBlock : Block 32) (clusterID : Str) (texts others : List Str)
  (hashed : Str → Block 32 → Str)

/-- The ranges that the overlapping texts select when the given renderings of them are hashed. -/
def Selected (virtual : Str) : Prop :=
  ∃ text block, Overlapping texts others text block ∧
    ∃ (fits : poolBlock.len ≤ block.len) (len_le : block.len ≤ 32),
      virtual = blockText (virtualBlock poolBlock clusterID (hashed text block) block.len
        fits len_le)

/-- The sizes and indices of the selected ranges. -/
def SelectedIndex (len index : Nat) : Prop :=
  ∃ text block, Overlapping texts others text block ∧ block.len = len ∧
    blockIndex poolBlock clusterID (hashed text block) len = index

variable {poolBlock clusterID texts others}
  (fits : ∀ text block, Overlapping texts others text block → poolBlock.len ≤ block.len)
  (first second : Str → Block 32 → Str)

include fits first second

theorem selected_imp_iff :
    (∀ virtual, Selected poolBlock clusterID texts others first virtual →
      Selected poolBlock clusterID texts others second virtual) ↔
    ∀ len index, SelectedIndex poolBlock clusterID texts others first len index →
      SelectedIndex poolBlock clusterID texts others second len index := by
  constructor
  · rintro selected _ _ ⟨text, block, overlapping, rfl, rfl⟩
    obtain ⟨other, otherBlock, other_overlapping, _, _, text_eq⟩ :=
      selected _ ⟨text, block, overlapping, fits text block overlapping, block.len_le, rfl⟩
    obtain ⟨len_eq, index_eq⟩ := virtualBlock_eq_iff.mp (blockText_injective text_eq)
    exact ⟨other, otherBlock, other_overlapping, len_eq.symm, by rw [index_eq, len_eq]⟩
  · rintro selected _ ⟨text, block, overlapping, block_fits, -, rfl⟩
    obtain ⟨other, otherBlock, other_overlapping, len_eq, index_eq⟩ :=
      selected _ _ ⟨text, block, overlapping, rfl, rfl⟩
    refine ⟨other, otherBlock, other_overlapping, len_eq ▸ block_fits, otherBlock.len_le,
      congrArg blockText ?_⟩
    exact virtualBlock_eq_iff.mpr ⟨len_eq.symm, by rw [len_eq, index_eq]⟩

theorem selected_iff :
    (∀ virtual, Selected poolBlock clusterID texts others first virtual ↔
      Selected poolBlock clusterID texts others second virtual) ↔
    ∀ len index, SelectedIndex poolBlock clusterID texts others first len index ↔
      SelectedIndex poolBlock clusterID texts others second len index := by
  constructor
  · intro same len index
    exact ⟨(selected_imp_iff fits first second).mp (fun virtual => (same virtual).mp) len index,
      (selected_imp_iff fits second first).mp (fun virtual => (same virtual).mpr) len index⟩
  · intro same virtual
    exact ⟨(selected_imp_iff fits first second).mpr (fun len index => (same len index).mp) virtual,
      (selected_imp_iff fits second first).mpr (fun len index => (same len index).mpr) virtual⟩

end Selection

section Agreement

variable {pool routingID presentingID : Str} {texts others : List Str}
  {routing presenting : RemapPlan}

theorem dotted_of_overlapping (plain : PlainCIDRs texts) (plain_others : PlainCIDRs others)
    (routed : planRemap pool routingID others presentingID (partition texts others).2 = .ok routing)
    {text : Str} {block : Block 32} (overlapping : Overlapping texts others text block) :
    DottedCIDR pool := by
  obtain ⟨⟨all, -⟩, -⟩ := (planRemap_eq_ok _ _ routing).mp routed
  have peer_placed := (peer_placed_iff plain plain_others).mpr ⟨block, overlapping⟩
  obtain ⟨-, parsed, other, other_mem, otherBlock, other_parsed, overlap⟩ := overlapping
  have local_placed : .local (IPNet.four otherBlock).string ∈
      placements (parseCIDRList others) (partition texts others).2 :=
    mem_placements_local.mpr ⟨text, (mem_placements_peer.mp peer_placed).1, .four block, parsed,
      .four otherBlock, mem_parseCIDRList.mpr ⟨other, other_mem, other_parsed⟩,
      by rw [cidrsOverlap_four, overlap], rfl⟩
  obtain ⟨routedVirtual, peer_ok⟩ := all _ peer_placed
  obtain ⟨presentedVirtual, local_ok⟩ := all _ local_placed
  have routed_ok : virtualCIDR pool presentingID text = .ok routedVirtual :=
    Placement.allocate_eq_ok.mp peer_ok
  have presented_ok : virtualCIDR pool routingID (IPNet.four otherBlock).string =
      .ok presentedVirtual := Placement.allocate_eq_ok.mp local_ok
  exact dotted_of_overlapping_pair parsed (by rw [cidrsOverlap_four, overlap]) routed_ok
    presented_ok

section

variable (plain : PlainCIDRs texts) (plain_others : PlainCIDRs others) {poolBlock : Block 32}
  (pool_eq : parseNet pool = some (.four poolBlock))

include plain plain_others pool_eq

section

variable
  (routed : planRemap pool routingID others presentingID (partition texts others).2 = .ok routing)

include routed

theorem fits_of_overlapping
    (text : Str) (block : Block 32) (overlapping : Overlapping texts others text block) :
    poolBlock.len ≤ block.len := by
  obtain ⟨⟨all, -⟩, -⟩ := (planRemap_eq_ok _ _ routing).mp routed
  obtain ⟨virtual, allocated⟩ :=
    all _ ((peer_placed_iff plain plain_others).mpr ⟨block, overlapping⟩)
  obtain ⟨_, found, -⟩ := (virtualCIDR_eq_ok pool_eq).mp (Placement.allocate_eq_ok.mp allocated)
  obtain ⟨parsedBlock, parsed, fits, -⟩ := presentedBlock_eq_some.mp found
  obtain rfl := IPNet.four.inj (Option.some.inj (overlapping.2.1.symm.trans parsed))
  exact fits

theorem mem_routed_iff (virtual : Str) :
    virtual ∈ routing.routeVirtual ↔
      Selected poolBlock presentingID texts others (fun text _ => text) virtual := by
  rw [mem_routeVirtual routed]
  simp only [peer_placed_iff plain plain_others, virtualCIDR_eq_ok pool_eq, presentedBlock_eq_some]
  constructor
  · rintro ⟨text, ⟨block, overlapping⟩, _, ⟨parsedBlock, parsed, fits, rfl⟩, rfl⟩
    obtain rfl := IPNet.four.inj (Option.some.inj (overlapping.2.1.symm.trans parsed))
    exact ⟨text, block, overlapping, fits, block.len_le, rfl⟩
  · rintro ⟨text, block, overlapping, fits, -, rfl⟩
    exact ⟨text, ⟨block, overlapping⟩, _, ⟨block, overlapping.2.1, fits, rfl⟩, rfl⟩

end

theorem mem_presented_iff
    (presented : planRemap pool presentingID texts routingID (partition others texts).2 =
      .ok presenting) (virtual : Str) :
    (∃ pair ∈ presenting.locals, pair.virtual = virtual) ↔
      Selected poolBlock presentingID texts others (fun _ block => blockText block) virtual := by
  simp only [mem_locals presented, local_placed_iff plain plain_others, virtualCIDR_eq_ok pool_eq,
    presentedBlock_eq_some]
  constructor
  · rintro ⟨pair, ⟨⟨text, block, overlapping, real_eq⟩, _, ⟨parsedBlock, parsed, fits, rfl⟩,
      virtual_eq⟩, rfl⟩
    rw [real_eq, parseNet_blockText] at parsed
    obtain rfl := IPNet.four.inj (Option.some.inj parsed)
    exact ⟨text, block, overlapping, fits, block.len_le, by rw [virtual_eq, real_eq]⟩
  · rintro ⟨text, block, overlapping, fits, -, rfl⟩
    exact ⟨⟨blockText block, _⟩, ⟨⟨text, block, overlapping, rfl⟩, _,
      ⟨block, parseNet_blockText block, fits, rfl⟩, rfl⟩, rfl⟩

end

/-- What is routed for a cluster is what it presents when the advertised and rendered indices agree.
-/
theorem routesPresented_iff (plain : PlainCIDRs texts) (plain_others : PlainCIDRs others)
    (routed : planRemap pool routingID others presentingID (partition texts others).2 = .ok routing)
    (presented : planRemap pool presentingID texts routingID (partition others texts).2 =
      .ok presenting) :
    RoutesPresented routing presenting ↔ IndicesAgree pool presentingID texts others := by
  by_cases dotted_pool : DottedCIDR pool
  · obtain ⟨poolBlock, pool_eq⟩ := dotted_pool
    have fits := fits_of_overlapping plain plain_others pool_eq routed
    have only_pool : IndicesAgree pool presentingID texts others ↔ ∀ len index,
        AdvertisedIndex poolBlock presentingID texts others len index ↔
          RenderedIndex poolBlock presentingID texts others len index := by
      simp [IndicesAgree, pool_eq]
    simp only [RoutesPresented, only_pool, mem_routed_iff plain plain_others pool_eq routed,
      mem_presented_iff plain plain_others pool_eq presented]
    exact selected_iff fits _ _
  · have apart : ∀ text block, ¬ Overlapping texts others text block :=
      fun text block overlapping =>
        dotted_pool (dotted_of_overlapping plain plain_others routed overlapping)
    refine iff_of_true (fun virtual => iff_of_false ?_ ?_) fun poolBlock pool_eq =>
      absurd ⟨poolBlock, pool_eq⟩ dotted_pool
    · intro routed_mem
      obtain ⟨text, placed, -⟩ := (mem_routeVirtual routed virtual).mp routed_mem
      obtain ⟨block, overlapping⟩ := (peer_placed_iff plain plain_others).mp placed
      exact apart text block overlapping
    · rintro ⟨pair, mem, -⟩
      obtain ⟨placed, -⟩ := (mem_locals presented pair).mp mem
      obtain ⟨text, block, overlapping, -⟩ := (local_placed_iff plain plain_others).mp placed
      exact apart text block overlapping

end Agreement

/-- Two clusters agree on each other's virtual ranges exactly when the advertised texts of their
overlapping ranges select the same pool blocks as the rendered ones. -/
theorem plans_agree_iff (pool a b : Str) (la lb : List Str) (plain_a : PlainCIDRs la)
    (plain_b : PlainCIDRs lb) (planA planB : RemapPlan)
    (planned_a : planRemap pool a la b (partition lb la).2 = .ok planA)
    (planned_b : planRemap pool b lb a (partition la lb).2 = .ok planB) :
    (RoutesPresented planA planB ∧ RoutesPresented planB planA) ↔
      (IndicesAgree pool b lb la ∧ IndicesAgree pool a la lb) :=
  and_congr (routesPresented_iff plain_b plain_a planned_a planned_b)
    (routesPresented_iff plain_a plain_b planned_b planned_a)

theorem plans_agree_iff_pod :
    RoutesPresented ⟨["172.19.0.0/16"], [⟨"10.244.0.0/16", "172.18.0.0/16"⟩]⟩
        ⟨["172.18.0.0/16"], [⟨"10.244.0.0/16", "172.19.0.0/16"⟩]⟩ ∧
      RoutesPresented ⟨["172.18.0.0/16"], [⟨"10.244.0.0/16", "172.19.0.0/16"⟩]⟩
        ⟨["172.19.0.0/16"], [⟨"10.244.0.0/16", "172.18.0.0/16"⟩]⟩ ↔
      (IndicesAgree defaultRemapPool "cluster-b" ["10.244.0.0/16"] ["10.244.0.0/16"] ∧
        IndicesAgree defaultRemapPool "cluster-a" ["10.244.0.0/16"]
          ["10.244.0.0/16"]) :=
  plans_agree_iff defaultRemapPool "cluster-a" "cluster-b" ["10.244.0.0/16"]
    ["10.244.0.0/16"] (plainCIDRs_of_check (by decide +kernel))
    (plainCIDRs_of_check (by decide +kernel)) _ _ (by decide +kernel) (by decide +kernel)

/-- A range advertised with host bits is routed under another range than the one it is presented
under. -/
theorem plans_disagree_on_host_bits :
    planRemap defaultRemapPool "cluster-a" ["10.244.0.0/16"] "cluster-b"
        (partition ["10.244.0.1/16"] ["10.244.0.0/16"]).2 =
      .ok ⟨["172.30.0.0/16"], [⟨"10.244.0.0/16", "172.18.0.0/16"⟩]⟩ ∧
    planRemap defaultRemapPool "cluster-b" ["10.244.0.1/16"] "cluster-a"
        (partition ["10.244.0.0/16"] ["10.244.0.1/16"]).2 =
      .ok ⟨["172.18.0.0/16"], [⟨"10.244.0.0/16", "172.19.0.0/16"⟩]⟩ ∧
    ¬ RoutesPresented ⟨["172.30.0.0/16"], [⟨"10.244.0.0/16", "172.18.0.0/16"⟩]⟩
      ⟨["172.18.0.0/16"], [⟨"10.244.0.0/16", "172.19.0.0/16"⟩]⟩ := by
  refine ⟨by decide +kernel, by decide +kernel, fun agree => ?_⟩
  have presented := (agree "172.30.0.0/16").mp List.mem_cons_self
  exact absurd presented (by decide +kernel)

end DatawerxMesh.Topology
