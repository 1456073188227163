import DatawerxMesh.Meshfw.Plan

/-!
# What the firewall compiler collects

What the builder adds does not depend on what is already there, so the ruleset does not depend on
the order of the inputs.
-/

namespace DatawerxMesh.Meshfw

open Go Accumulation List

/-- What the compiler collects. -/
inductive Item where
  | accept (key : AcceptKey)
  | protect (dest : Str)
  | skip (text : Str)
  deriving DecidableEq

/-- The item is among the collected ones. -/
def FwBuilder.Has (b : FwBuilder) : Item → Prop
  | .accept key => key ∈ b.accepts
  | .protect dest => dest ∈ b.protectedDest
  | .skip text => text ∈ b.skipped

/-- The destinations under which a policy is programmed. -/
def Policy.dests (p : Policy) : List Str :=
  if p.destinations = [] then [[]] else p.destinations.filter FwBuilder.keeps

/-- The item reports an unusable text of a list. -/
def Reported (list : List Str) (kind : Str) (item : Item) : Prop :=
  ∃ c ∈ list, FwBuilder.reports c = true ∧ item = .skip (kind ++ ":" ++ c)

/-- What a rule adds. -/
def IngressRule.Adds (clusterCIDRs : Str → List Str) (ing : IngressRule) (dests : List Str)
    (item : Item) : Prop :=
  Reported (resolveSources ing.from_ clusterCIDRs) "from" item ∨
    ∃ d ∈ dests, ∃ s ∈ resolveSources ing.from_ clusterCIDRs, FwBuilder.keeps s = true ∧
      ∃ key ∈ FwBuilder.acceptKeys s d ing.ports, item = .accept key

/-- What a policy adds. -/
def Policy.Adds (clusterCIDRs : Str → List Str) (p : Policy) (item : Item) : Prop :=
  Reported p.destinations "dest" item ∨ (∃ d ∈ p.dests, item = .protect d) ∨
    p.dests ≠ [] ∧ ∃ ing ∈ p.ingress, ing.Adds clusterCIDRs p.dests item

namespace FwBuilder

variable {clusterCIDRs : Str → List Str}

theorem has_keepIPv4 (b : FwBuilder) (list : List Str) (kind : Str) (item : Item) :
    (b.keepIPv4 list kind).1.Has item ↔ b.Has item ∨ Reported list kind item := by
  cases item with
  | accept key => simp [keepIPv4, Has, Reported]
  | protect dest => simp [keepIPv4, Has, Reported]
  | skip text =>
    simp only [keepIPv4, Has, Reported, mem_append, mem_map, mem_filter, Item.skip.injEq, and_assoc]
    refine or_congr_right (exists_congr fun c => and_congr_right fun _ =>
      and_congr_right fun _ => eq_comm)

theorem has_addAccept (b : FwBuilder) (src dst : Str) (ports : List Port) (item : Item) :
    (b.addAccept src dst ports).Has item ↔
      b.Has item ∨ ∃ key ∈ acceptKeys src dst ports, item = .accept key := by
  cases item <;> simp [addAccept, Has]

theorem has_addIngress (b : FwBuilder) (ing : IngressRule) (dests : List Str) (item : Item) :
    (b.addIngress clusterCIDRs ing dests).Has item ↔
      b.Has item ∨ ing.Adds clusterCIDRs dests item := by
  rw [addIngress, foldl_iff (fun b => b.Has item) (fun state d => foldl_iff (fun b => b.Has item)
    (fun state s => has_addAccept state s d ing.ports item) _ state), has_keepIPv4, or_assoc]
  simp only [keepIPv4, mem_filter, IngressRule.Adds, and_assoc]

theorem has_addPolicy (b : FwBuilder) (p : Policy) (item : Item) :
    (b.addPolicy clusterCIDRs p).Has item ↔ b.Has item ∨ p.Adds clusterCIDRs item := by
  have unfolded : b.addPolicy clusterCIDRs p =
      if p.dests = [] then (b.keepIPv4 p.destinations "dest").1
      else p.ingress.foldl (fun b ing => b.addIngress clusterCIDRs ing p.dests)
        { (b.keepIPv4 p.destinations "dest").1 with
          protectedDest := (b.keepIPv4 p.destinations "dest").1.protectedDest ++ p.dests } :=
    rfl
  rw [unfolded, Policy.Adds]
  split
  · rename_i none_usable
    rw [has_keepIPv4]
    simp [none_usable]
  · rename_i usable
    have protected_iff : ∀ start : FwBuilder,
        { start with protectedDest := start.protectedDest ++ p.dests }.Has item ↔
          start.Has item ∨ ∃ d ∈ p.dests, item = .protect d := by
      intro start
      cases item <;> simp [Has]
    rw [foldl_iff (fun b => b.Has item) fun state ing => has_addIngress state ing p.dests item,
      protected_iff, has_keepIPv4, or_assoc, or_assoc, and_iff_right usable]

theorem has_addPolicies (policies : List Policy) (item : Item) :
    (policies.foldl (addPolicy clusterCIDRs) ⟨[], [], []⟩).Has item ↔
      ∃ p ∈ policies, p.Adds clusterCIDRs item := by
  rw [foldl_iff (fun b => b.Has item) fun state p => has_addPolicy state p item]
  refine or_iff_right ?_
  cases item <;> exact not_mem_nil

theorem exists_has_addPolicies {ι : Type} (kind : ι → Item) (property : ι → Prop)
    (policies : List Policy) :
    (∃ i, (policies.foldl (addPolicy clusterCIDRs) ⟨[], [], []⟩).Has (kind i) ∧ property i) ↔
      ∃ p ∈ policies, ∃ i, p.Adds clusterCIDRs (kind i) ∧ property i := by
  simp only [has_addPolicies]
  constructor
  · rintro ⟨i, ⟨p, mem, added⟩, holds⟩
    exact ⟨p, mem, i, added, holds⟩
  · rintro ⟨p, mem, i, added, holds⟩
    exact ⟨i, ⟨p, mem, added⟩, holds⟩

end FwBuilder

theorem lessAccept_orders : Sorting.Orders lessAccept fun key =>
    (key.dst, key.src, key.proto, key.port) :=
  less_orders.byField <| less_orders.byField <| less_orders.byField less_orders.onField

theorem lessDest_orders : Sorting.Orders lessDest id where
  asymm a b before := by
    simp only [lessDest] at before ⊢
    split at before
    · cases before
    · split
      · rfl
      · rename_i b_ne
        rw [if_neg b_ne] at before
        exact less_orders.asymm a b before
  le_trans a b c not_before not_after := by
    simp only [lessDest] at *
    grind [less_orders.le_trans a b c]
  ties a b not_before not_after := by
    simp only [lessDest] at not_before not_after
    by_cases a_nil : a = []
    · by_cases b_nil : b = []
      · rw [a_nil, b_nil]
      · simp [a_nil, b_nil] at not_after
    · by_cases b_nil : b = []
      · simp [a_nil, b_nil] at not_before
      · rw [if_neg a_nil, if_neg b_nil] at not_before
        rw [if_neg b_nil, if_neg a_nil] at not_after
        exact less_orders.ties a b not_before not_after

theorem mem_dedupe {texts : List Str} {text : Str} : text ∈ dedupe texts ↔ text ∈ texts := by
  fun_induction dedupe texts with
  | case1 => rfl
  | case2 last => rfl
  | case3 first rest ih => rw [ih]; simp
  | case4 first second rest apart ih => rw [mem_cons, ih, ← mem_cons]

theorem dedupe_pairwise {texts : List Str} (sorted : texts.Pairwise fun a b => less b a = false) :
    (dedupe texts).Pairwise fun a b => less a b = true := by
  fun_induction dedupe texts with
  | case1 => exact Pairwise.nil
  | case2 last => exact pairwise_singleton _ _
  | case3 first rest ih => exact ih (pairwise_cons.mp sorted).2
  | case4 first second rest apart ih =>
    obtain ⟨first_le, sorted⟩ := pairwise_cons.mp sorted
    refine pairwise_cons.mpr ⟨fun text mem => ?_, ih sorted⟩
    -- A later text equal to the first would make the second equal to it too.
    have second_le : less text second = false := by
      rcases mem_cons.mp (mem_dedupe.mp mem) with rfl | later
      · exact less_orders.irrefl text
      · exact (pairwise_cons.mp sorted).1 text later
    have above := first_le text (mem_dedupe.mp mem)
    by_contra not_before
    have same : text = first := less_orders.ties text first above (by simpa using not_before)
    rw [same] at second_le
    exact apart (less_orders.ties first second second_le (first_le second mem_cons_self))

theorem dedupe_sort_eq {left right : List Str} (same : ∀ text, text ∈ left ↔ text ∈ right) :
    dedupe (sortStrings left) = dedupe (sortStrings right) := by
  have strict : ∀ texts, (dedupe (sortStrings texts)).Pairwise fun a b => less a b = true :=
    fun texts => dedupe_pairwise (Sorting.sort_pairwise less_orders texts)
  have nodup : ∀ texts, (dedupe (sortStrings texts)).Nodup := fun texts =>
    (strict texts).imp fun before same => by
      rw [same, less_orders.irrefl] at before
      cases before
  have members : ∀ texts text, text ∈ dedupe (sortStrings texts) ↔ text ∈ texts := fun texts text =>
    mem_dedupe.trans (Sorting.mem_sort less)
  refine Perm.eq_of_pairwise ?_ (strict left) (strict right) ?_
  · intro a b _ _ before after
    rw [less_orders.asymm a b before] at after
    cases after
  · refine (perm_ext_iff_of_nodup (nodup left) (nodup right)).mpr fun text => ?_
    rw [members, members, same]

theorem ruleset_eq_of_has {left right : FwBuilder}
    (same : ∀ item, left.Has item ↔ right.Has item) : left.ruleset = right.ruleset := by
  have accepts_eq : Sorting.sort lessAccept left.accepts.dedup =
      Sorting.sort lessAccept right.accepts.dedup := by
    refine Sorting.sort_eq_of_mem_iff lessAccept_orders ?_ (nodup_dedup _)
      (nodup_dedup _) fun key => ?_
    · rintro ⟨_, _, _, _⟩ ⟨_, _, _, _⟩ same_key
      cases same_key
      rfl
    · rw [mem_dedup, mem_dedup]
      exact same (.accept key)
  have dests_eq : Sorting.sort lessDest left.protectedDest.dedup =
      Sorting.sort lessDest right.protectedDest.dedup := by
    refine Sorting.sort_eq_of_mem_iff lessDest_orders (fun _ _ same => same)
      (nodup_dedup _) (nodup_dedup _) fun dest => ?_
    rw [mem_dedup, mem_dedup]
    exact same (.protect dest)
  rw [FwBuilder.ruleset, FwBuilder.ruleset, accepts_eq, dests_eq,
    dedupe_sort_eq fun text => same (.skip text)]

/-- The same selector with its lists rearranged. -/
def PeerSelector.Shuffled (left right : PeerSelector) : Prop :=
  left.clusterIDs.Perm right.clusterIDs ∧ left.cidrs.Perm right.cidrs

/-- The same rule with its lists rearranged. -/
def IngressRule.Shuffled (left right : IngressRule) : Prop :=
  Shuffle PeerSelector.Shuffled left.from_ right.from_ ∧ left.ports.Perm right.ports

/-- The same policy with its lists rearranged. -/
def Policy.Shuffled (left right : Policy) : Prop :=
  left.destinations.Perm right.destinations ∧
    Shuffle IngressRule.Shuffled left.ingress right.ingress

section Shuffled

variable {clusterCIDRs clusterCIDRs' : Str → List Str}
  (clusters : ∀ id, (clusterCIDRs id).Perm (clusterCIDRs' id))

include clusters

theorem mem_resolveSources_shuffled {left right : List PeerSelector}
    (shuffled : Shuffle PeerSelector.Shuffled left right) (cidr : Str) :
    cidr ∈ resolveSources left clusterCIDRs ↔ cidr ∈ resolveSources right clusterCIDRs' := by
  rw [resolveSources, resolveSources, mem_flatMap, mem_flatMap]
  refine shuffled.exists_iff fun first second ⟨ids, cidrs⟩ => ?_
  rw [mem_append, mem_append, mem_flatMap, mem_flatMap]
  simp only [ids.mem_iff, cidrs.mem_iff, (clusters _).mem_iff]

theorem IngressRule.Shuffled.adds_iff {left right : IngressRule} (shuffled : left.Shuffled right)
    {dests dests' : List Str} (same : ∀ d, d ∈ dests ↔ d ∈ dests') (item : Item) :
    left.Adds clusterCIDRs dests item ↔ right.Adds clusterCIDRs' dests' item := by
  obtain ⟨sources, ports⟩ := shuffled
  have keys : ∀ s d key, key ∈ FwBuilder.acceptKeys s d left.ports ↔
      key ∈ FwBuilder.acceptKeys s d right.ports := by
    intro s d key
    rw [FwBuilder.acceptKeys, FwBuilder.acceptKeys]
    simp only [nil_iff_of_perm ports]
    split
    · rfl
    · exact (ports.map _).mem_iff
  simp only [Adds, Reported, mem_resolveSources_shuffled clusters sources, same, keys]

theorem Policy.Shuffled.adds_iff {left right : Policy} (shuffled : left.Shuffled right)
    (item : Item) : left.Adds clusterCIDRs item ↔ right.Adds clusterCIDRs' item := by
  obtain ⟨destinations, ingress⟩ := shuffled
  have dests : left.dests.Perm right.dests := by
    rw [Policy.dests, Policy.dests]
    simp only [nil_iff_of_perm destinations]
    split
    · rfl
    · exact destinations.filter _
  have rules := ingress.exists_iff fun first second related =>
    IngressRule.Shuffled.adds_iff clusters related (fun d => dests.mem_iff) item
  simp only [Adds, Reported, destinations.mem_iff, dests.mem_iff, ne_eq,
    nil_iff_of_perm dests, rules]

theorem buildFirewall_shuffled {left right : List Policy}
    (shuffled : Shuffle Policy.Shuffled left right) :
    buildFirewall left clusterCIDRs = buildFirewall right clusterCIDRs' := by
  refine ruleset_eq_of_has fun item => ?_
  rw [FwBuilder.has_addPolicies, FwBuilder.has_addPolicies]
  exact shuffled.exists_iff fun first second related => related.adds_iff clusters item

end Shuffled

end DatawerxMesh.Meshfw
