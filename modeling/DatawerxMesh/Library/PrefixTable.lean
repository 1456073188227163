import DatawerxMesh.Library.AddressBlock
import Mathlib.Data.Set.Function
import Mathlib.Data.List.Find
import Mathlib.Data.List.Induction

/-!
# Prefix tables

A rule renumbers the addresses of a source block into a target block of the same size.  Lookup by
the longest prefix and lookup by the first rule are compared rule by rule.
-/

namespace Addressing

variable {w : Nat}

/-- The addresses in a block. -/
def Block.addresses (block : Block w) : Set (BitVec w) := {address | block.contains address = true}

theorem Block.renumber_host (block : Block w) (address : BitVec w) :
    block.renumber address &&& ~~~mask w block.len = address &&& ~~~mask w block.len := by
  apply BitVec.eq_of_getLsbD_eq
  intro i inside
  rw [BitVec.getLsbD_and, BitVec.getLsbD_and, getLsbD_renumber, BitVec.getLsbD_not, getLsbD_mask]
  by_cases host : i < w - block.len
  · rw [if_pos host]
  · have leading : w - block.len ≤ i := Nat.le_of_not_lt host
    simp [leading]

/-- The function renumbers the addresses of each source block and leaves all others. -/
structure Translates (rules : List (Block w × Block w)) (translate : BitVec w → BitVec w) :
    Prop where
  inside : ∀ rule ∈ rules, ∀ address ∈ rule.1.addresses, translate address = rule.2.renumber address
  outside : ∀ address, (∀ rule ∈ rules, address ∉ rule.1.addresses) → translate address = address

section Translates

variable {rules : List (Block w × Block w)} {translate back : BitVec w → BitVec w}

theorem Translates.bijOn (translates : Translates rules translate) {source target : Block w}
    (mem : (source, target) ∈ rules) (same_len : source.len = target.len) :
    Set.BijOn translate source.addresses target.addresses := by
  have inside : ∀ address ∈ source.addresses, translate address = target.renumber address :=
    translates.inside (source, target) mem
  refine ⟨fun address here => ?_, fun left left_here right right_here same => ?_,
    fun image here => ?_⟩
  · rw [inside address here]
    exact target.contains_renumber address
  · rw [inside left left_here, inside right right_here] at same
    rw [← Block.renumber_renumber source target same_len left_here, same,
      Block.renumber_renumber source target same_len right_here]
  · refine ⟨source.renumber image, source.contains_renumber image, ?_⟩
    rw [inside _ (source.contains_renumber image),
      Block.renumber_renumber target source same_len.symm here]

theorem Translates.leftInvOn {others : List (Block w × Block w)}
    (there : Translates rules translate) (returns : Translates others back)
    (swapped : ∀ rule ∈ rules, rule.swap ∈ others)
    (same_len : ∀ rule ∈ rules, rule.1.len = rule.2.len) :
    Set.LeftInvOn back translate {address | ∃ rule ∈ rules, address ∈ rule.1.addresses} := by
  rintro address ⟨rule, mem, here⟩
  rw [there.inside rule mem address here, returns.inside rule.swap
    (swapped rule mem) _ (rule.2.contains_renumber address)]
  exact Block.renumber_renumber rule.1 rule.2 (same_len rule mem) here

end Translates

end Addressing

namespace PrefixTable

open Addressing List Option

variable {w : Nat} {ν : Type}

/-- A prefix: the number of leading bits and the address with all other bits zero. -/
structure Key (w : Nat) where
  len : Nat
  addr : BitVec w
  deriving DecidableEq

/-- Contents of a table. -/
abbrev Table (w : Nat) (ν : Type) := Key w → Option ν

/-- The prefix of an address with the given length. -/
def prefixOf (address : BitVec w) (len : Nat) : Key w := ⟨len, address &&& mask w len⟩

/-- Value of the longest prefix of at most the given length. -/
def lookupFrom (table : Table w ν) (address : BitVec w) : Nat → Option ν
  | 0 => table (prefixOf address 0)
  | len + 1 => (table (prefixOf address (len + 1))).or (lookupFrom table address len)

/-- Longest-prefix lookup. -/
def lookup (table : Table w ν) (address : BitVec w) : Option ν := lookupFrom table address w

/-- The table after writing entries in order, the last of them for a key being kept. -/
def writeAll (entries : List (Key w × ν)) : Table w ν :=
  entries.foldl (fun table entry => Function.update table entry.1 (some entry.2)) fun _ => none

theorem lookupFrom_eq_some {table : Table w ν} {address : BitVec w} {bound : Nat} {value : ν} :
    lookupFrom table address bound = some value ↔
      ∃ len, len ≤ bound ∧ table (prefixOf address len) = some value ∧
        ∀ longer, len < longer → longer ≤ bound → table (prefixOf address longer) = none := by
  induction bound with
  | zero =>
    constructor
    · exact fun found => ⟨0, Nat.le_refl 0, found, by omega⟩
    · rintro ⟨len, len_le, found, -⟩
      obtain rfl := Nat.le_zero.mp len_le
      exact found
  | succ bound ih =>
    rw [lookupFrom, or_eq_some_iff, ih]
    constructor
    · rintro (found | ⟨absent, len, len_le, found, none_longer⟩)
      · exact ⟨bound + 1, Nat.le_refl _, found, by omega⟩
      · refine ⟨len, by omega, found, fun longer lt le => ?_⟩
        by_cases top : longer = bound + 1
        · rw [top, absent]
        · exact none_longer longer lt (by omega)
    · rintro ⟨len, len_le, found, none_longer⟩
      by_cases top : len = bound + 1
      · exact Or.inl (top ▸ found)
      · exact Or.inr ⟨none_longer _ (by omega) (Nat.le_refl _), len, by omega, found,
          fun longer lt le => none_longer longer lt (by omega)⟩

theorem lookupFrom_eq_none {table : Table w ν} {address : BitVec w} {bound : Nat} :
    lookupFrom table address bound = none ↔
      ∀ len, len ≤ bound → table (prefixOf address len) = none := by
  induction bound with
  | zero =>
    exact ⟨fun absent len len_le => by rw [Nat.le_zero.mp len_le]; exact absent,
      fun absent => absent 0 (Nat.le_refl 0)⟩
  | succ bound ih =>
    rw [lookupFrom, or_eq_none_iff, ih]
    constructor
    · rintro ⟨absent, none_shorter⟩ len len_le
      by_cases top : len = bound + 1
      · rw [top, absent]
      · exact none_shorter len (by omega)
    · exact fun absent => ⟨absent _ (Nat.le_refl _), fun len len_le => absent len (by omega)⟩

theorem writeAll_append_singleton (entries : List (Key w × ν)) (entry : Key w × ν) :
    writeAll (entries ++ [entry]) = Function.update (writeAll entries) entry.1 (some entry.2) := by
  rw [writeAll, foldl_append]
  rfl

theorem writeAll_eq_some {entries : List (Key w × ν)} {key : Key w} {value : ν} :
    writeAll entries key = some value ↔ ∃ before after,
        entries = before ++ (key, value) :: after ∧ ∀ entry ∈ after, entry.1 ≠ key := by
  induction entries using List.reverseRecOn with
  | nil => simp [writeAll]
  | append_singleton entries last ih =>
    rw [writeAll_append_singleton]
    by_cases same : key = last.1
    · subst same
      rw [Function.update_self, Option.some.injEq]
      constructor
      · rintro rfl
        exact ⟨entries, [], rfl, by simp⟩
      · rintro ⟨before, after, split, none_after⟩
        cases after using List.reverseRecOn with
        | nil =>
          have last_eq := (append_inj' split rfl).2
          rw [singleton_inj] at last_eq
          rw [last_eq]
        | append_singleton after final =>
          rw [← cons_append, ← append_assoc] at split
          have last_eq := (append_inj' split rfl).2
          rw [singleton_inj] at last_eq
          exact absurd (congrArg Prod.fst last_eq).symm (none_after final (by simp))
    · rw [Function.update_of_ne same, ih]
      constructor
      · rintro ⟨before, after, rfl, none_after⟩
        refine ⟨before, after ++ [last], by simp, ?_⟩
        intro entry mem
        rw [mem_append, mem_singleton] at mem
        rcases mem with mem | rfl
        · exact none_after entry mem
        · exact Ne.symm same
      · rintro ⟨before, after, split, none_after⟩
        cases after using List.reverseRecOn with
        | nil =>
          have last_eq := (append_inj' split rfl).2
          rw [singleton_inj] at last_eq
          exact absurd (congrArg Prod.fst last_eq).symm same
        | append_singleton after final =>
          rw [← cons_append, ← append_assoc] at split
          exact ⟨before, after, (append_inj' split rfl).1,
            fun entry mem => none_after entry (by simp [mem])⟩

theorem writeAll_eq_none {entries : List (Key w × ν)} {key : Key w} :
    writeAll entries key = none ↔ ∀ entry ∈ entries, entry.1 ≠ key := by
  induction entries using List.reverseRecOn with
  | nil => simp [writeAll]
  | append_singleton entries last ih =>
    rw [writeAll_append_singleton]
    by_cases same : key = last.1
    · subst same
      exact iff_of_false (by simp) fun absent => absent last (by simp) rfl
    · rw [Function.update_of_ne same, ih]
      simp [or_imp, forall_and, Ne.symm same]

/-- The prefix of a block. -/
def keyOf (block : Block w) : Key w := ⟨block.len, block.base⟩

theorem keyOf_injective {left right : Block w} (same : keyOf left = keyOf right) :
    left = right := by
  cases left
  cases right
  obtain ⟨rfl, rfl⟩ := Key.mk.inj same
  rfl

theorem prefixOf_eq_keyOf_iff (block : Block w) (address : BitVec w) :
    prefixOf address block.len = keyOf block ↔ block.contains address = true := by
  rw [Key.mk.injEq, Block.contains, beq_iff_eq, block.aligned]
  exact and_iff_right rfl

/-- Image of an address under the first rule that contains it. -/
def firstMatch (rules : List (Block w × Block w)) (address : BitVec w) : Option (BitVec w) :=
  (rules.find? fun rule => rule.1.contains address).map fun rule => rule.2.renumber address

/-- No address is in the source blocks of two rules. -/
def Apart (rules : List (Block w × Block w)) : Prop :=
  ∀ left ∈ rules, ∀ right ∈ rules, ∀ address, left.1.contains address = true →
    right.1.contains address = true → left = right

variable {rules : List (Block w × Block w)}

theorem translates_firstMatch (apart : Apart rules) :
    Translates rules fun address => (firstMatch rules address).getD address := by
  constructor
  · intro rule mem address here
    have some_match : (rules.find? fun rule => rule.1.contains address).isSome := by
      rw [List.find?_isSome]
      exact ⟨rule, mem, here⟩
    obtain ⟨found, found_eq⟩ := isSome_iff_exists.mp some_match
    have found_here : found.1.contains address = true := by simpa using List.find?_some found_eq
    obtain rfl :=
      apart found (mem_of_find?_eq_some found_eq) rule mem address found_here here
    rw [firstMatch, found_eq, map_some, getD_some]
  · intro address unmatched
    rw [firstMatch, List.find?_eq_none.mpr unmatched, map_none, getD_none]

/-- No matching rule has a longer prefix. -/
def Longest (rules : List (Block w × Block w)) (address : BitVec w) (rule : Block w × Block w) :
    Prop :=
  rule ∈ rules ∧ rule.1.contains address = true ∧
    ∀ other ∈ rules, other.1.contains address = true → other.1.len ≤ rule.1.len

/-- Some address of the block lies in no longer rule. -/
def Exposed (rules : List (Block w × Block w)) (block : Block w) : Prop :=
  ∃ address, block.contains address = true ∧
    ∀ other ∈ rules, other.1.contains address = true → other.1.len ≤ block.len

/-- The first rule that contains a whole block. -/
def firstAround (rules : List (Block w × Block w)) (block : Block w) : Option (Block w × Block w) :=
  rules.find? fun rule => decide (rule.1.len ≤ block.len) && rule.1.contains block.base

theorem find?_eq_firstAround {address : BitVec w}
    {rule : Block w × Block w} (longest : Longest rules address rule) :
    (rules.find? fun other => other.1.contains address) = firstAround rules rule.1 := by
  obtain ⟨-, contains, maximal⟩ := longest
  refine List.find?_congr fun other mem => ?_
  rw [Bool.eq_iff_iff, Bool.and_eq_true, decide_eq_true_eq]
  constructor
  · intro other_contains
    have shorter := maximal other mem other_contains
    exact ⟨shorter, Block.contains_of_contains shorter other_contains contains rule.1.contains_base⟩
  · rintro ⟨shorter, contains_base⟩
    exact Block.contains_of_contains shorter contains_base rule.1.contains_base contains

/-- First match is longest match when, for every rule that is longest somewhere, the first rule
around it has the same image of its first address. -/
theorem firstMatch_eq_longest_iff
    (same_len : ∀ rule ∈ rules, rule.1.len = rule.2.len) :
    (∀ address rule, Longest rules address rule →
      firstMatch rules address = some (rule.2.renumber address)) ↔
    ∀ rule ∈ rules, Exposed rules rule.1 → ∀ first, firstAround rules rule.1 = some first →
      first.2.renumber rule.1.base = rule.2.base := by
  have agree_at : ∀ address rule first, Longest rules address rule →
      firstAround rules rule.1 = some first →
      (firstMatch rules address = some (rule.2.renumber address) ↔
        first.2.renumber rule.1.base = rule.2.base) := by
    intro address rule first longest around
    have first_mem := mem_of_find?_eq_some around
    have first_covers := List.find?_some around
    rw [Bool.and_eq_true, decide_eq_true_eq] at first_covers
    have shorter : first.2.len ≤ rule.2.len := by
      rw [← same_len first first_mem, ← same_len rule longest.1]
      exact first_covers.1
    rw [firstMatch, find?_eq_firstAround longest, around, map_some, Option.some.injEq]
    exact Block.renumber_eq_iff shorter (same_len rule longest.1).symm longest.2.1
  constructor
  · rintro agree rule mem ⟨address, contains, maximal⟩ first around
    have longest : Longest rules address rule := ⟨mem, contains, maximal⟩
    exact (agree_at address rule first longest around).mp (agree address rule longest)
  · intro images address rule longest
    have covered : (firstAround rules rule.1).isSome := by
      rw [firstAround, List.find?_isSome]
      exact ⟨rule, longest.1, by simp [rule.1.contains_base]⟩
    obtain ⟨first, around⟩ := isSome_iff_exists.mp covered
    exact (agree_at address rule first longest around).mpr
      (images rule longest.1 ⟨address, longest.2.1, longest.2.2⟩ first around)

end PrefixTable
