import DatawerxMesh.Go.ColonText
import DatawerxMesh.NatPlane.Ruleset

/-!
# Address operands of the planned rules

The planner tells the families of addresses apart by a colon in their text, which is right for
address literals.
-/

namespace DatawerxMesh.NatPlane

open Go Addressing List

variable {text : Str}

theorem parseIP_eq_some {ip : IP} :
    parseIP text = some ip ↔
      (∃ address, parseAddr text = some (.v4 address) ∧ ip = .sixteen (mapped address)) ∨
        ∃ address, parseAddr text = some (.v6 address []) ∧ ip = .sixteen address := by
  unfold parseIP
  split
  case h_1 address addr_eq => simp [addr_eq, eq_comm]
  case h_2 address addr_eq => simp [addr_eq, eq_comm]
  case h_3 no_v4 no_v6 =>
    simp only [reduceCtorEq, false_iff, not_or, not_exists, not_and]
    exact ⟨fun address addr_eq => absurd addr_eq (no_v4 address),
      fun address addr_eq => absurd addr_eq (no_v6 address)⟩

theorem isIPv6_of_v4 {address : BitVec 32}
    (parsed : parseAddr text = some (.v4 address)) : isIPv6 text = false := by
  rw [isIPv6, containsByte, any_eq_false]
  intro byte mem colon
  obtain rfl : byte = 58 := by simpa using colon
  rcases parseAddr_v4_bytes parsed _ mem with digit | dot
  · cases digit
  · cases dot

theorem isIPv6_of_v6 {address : BitVec 128} {zone : Str}
    (parsed : parseAddr text = some (.v6 address zone)) : isIPv6 text = true := by
  rw [isIPv6, containsByte, any_eq_true]
  exact ⟨58, parseAddr_v6_colon parsed, rfl⟩

theorem parseNet_hostCIDR_of_v4 {address : BitVec 32}
    (parsed : parseAddr text = some (.v4 address)) :
    parseNet (hostCIDR text) = some (.four (Block.around address 32 le_rfl)) := by
  have no_slash : (47 : UInt8) ∉ text := fun mem => by
    rcases parseAddr_v4_bytes parsed _ mem with digit | dot
    · cases digit
    · cases dot
  have length : dtoi "32" = some (32, []) := by decide
  have slash : hostCIDR text = text ++ 47 :: "32" := by
    rw [hostCIDR, isIPv6_of_v4 parsed]
    rfl
  rw [parseNet, parseCIDR, slash, cut_append 47 _ _ no_slash]
  simp [parsed, length]

theorem parseNet_hostCIDR_of_v6 {address : BitVec 128}
    (parsed : parseAddr text = some (.v6 address [])) :
    parseNet (hostCIDR text) = some (.sixteen (Block.around address 128 le_rfl)) := by
  have no_slash : (47 : UInt8) ∉ text := fun mem => by
    cases parseAddr_v6_bytes parsed _ mem
  have length : dtoi "128" = some (128, []) := by decide
  have slash : hostCIDR text = text ++ 47 :: "128" := by
    rw [hostCIDR, isIPv6_of_v6 parsed]
    rfl
  rw [parseNet, parseCIDR, slash, cut_append 47 _ _ no_slash]
  simp [parsed, length]

theorem append_cons_inj {separator : UInt8} {before before' after after' : Str}
    (absent : separator ∉ after) (absent' : separator ∉ after')
    (same : before ++ separator :: after = before' ++ separator :: after') :
    before = before' ∧ after = after' := by
  have read : ∀ {front back : Str}, separator ∉ back →
      cut separator (front ++ separator :: back).reverse = some (back.reverse, front.reverse) := by
    intro front back none
    rw [reverse_append, reverse_cons, append_assoc]
    exact cut_append separator _ _ fun mem => none (mem_reverse.mp mem)
  have both := (read absent).symm.trans
    ((congrArg (fun text => cut separator text.reverse) same).trans (read absent'))
  simpa [and_comm] using both

theorem parseIP_of_parseNet_hostCIDR {net : IPNet}
    (parsed : parseNet (hostCIDR text) = some net) : ∃ ip, parseIP text = some ip := by
  obtain ⟨mask, mask_digits, slash⟩ : ∃ mask, (47 : UInt8) ∉ mask ∧
      hostCIDR text = text ++ 47 :: mask := by
    rw [hostCIDR]
    split
    · exact ⟨"128", by decide, rfl⟩
    · exact ⟨"32", by decide, rfl⟩
  obtain ⟨addrText, maskText, len, parts, mask_eq, either⟩ := parts_of_parseNet parsed
  have digits : (47 : UInt8) ∉ maskText := fun mem => by cases dtoi_bytes mask_eq _ mem
  obtain ⟨rfl, -⟩ := append_cons_inj mask_digits digits (slash.symm.trans parts)
  rcases either with ⟨address, -, addr_eq, -⟩ | ⟨address, -, addr_eq, -⟩
  · exact ⟨_, parseIP_eq_some.mpr (Or.inl ⟨address, addr_eq, rfl⟩)⟩
  · exact ⟨_, parseIP_eq_some.mpr (Or.inr ⟨address, addr_eq, rfl⟩)⟩

/-- The host of a target. -/
def targetHost (ip : Str) : Str := if isIPv6 ip then "[" ++ ip ++ "]" else ip

theorem dnatTarget_eq (ip port : Str) : dnatTarget ip port = targetHost ip ++ 58 :: port := by
  rw [dnatTarget, targetHost]
  split
  · simp only [append_assoc]
    rfl
  · rw [append_assoc]
    rfl

theorem targetHost_injective {ip ip' : Str} (same : targetHost ip = targetHost ip') :
    ip = ip' := by
  have bracketed : ∀ {text : Str}, isIPv6 text = true →
      isIPv6 ("[" ++ text ++ "]") = true := by
    intro text colon
    rw [isIPv6, containsByte] at colon ⊢
    simp [colon]
  unfold targetHost at same
  split at same
  case isTrue colon =>
    split at same
    case isTrue => exact append_cancel_left (append_cancel_right same)
    case isFalse plain =>
      rw [← same] at plain
      exact absurd (bracketed colon) plain
  case isFalse plain =>
    split at same
    case isTrue colon =>
      rw [same] at plain
      exact absurd (bracketed colon) plain
    case isFalse => exact same

theorem dnatTarget_injective {ip ip' : Str} {port port' : Int}
    (same : dnatTarget ip (itoaInt port) = dnatTarget ip' (itoaInt port')) :
    ip = ip' ∧ port = port' := by
  have no_colon (number : Int) : (58 : UInt8) ∉ itoaInt number := fun mem => by
    rcases mem_itoaInt mem with digit | sign
    · cases digit
    · cases sign
  rw [dnatTarget_eq, dnatTarget_eq] at same
  obtain ⟨hosts, ports⟩ := append_cons_inj (no_colon port) (no_colon port') same
  exact ⟨targetHost_injective hosts, itoaInt_injective ports⟩

/-- An address range that the table of a family reads. -/
def MatchOfFamily : Bool → Str → Prop
  | false, text => ∃ block, parseNet text = some (.four block)
  | true, text => ∃ block, parseNet text = some (.sixteen block)

/-- A target that the table of a family reads. -/
def TargetOfFamily : Bool → Str → Prop
  | false, text => ∃ host port address, text = host ++ ":" ++ port ∧
      parseAddr host = some (.v4 address)
  | true, text => ∃ host port address, text = "[" ++ host ++ "]:" ++ port ∧
      parseAddr host = some (.v6 address [])

/-- The options of an argument list with their operands. -/
def optionsOf : List Str → List (Str × Str)
  | flag :: operand :: rest => (flag, operand) :: optionsOf rest
  | _ => []

theorem exists_mem_balance (svcChain : Str) {sep : Str} {seps : List Str} (mem : sep ∈ seps) :
    ∃ rule ∈ Expansion.balance svcChain seps,
      rule.chain = svcChain ∧ (str "-j", sep) ∈ optionsOf rule.args := by
  induction seps with
  | nil => cases mem
  | cons first rest ih =>
    cases rest with
    | nil =>
      obtain rfl := mem_singleton.mp mem
      exact ⟨_, mem_singleton_self _, rfl, mem_singleton_self _⟩
    | cons second rest =>
      rw [Expansion.balance]
      · rcases mem_cons.mp mem with rfl | later
        · exact ⟨_, mem_cons_self, rfl, by simp [optionsOf]⟩
        · obtain ⟨rule, in_rest, shape⟩ := ih later
          exact ⟨rule, mem_cons_of_mem _ in_rest, shape⟩
      · exact fun empty => by cases empty

/-- The address operands of a rule are of the family of the table. -/
def Rule.OfFamily (six : Bool) (rule : Rule) : Prop :=
  ∀ option ∈ optionsOf rule.args,
    (option.1 = "-d" → MatchOfFamily six option.2) ∧
    (option.1 = "--to-destination" → TargetOfFamily six option.2)

theorem matchOfFamily_hostCIDR {vip : Str} :
    MatchOfFamily (isIPv6 vip) (hostCIDR vip) ↔ ∃ ip, parseIP vip = some ip := by
  constructor
  · intro read
    cases six : isIPv6 vip <;> rw [six] at read
    · obtain ⟨block, parsed⟩ := read
      exact parseIP_of_parseNet_hostCIDR parsed
    · obtain ⟨block, parsed⟩ := read
      exact parseIP_of_parseNet_hostCIDR parsed
  · rintro ⟨ip, parsed⟩
    rcases parseIP_eq_some.mp parsed with ⟨address, addr_eq, -⟩ | ⟨address, addr_eq, -⟩
    · rw [isIPv6_of_v4 addr_eq]
      exact ⟨_, parseNet_hostCIDR_of_v4 addr_eq⟩
    · rw [isIPv6_of_v6 addr_eq]
      exact ⟨_, parseNet_hostCIDR_of_v6 addr_eq⟩

theorem bracket_ne_of_v4 {host rest : Str} {address : BitVec 32}
    (parsed : parseAddr host = some (.v4 address)) : host ≠ 91 :: rest := by
  rintro rfl
  rcases parseAddr_v4_bytes parsed _ mem_cons_self with digit | dot
  · cases digit
  · cases dot

theorem targetOfFamily_dnatTarget {six : Bool} {ip port : Str} {parsed : IP}
    (literal : parseIP ip = some parsed) :
    TargetOfFamily six (dnatTarget ip port) ↔ isIPv6 ip = six := by
  rcases parseIP_eq_some.mp literal with ⟨address, addr_eq, -⟩ | ⟨address, addr_eq, -⟩
  · have plain := isIPv6_of_v4 addr_eq
    have target : dnatTarget ip port = ip ++ ":" ++ port := by simp [dnatTarget, plain]
    rw [plain, target]
    cases six
    · exact iff_of_true ⟨ip, port, address, rfl, addr_eq⟩ rfl
    · refine iff_of_false ?_ (by simp)
      rintro ⟨host, port', address', same, -⟩
      cases ip with
      | nil => cases addr_eq
      | cons byte rest =>
        have bracket : byte = 91 := (List.cons.inj same).1
        exact bracket_ne_of_v4 addr_eq (by rw [bracket])
  · have colon := isIPv6_of_v6 addr_eq
    have target : dnatTarget ip port = "[" ++ ip ++ "]:" ++ port := by
      simp [dnatTarget, colon]
    rw [colon, target]
    cases six
    · refine iff_of_false ?_ (by simp)
      rintro ⟨host, port', address', same, host_eq⟩
      cases host with
      | nil => cases host_eq
      | cons byte rest =>
        have bracket : 91 = byte := (List.cons.inj same).1
        exact bracket_ne_of_v4 host_eq (by rw [← bracket])
    · exact iff_of_true ⟨ip, port, address, rfl, addr_eq⟩ rfl

theorem Expansion.ofFamily_rules {six : Bool} {x : Expansion} :
    (∀ rule ∈ x.rules, rule.OfFamily six) ↔
      MatchOfFamily six (hostCIDR x.service.vip) ∧
        ∀ backend ∈ x.backends, TargetOfFamily six (dnatTarget backend x.portStr) := by
  have root : x.rootRule.OfFamily six ↔ MatchOfFamily six (hostCIDR x.service.vip) := by
    simp +decide [Rule.OfFamily, Expansion.rootRule, optionsOf]
  have balanced : ∀ rule ∈ balance x.svcChain (x.backends.map x.sepChain), rule.OfFamily six := by
    intro rule mem
    obtain ⟨-, sep, -, shape | ⟨probability, shape⟩⟩ := mem_balance mem
    · simp +decide [Rule.OfFamily, shape, optionsOf]
    · simp +decide [Rule.OfFamily, shape, optionsOf]
  have rewriting (backend : Str) : (x.dnatRule backend).OfFamily six ↔
      TargetOfFamily six (dnatTarget backend x.portStr) := by
    simp +decide [Rule.OfFamily, Expansion.dnatRule, optionsOf]
  rw [Expansion.rules, forall_mem_cons, forall_mem_append, forall_mem_map, root]
  simp only [rewriting]
  exact and_congr_right fun _ => and_iff_right balanced

end DatawerxMesh.NatPlane
