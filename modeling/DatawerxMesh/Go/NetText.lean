import DatawerxMesh.Go.Net

/-!
# Networks and their text

Rendering an IPv4 block and parsing the text gives the block back.  Only colon text has a colon.
-/

namespace Go

open Addressing List Option

variable {text : Str} {octet : Nat} {fields : List Nat} {byte : UInt8} {low : BitVec 32}
  (block : Block 32)

/-- Canonical text of an IPv4 block. -/
def blockText : Str := dotted block.base ++ 47 :: itoa block.len

/-- The IPv4 addresses of a network, as `IPNet.Contains` sees them. -/
def IPNet.block4 (net : IPNet) : Option (Block 32) :=
  match net.number with
  | .inl block => some block
  | .inr _ => none

/-- The 128-bit addresses of a network, with IPv4 addresses in their mapped form. -/
def IPNet.holds (net : IPNet) (address : BitVec 128) : Prop :=
  match net with
  | .four block => ∃ low, address = mapped low ∧ block.contains low = true
  | .sixteen block => block.contains address = true

theorem cut_append (separator : UInt8) (before after : Str) (absent : separator ∉ before) :
    cut separator (before ++ separator :: after) = some (before, after) := by
  induction before with
  | nil => simp [cut]
  | cons byte before ih =>
    simp only [mem_cons, not_or] at absent
    rw [cons_append, cut, if_neg (Ne.symm absent.1), ih absent.2]
    rfl

theorem eq_of_cut {separator : UInt8} {before after : Str}
    (found : cut separator text = some (before, after)) : text = before ++ separator :: after := by
  induction text generalizing before with
  | nil => simp [cut] at found
  | cons byte rest ih =>
    rw [cut] at found
    split at found
    · rename_i same
      obtain ⟨rfl, rfl⟩ := found
      rw [same]
      rfl
    · rw [map_eq_some_iff] at found
      obtain ⟨⟨front, back⟩, inner, pair⟩ := found
      obtain ⟨rfl, rfl⟩ := pair
      rw [ih inner]
      rfl

theorem itoaInt_slash_injective {left right : Int} {left_rest right_rest : Str}
    (same : itoaInt left ++ "/" ++ left_rest = itoaInt right ++ "/" ++ right_rest) :
    left = right ∧ left_rest = right_rest := by
  have parts (number : Int) (rest : Str) :
      cut 47 (itoaInt number ++ "/" ++ rest) = some (itoaInt number, rest) := by
    rw [append_assoc]
    refine cut_append 47 _ _ fun mem => ?_
    rcases mem_itoaInt mem with digit | sign
    · cases digit
    · cases sign
  have both := (parts left left_rest).symm.trans ((congrArg (cut 47) same).trans (parts _ _))
  obtain ⟨number_eq, rest_eq⟩ := Prod.mk.inj (Option.some.inj both)
  exact ⟨itoaInt_injective number_eq, rest_eq⟩

theorem parseIPv4Fields_itoa (small : octet < 256) (fields : List Nat) (rest : Str) :
    parseIPv4Fields fields 0 0 (itoa octet ++ rest) =
      parseIPv4Fields fields octet (itoa octet).length rest := by
  induction octet using Nat.strongRecOn generalizing rest with
  | ind octet ih =>
    by_cases one : octet < 10
    · rw [itoa_of_lt one, singleton_append, parseIPv4Fields, if_pos (isDigit_digit one),
        if_neg (by omega)]
      simp only [digitValue_digit one, Nat.zero_mul, Nat.zero_add, length_singleton]
      rw [if_neg (by omega)]
    · have last_lt : octet % 10 < 10 := Nat.mod_lt _ (by decide)
      rw [itoa_of_ge (by omega), append_assoc, ih (octet / 10) (by omega) (by omega),
        singleton_append, parseIPv4Fields, if_pos (isDigit_digit last_lt),
        if_neg (by omega)]
      have rebuilt : octet / 10 * 10 + octet % 10 = octet := by omega
      simp only [digitValue_digit last_lt, rebuilt, length_append, length_singleton]
      rw [if_neg (by omega)]

theorem parseIPv4Fields_dot (room : fields.length < 3) {rest : Str} :
    parseIPv4Fields fields octet (itoa octet).length (46 :: byte :: rest) =
      parseIPv4Fields (fields ++ [octet]) 0 0 (byte :: rest) := by
  have nonempty : (itoa octet).length ≠ 0 := by
    simpa using itoa_ne_nil octet
  rw [parseIPv4Fields, if_neg (by decide), if_pos rfl, if_neg (by simpa using nonempty),
    if_neg (by omega)]

theorem parseIPv4Fields_octet (small : octet < 256) (room : fields.length < 3) (next : Nat)
    (rest : Str) :
    parseIPv4Fields fields 0 0 (itoa octet ++ (46 :: (itoa next ++ rest))) =
      parseIPv4Fields (fields ++ [octet]) 0 0 (itoa next ++ rest) := by
  rw [parseIPv4Fields_itoa small]
  cases rendered : itoa next with
  | nil => exact absurd rendered (itoa_ne_nil next)
  | cons byte tail => exact parseIPv4Fields_dot room

theorem parseIPv4Fields_four {a b c d : Nat} (ha : a < 256) (hb : b < 256) (hc : c < 256)
    (hd : d < 256) :
    parseIPv4Fields [] 0 0 (join [46] ([a, b, c, d].map itoa)) = some [a, b, c, d] := by
  have text : join [46] ([a, b, c, d].map itoa) =
      itoa a ++ (46 :: (itoa b ++ (46 :: (itoa c ++ (46 :: (itoa d ++ [])))))) := by
    simp [join]
  rw [text, parseIPv4Fields_octet ha (by simp), parseIPv4Fields_octet hb (by simp),
    parseIPv4Fields_octet hc (by simp), parseIPv4Fields_itoa hd]
  rfl

variable (address : BitVec 32)

theorem ofOctets_octets : ofOctets (octets address) = address := by
  apply BitVec.eq_of_toNat_eq
  simp only [ofOctets, octets, foldl_cons, foldl_nil, BitVec.toNat_ofNat]
  omega

theorem parseIPv4_dotted :
    parseIPv4 (dotted address) = some (.v4 address) := by
  rw [parseIPv4, dotted, octets, parseIPv4Fields_four (Nat.mod_lt _ (by decide)) (Nat.mod_lt _ (by
    decide)) (Nat.mod_lt _ (by decide)) (Nat.mod_lt _ (by decide))]
  exact congrArg (fun x => some (Addr.v4 x)) (ofOctets_octets address)

theorem mem_dotted {address : BitVec 32} (mem : byte ∈ dotted address) :
    isDigit byte = true ∨ byte = 46 := by
  simp only [dotted, octets, map_cons, join, append_assoc, mem_append, mem_singleton] at mem
  rcases mem with h | h | h | h | h | h | h
  all_goals first | exact Or.inr h | exact Or.inl (isDigit_of_mem_itoa h)

theorem not_mem_dotted (not_digit : isDigit byte = false)
    (not_dot : byte ≠ 46) : byte ∉ dotted address := by
  intro mem
  rcases mem_dotted mem with is_digit | is_dot
  · rw [not_digit] at is_digit
    cases is_digit
  · exact not_dot is_dot

theorem find_special_digits (digits rest : Str) (all : ∀ byte ∈ digits, isDigit byte = true) :
    (digits ++ 46 :: rest).find? (fun byte => byte == 46 || byte == 58 || byte == 37) =
      some 46 := by
  induction digits with
  | nil => rfl
  | cons byte digits ih =>
    have is_digit := all byte mem_cons_self
    have ordinary : (byte == 46 || byte == 58 || byte == 37) = false := by
      by_contra special
      simp only [Bool.not_eq_false, Bool.or_eq_true, beq_iff_eq] at special
      rcases special with (rfl | rfl) | rfl <;> cases is_digit
    rw [cons_append, List.find?_cons_of_neg (by simp [ordinary])]
    exact ih fun other mem => all other (mem_cons_of_mem _ mem)

theorem parseAddr_dotted :
    parseAddr (dotted address) = some (.v4 address) := by
  have special : (dotted address).find? (fun byte => byte == 46 || byte == 58 || byte == 37) =
      some 46 := by
    simp only [dotted, octets, map_cons, join, append_assoc]
    exact find_special_digits _ _ fun byte mem => isDigit_of_mem_itoa mem
  rw [parseAddr, special]
  exact parseIPv4_dotted address

theorem parseNet_dotted {len : Nat} (fits : len ≤ 32) :
    parseNet (dotted address ++ 47 :: itoa len) =
      some (.four (Block.around address len fits)) := by
  rw [parseNet, parseCIDR, cut_append 47 _ _ (not_mem_dotted address rfl (by decide))]
  simp only [parseAddr_dotted, dtoi_itoa (show len < 0xFFFFFF by omega), dif_pos fits, map_some]

theorem parseNet_dotted_long {len : Nat} (long : 32 < len)
    (short : len ≤ 128) : parseNet (dotted address ++ 47 :: itoa len) = none := by
  rw [parseNet, parseCIDR, cut_append 47 _ _ (not_mem_dotted address rfl (by decide))]
  simp only [parseAddr_dotted, dtoi_itoa (show len < 0xFFFFFF by omega),
    dif_neg (show ¬ len ≤ 32 by omega), map_none]

@[simp] theorem parseNet_blockText :
    parseNet (blockText block) = some (.four block) := by
  rw [blockText, parseNet_dotted block.base block.len_le, Block.around_base]

theorem blockText_injective {left right : Block 32} (same : blockText left = blockText right) :
    left = right := by
  have parsed := congrArg parseNet same
  rw [parseNet_blockText, parseNet_blockText] at parsed
  exact IPNet.four.inj (Option.some.inj parsed)

theorem getLsbD_mapped (i : Nat) :
    (mapped address).getLsbD i =
      if i < 32 then address.getLsbD i else (0xffff#96).getLsbD (i - 32) :=
  BitVec.getLsbD_append

theorem unmap_mapped : unmap (mapped address) = some address := by
  have high : (mapped address).extractLsb' 32 96 = 0xffff#96 := by
    apply BitVec.eq_of_getLsbD_eq
    intro i inside
    rw [BitVec.getLsbD_extractLsb', getLsbD_mapped]
    simp [inside]
  have low : (mapped address).extractLsb' 0 32 = address := by
    apply BitVec.eq_of_getLsbD_eq
    intro i inside
    rw [BitVec.getLsbD_extractLsb', getLsbD_mapped]
    simp [inside]
  rw [unmap, if_pos high, low]

theorem getLsbD_of_unmap {address : BitVec 128} (four : unmap address = some low) (i : Nat) :
    low.getLsbD i = (decide (i < 32) && address.getLsbD i) := by
  rw [unmap] at four
  split at four
  · rw [← Option.some.inj four, BitVec.getLsbD_extractLsb', Nat.zero_add]
  · cases four

theorem eq_mapped_of_unmap {address : BitVec 128} (four : unmap address = some low) :
    address = mapped low := by
  rw [unmap] at four
  split at four
  · rename_i high
    obtain rfl := Option.some.inj four
    rw [mapped, ← high]
    apply BitVec.eq_of_getLsbD_eq
    intro i inside
    rw [BitVec.getLsbD_append]
    by_cases low_bit : i < 32
    · simp [low_bit]
    · have high_bit : i - 32 < 96 := by omega
      simp [low_bit, high_bit, show 32 + (i - 32) = i by omega]
  · cases four

theorem len_of_unmap {block : Block 128} (four : unmap block.base = some low) : 96 ≤ block.len := by
  by_contra short
  have masked := block.base_getLsbD (i := 32) (by omega)
  rw [unmap] at four
  split at four
  · rename_i high
    have bit := congrArg (fun x => BitVec.getLsbD x 0) high
    simp only [BitVec.getLsbD_extractLsb', masked] at bit
    revert bit
    decide
  · cases four

theorem mappedBlock_base {block : Block 128} (four : unmap block.base = some low) :
    (mappedBlock block low).base = low := by
  have bound := block.len_le
  change low &&& mask 32 (min (block.len - 96) 32) = low
  apply BitVec.eq_of_getLsbD_eq
  intro i inside
  rw [BitVec.getLsbD_and, getLsbD_mask, min_eq_left (by omega : block.len - 96 ≤ 32)]
  by_cases leading : 32 - (block.len - 96) ≤ i
  · simp [inside, leading]
  · have zero : low.getLsbD i = false := by
      rw [getLsbD_of_unmap four, block.base_getLsbD (by omega), Bool.and_false]
    rw [zero, Bool.false_and]

namespace IPNet

variable {net : IPNet}

@[simp] theorem block4_four : (four block).block4 = some block := rfl

theorem number_eq_inl {block : Block 32} : net.number = .inl block ↔ net.block4 = some block := by
  unfold block4
  split <;> simp_all

theorem to4_ip (net : IPNet) : net.ip.to4 = net.block4.map Block.base := by
  cases net with
  | four block => rfl
  | sixteen block =>
    change unmap block.base = _
    cases view : unmap block.base with
    | none => simp [block4, number, view]
    | some low => simp [block4, number, view, mappedBlock_base view]

theorem contains_four (net : IPNet) (address : BitVec 32) :
    net.contains (.four address) = true ↔
      ∃ block, net.block4 = some block ∧ block.contains address = true := by
  unfold contains block4
  cases net.number <;> simp [IP.to4]

theorem holds_mapped {block : Block 32} (view : net.block4 = some block) {address : BitVec 32}
    (contains : block.contains address = true) : net.holds (mapped address) := by
  cases net with
  | four own =>
    obtain rfl := Option.some.inj view
    exact ⟨address, rfl, contains⟩
  | sixteen own =>
    rw [← number_eq_inl, number] at view
    split at view
    · rename_i low low_eq
      obtain rfl := Sum.inl.inj view
      change own.contains (mapped address) = true
      rw [Block.contains_iff, mappedBlock_base low_eq] at contains
      rw [Block.contains_iff, eq_mapped_of_unmap low_eq]
      intro i leading
      rw [getLsbD_mapped, getLsbD_mapped]
      split
      · refine contains i ?_
        change 32 - min (own.len - 96) 32 ≤ i
        omega
      · rfl
    · cases view

theorem to4_of_contains {text : Str} {ip : IP} (parsed : parseCIDR text = some (ip, net))
    {address : BitVec 32} (contains : net.contains (.four address) = true) : ip.to4.isSome := by
  rw [parseCIDR] at parsed
  split at parsed
  · cases parsed
  · split at parsed
    · split at parsed
      · simp only [Option.some.injEq, Prod.mk.injEq] at parsed
        rw [← parsed.1, IP.to4, unmap_mapped]
        rfl
      · cases parsed
    · rename_i whole len _ _
      split at parsed
      · obtain ⟨rfl, rfl⟩ := parsed
        obtain ⟨block, view, -⟩ := (contains_four _ _).mp contains
        rw [← number_eq_inl, number] at view
        split at view
        · rename_i low low_eq
          have long : 96 ≤ len := len_of_unmap low_eq
          have high : ∀ i, 32 ≤ i → whole.getLsbD i = (mapped low).getLsbD i := by
            intro i leading
            rw [← eq_mapped_of_unmap low_eq]
            change whole.getLsbD i = (whole &&& mask 128 len).getLsbD i
            rw [BitVec.getLsbD_and, getLsbD_mask]
            by_cases inside : i < 128
            · simp [inside, show 128 - len ≤ i by omega]
            · rw [BitVec.getLsbD_of_ge _ _ (by omega), Bool.false_and]
          have whole_high : whole.extractLsb' 32 96 = 0xffff#96 := by
            apply BitVec.eq_of_getLsbD_eq
            intro i inside
            rw [BitVec.getLsbD_extractLsb', high _ (by omega), getLsbD_mapped]
            simp [inside]
          rw [IP.to4, unmap, if_pos whole_high]
          rfl
        · cases view
      · cases parsed
    · cases parsed

theorem contains_ip_of_block4 {left right : IPNet} {leftBlock rightBlock : Block 32}
    (left_view : left.block4 = some leftBlock) (right_view : right.block4 = some rightBlock) :
    left.contains right.ip = leftBlock.contains rightBlock.base := by
  have base : right.ip.to4 = some rightBlock.base := by
    rw [to4_ip, right_view]
    rfl
  unfold contains
  rw [number_eq_inl.mpr left_view, base]

theorem contains_ip_of_mixed {left right : IPNet}
    (mixed : left.block4.isSome ≠ right.block4.isSome) : left.contains right.ip = false := by
  have base := to4_ip right
  unfold contains
  unfold block4 at mixed
  cases view : right.block4 with
  | none =>
    rw [view] at base
    rw [base]
    unfold block4 at view
    cases number : left.number with
    | inl block => rfl
    | inr block =>
      rw [number] at mixed
      cases other : right.number with
      | inl _ => rw [other] at view; cases view
      | inr _ => rw [other] at mixed; exact absurd rfl mixed
  | some block =>
    rw [view] at base
    rw [base]
    unfold block4 at view
    cases number : left.number with
    | inr block => rfl
    | inl block =>
      rw [number] at mixed
      cases other : right.number with
      | inr _ => rw [other] at view; cases view
      | inl _ => rw [other] at mixed; exact absurd rfl mixed

theorem string_of_block4 {block : Block 32} (view : net.block4 = some block) :
    net.string = blockText block := by
  rw [string, number_eq_inl.mpr view]
  rfl

end IPNet

theorem digit_digitValue : ∀ byte : UInt8, isDigit byte = true →
    digit (digitValue byte) = byte ∧ digitValue byte < 10 :=
  forall_byte (fun byte => isDigit byte = true →
    digit (digitValue byte) = byte ∧ digitValue byte < 10) (by decide +kernel)

/-- The fields of a dotted text render to it, the digits already read in front. -/
theorem parseIPv4Fields_eq {result : List Nat} {value digits : Nat}
    (parsed : parseIPv4Fields fields value digits text = some result)
    (room : fields.length ≤ 3) (started : digits = 0 → value = 0 ∧ (text = [] → fields = []))
    (short : value = 0 → digits ≤ 1) (small : value < 256) :
    result.length = 4 ∧ ∃ last more, result = fields ++ last :: more ∧
      (if digits = 0 then [] else itoa value) ++ text = join [46] ((last :: more).map itoa) ∧
      ∀ octet ∈ last :: more, octet < 256 := by
  induction text generalizing fields value digits with
  | nil =>
    rw [parseIPv4Fields] at parsed
    split at parsed
    · cases parsed
    · rename_i full
      obtain rfl := Option.some.inj parsed
      have some_digit : digits ≠ 0 := fun none => full (by simp [(started none).2 rfl])
      exact ⟨by simp; omega, value, [], rfl, by simp [some_digit, join], by simpa using small⟩
  | cons byte rest ih =>
    rw [parseIPv4Fields] at parsed
    split at parsed
    · rename_i is_digit
      obtain ⟨digit_eq, below⟩ := digit_digitValue byte is_digit
      split at parsed
      · cases parsed
      · rename_i no_zero
        dsimp only at parsed
        split at parsed
        · cases parsed
        · obtain ⟨four, last, more, result_eq, text_eq, bounded⟩ :=
            ih parsed room (by omega) (by omega) (by omega)
          refine ⟨four, last, more, result_eq, ?_, bounded⟩
          rw [← text_eq, if_neg (Nat.succ_ne_zero digits), ← singleton_append, ← append_assoc]
          congr 1
          by_cases first : digits = 0
          · rw [if_pos first, (started first).1, Nat.zero_mul, Nat.zero_add, itoa_of_lt below,
              digit_eq, nil_append]
          · rw [if_neg first, itoa_of_ge (n := value * 10 + digitValue byte) (by omega),
              show (value * 10 + digitValue byte) / 10 = value by omega,
              show (value * 10 + digitValue byte) % 10 = digitValue byte by omega, digit_eq]
    · split at parsed
      · rename_i is_dot
        split at parsed
        · cases parsed
        · rename_i more_text
          rw [not_or] at more_text
          split at parsed
          · cases parsed
          · obtain ⟨four, last, more, result_eq, text_eq, bounded⟩ := ih parsed
              (by rw [length_append, length_singleton]; omega)
              (fun _ => ⟨rfl, fun none => absurd none more_text.2⟩) (by omega) (by omega)
            refine ⟨four, value, last :: more, by simp [result_eq], ?_, ?_⟩
            · rw [if_pos rfl, nil_append] at text_eq
              rw [if_neg more_text.1, is_dot, text_eq]
              simp [join]
            · exact forall_mem_cons.mpr ⟨small, bounded⟩
      · cases parsed

theorem dotted_of_parseIPv4Fields {result : List Nat}
    (parsed : parseIPv4Fields [] 0 0 text = some result) : text = dotted (ofOctets result) := by
  obtain ⟨four, last, more, rfl, text_eq, bounded⟩ :=
    parseIPv4Fields_eq parsed (by simp) (by simp) (by simp) (by simp)
  obtain ⟨b, c, d, rfl⟩ := length_eq_three.mp (show more.length = 3 by simpa using four)
  simp only [mem_cons, not_mem_nil, or_false, forall_eq_or_imp, forall_eq] at bounded
  have same : octets (ofOctets [last, b, c, d]) = [last, b, c, d] := by
    simp only [octets, ofOctets, foldl_cons, foldl_nil, BitVec.toNat_ofNat,
      List.cons.injEq, and_true]
    omega
  rw [nil_append, dotted, same, ← text_eq, if_pos rfl, nil_append]

theorem dtoiLoop_bytes {value result : Nat} (parsed : dtoiLoop value text = some (result, [])) :
    ∀ byte ∈ text, isDigit byte = true := by
  induction text generalizing value with
  | nil => simp
  | cons byte rest ih =>
    intro other mem
    rw [mem_cons] at mem
    rw [dtoiLoop] at parsed
    split at parsed
    · rename_i is_digit
      simp only at parsed
      split at parsed
      · cases parsed
      · rcases mem with rfl | later
        · exact is_digit
        · exact ih parsed other later
    · simp at parsed

theorem dtoiLoop_eq {value result : Nat} (parsed : dtoiLoop value text = some (result, [])) :
    result = text.foldl (fun value byte => value * 10 + digitValue byte) value := by
  induction text generalizing value with
  | nil => exact (Prod.mk.inj (Option.some.inj parsed)).1.symm
  | cons byte rest ih =>
    rw [dtoiLoop] at parsed
    split at parsed
    · dsimp only at parsed
      split at parsed
      · cases parsed
      · exact ih parsed
    · cases parsed

theorem dtoi_bytes {result : Nat} (parsed : dtoi text = some (result, [])) :
    ∀ byte ∈ text, isDigit byte = true := by
  cases text with
  | nil => simp
  | cons byte rest =>
    rw [dtoi] at parsed
    split at parsed
    · exact dtoiLoop_bytes parsed
    · cases parsed

theorem parts_of_parseNet {net : IPNet} (parsed : parseNet text = some net) :
    ∃ addrText maskText len, text = addrText ++ 47 :: maskText ∧ dtoi maskText = some (len, []) ∧
      ((∃ address fits, parseAddr addrText = some (.v4 address) ∧
          net = .four (Block.around address len fits)) ∨
        (∃ address fits, parseAddr addrText = some (.v6 address []) ∧
          net = .sixteen (Block.around address len fits))) := by
  rw [parseNet, map_eq_some_iff] at parsed
  obtain ⟨⟨ip, _⟩, parsed, rfl⟩ := parsed
  rw [parseCIDR] at parsed
  split at parsed
  · cases parsed
  · rename_i addrText maskText found
    split at parsed
    · rename_i address len addr_eq mask_eq
      split at parsed
      · rename_i fits
        simp only [Option.some.injEq, Prod.mk.injEq] at parsed
        exact ⟨addrText, maskText, len, eq_of_cut found, mask_eq,
          Or.inl ⟨address, fits, addr_eq, parsed.2.symm⟩⟩
      · cases parsed
    · rename_i address len addr_eq mask_eq
      split at parsed
      · rename_i fits
        simp only [Option.some.injEq, Prod.mk.injEq] at parsed
        exact ⟨addrText, maskText, len, eq_of_cut found, mask_eq,
          Or.inr ⟨address, fits, addr_eq, parsed.2.symm⟩⟩
      · cases parsed
    · cases parsed

theorem dotted_of_parseAddr {address : BitVec 32} (parsed : parseAddr text = some (.v4 address)) :
    text = dotted address := by
  rw [parseAddr] at parsed
  split at parsed
  · obtain ⟨fields, parsed, same⟩ := map_eq_some_iff.mp parsed
    rw [← Addr.v4.inj same]
    exact dotted_of_parseIPv4Fields parsed
  · rw [parseIPv6Zone] at parsed
    split at parsed <;> simp at parsed
  · cases parsed

theorem parseAddr_v4_bytes {address : BitVec 32} (parsed : parseAddr text = some (.v4 address)) :
    ∀ byte ∈ text, isDigit byte = true ∨ byte = 46 :=
  fun _ mem => mem_dotted (dotted_of_parseAddr parsed ▸ mem)

theorem parseAddr_v6_colon {address : BitVec 128} {zone : Str}
    (parsed : parseAddr text = some (.v6 address zone)) : 58 ∈ text := by
  rw [parseAddr] at parsed
  split at parsed
  · rw [parseIPv4, map_eq_some_iff] at parsed
    obtain ⟨_, _, wrong⟩ := parsed
    cases wrong
  · rename_i found
    exact mem_of_find?_eq_some found
  · cases parsed

/-- The colon tells a 128-bit mask from a 32-bit one. -/
theorem colon_of_parseNet {net : IPNet} (parsed : parseNet text = some net) :
    containsByte text 58 = true ↔ ∃ block, net = .sixteen block := by
  obtain ⟨addrText, maskText, len, rfl, mask_eq, ⟨address, fits, addr_eq, rfl⟩ |
    ⟨address, fits, addr_eq, rfl⟩⟩ := parts_of_parseNet parsed
  · have absent : (58 : UInt8) ∉ addrText ++ 47 :: maskText := by
      rw [mem_append, mem_cons]
      rintro (in_addr | is_slash | in_mask)
      · rcases parseAddr_v4_bytes addr_eq _ in_addr with is_digit | is_dot
        · cases is_digit
        · cases is_dot
      · cases is_slash
      · cases dtoi_bytes mask_eq _ in_mask
    simpa [containsByte] using absent
  · have present : (58 : UInt8) ∈ addrText ++ 47 :: maskText :=
      mem_append_left _ (parseAddr_v6_colon addr_eq)
    simpa [containsByte] using present

theorem no_colon_blockText : containsByte (blockText block) 58 = false := by
  rw [← Bool.not_eq_true, colon_of_parseNet (parseNet_blockText block)]
  rintro ⟨other, wrong⟩
  cases wrong

theorem blockText_ne_nil : blockText block ≠ [] := by
  simp [blockText]

end Go
