import DatawerxMesh.Go.NetText

/-!
# Reading rendered addresses

Rendering an address and parsing the text gives the address back, with or without an ellipsis.
-/

namespace Go

open Addressing List Option

variable {n : Nat} {byte : UInt8} {text : Str} {ellipsis : Option Nat}

/-- A hexadecimal digit. -/
def hexByte (value : Nat) : UInt8 := UInt8.ofNat (Nat.digitChar value).toNat

theorem hexValue_hexByte {value : Nat} (small : value < 16) :
    hexValue (hexByte value) = some value := by
  interval_cases value <;> rfl

theorem hex_of_lt (small : n < 16) : hex n = [hexByte n] := by
  rw [hex, Nat.toDigits_of_lt_base small]
  rfl

theorem hex_of_ge (large : 16 ≤ n) : hex n = hex (n / 16) ++ [hexByte (n % 16)] := by
  rw [hex, Nat.toDigits_eq_if (by decide), if_neg (by omega), map_append]
  rfl

theorem hex_ne_nil (n : Nat) : hex n ≠ [] := by
  by_cases small : n < 16
  · simp [hex_of_lt small]
  · simp [hex_of_ge (Nat.le_of_not_lt small)]

theorem hexValue_of_mem_hex (mem : byte ∈ hex n) : (hexValue byte).isSome := by
  induction n using Nat.strongRecOn with
  | ind n ih =>
    by_cases small : n < 16
    · rw [hex_of_lt small, mem_singleton] at mem
      rw [mem, hexValue_hexByte small]
      rfl
    · rw [hex_of_ge (by omega), mem_append, mem_singleton] at mem
      rcases mem with earlier | rfl
      · exact ih (n / 16) (by omega) earlier
      · rw [hexValue_hexByte (Nat.mod_lt _ (by decide))]
        rfl

theorem length_hex_le {count : Nat} (positive : 0 < count) (small : n < 16 ^ count) :
    (hex n).length ≤ count := by
  induction count generalizing n with
  | zero => cases positive
  | succ count ih =>
    by_cases one : n < 16
    · rw [hex_of_lt one, length_singleton]
      omega
    · have quotient : n / 16 < 16 ^ count := by
        omega
      have later : 0 < count := by
        by_contra zero
        obtain rfl : count = 0 := by omega
        omega
      rw [hex_of_ge (by omega), length_append]
      exact Nat.succ_le_succ (ih later quotient)

theorem hexGroup_hex (small : n < 65536) (rest : Str) :
    hexGroup 0 0 (hex n ++ rest) = hexGroup (hex n).length n rest := by
  induction n using Nat.strongRecOn generalizing rest with
  | ind n ih =>
    by_cases one : n < 16
    · rw [hex_of_lt one, singleton_append, hexGroup]
      simp only [hexValue_hexByte one, Nat.zero_mul, Nat.zero_add, length_singleton]
      rw [if_neg (by omega)]
    · have last_lt : n % 16 < 16 := Nat.mod_lt _ (by decide)
      have short : (hex (n / 16)).length ≤ 3 := length_hex_le (by decide) (by omega)
      have rebuilt : n / 16 * 16 + n % 16 = n := by omega
      rw [hex_of_ge (by omega), append_assoc, ih (n / 16) (by omega) (by omega),
        singleton_append, hexGroup]
      simp only [hexValue_hexByte last_lt, rebuilt, length_append, length_singleton]
      rw [if_neg (by omega)]

theorem hexGroup_hex_nil (small : n < 65536) :
    hexGroup 0 0 (hex n) = some ((hex n).length, n, []) := by
  have read := hexGroup_hex small []
  rwa [append_nil] at read

theorem hexGroup_hex_colon (small : n < 65536) (rest : Str) :
    hexGroup 0 0 (hex n ++ 58 :: rest) = some ((hex n).length, n, 58 :: rest) := by
  rw [hexGroup_hex small]
  rfl

/-- The text of groups with colons between them. -/
def groupsText (groups : List Nat) : Str := join [58] (groups.map hex)

theorem groupsText_cons {group : Nat} {groups : List Nat} (more : groups ≠ []) :
    groupsText (group :: groups) = hex group ++ 58 :: groupsText groups := by
  cases groups with
  | nil => exact absurd rfl more
  | cons next later => simp [groupsText, join]

theorem groupsText_head (group : Nat) (groups : List Nat) :
    ∃ byte rest, groupsText (group :: groups) = byte :: rest ∧ byte ≠ 58 := by
  have starts : ∃ more, groupsText (group :: groups) = hex group ++ more := by
    cases groups with
    | nil => exact ⟨[], by simp [groupsText, join]⟩
    | cons next later => exact ⟨_, groupsText_cons (by simp)⟩
  obtain ⟨more, text_eq⟩ := starts
  cases rendered : hex group with
  | nil => exact absurd rendered (hex_ne_nil group)
  | cons byte rest =>
    refine ⟨byte, rest ++ more, by rw [text_eq, rendered, cons_append], ?_⟩
    rintro rfl
    have digit : (hexValue 58).isSome := hexValue_of_mem_hex (n := group) (by simp [rendered])
    cases digit

theorem groupsText_ne_nil {groups : List Nat} (nonempty : groups ≠ []) :
    groupsText groups ≠ [] := by
  cases groups with
  | nil => exact absurd rfl nonempty
  | cons group groups =>
    obtain ⟨byte, rest, text_eq, -⟩ := groupsText_head group groups
    simp [text_eq]

theorem mem_groupsText {groups : List Nat} (mem : byte ∈ groupsText groups) :
    (hexValue byte).isSome ∨ byte = 58 := by
  induction groups with
  | nil => simp [groupsText, join] at mem
  | cons group groups ih =>
    cases groups with
    | nil =>
      exact Or.inl (hexValue_of_mem_hex mem)
    | cons next later =>
      rw [groupsText_cons (by simp), mem_append, mem_cons] at mem
      rcases mem with digit | colon | behind
      · exact Or.inl (hexValue_of_mem_hex digit)
      · exact Or.inr colon
      · exact ih behind

section Loop

variable {group : Nat} {groups read : List Nat} {ellipsis : Option Nat} {fuel : Nat}

theorem parseIPv6Groups_last (small : group < 65536) :
    parseIPv6Groups (fuel + 1) (hex group) read ellipsis =
      some ([], read ++ [group], ellipsis) := by
  obtain ⟨count, count_eq⟩ :=
    Nat.exists_eq_succ_of_ne_zero (length_eq_zero_iff.not.mpr (hex_ne_nil group))
  rw [parseIPv6Groups, hexGroup_hex_nil small, count_eq]

theorem parseIPv6Groups_colon (small : group < 65536) {byte : UInt8} (solid : byte ≠ 58)
    (rest : Str) :
    parseIPv6Groups (fuel + 1) (hex group ++ 58 :: byte :: rest) read ellipsis =
      parseIPv6Groups fuel (byte :: rest) (read ++ [group]) ellipsis := by
  obtain ⟨count, count_eq⟩ :=
    Nat.exists_eq_succ_of_ne_zero (length_eq_zero_iff.not.mpr (hex_ne_nil group))
  rw [parseIPv6Groups, hexGroup_hex_colon small, count_eq]
  simp [solid]

theorem parseIPv6Groups_ellipsis (small : group < 65536) (rest : Str) :
    parseIPv6Groups (fuel + 1) (hex group ++ 58 :: 58 :: rest) read none =
      if rest = [] then some ([], read ++ [group], some (read.length + 1))
      else parseIPv6Groups fuel rest (read ++ [group]) (some (read.length + 1)) := by
  obtain ⟨count, count_eq⟩ :=
    Nat.exists_eq_succ_of_ne_zero (length_eq_zero_iff.not.mpr (hex_ne_nil group))
  rw [parseIPv6Groups, hexGroup_hex_colon small, count_eq]
  simp

theorem parseIPv6Groups_groupsText (nonempty : groups ≠ [])
    (small : ∀ group ∈ groups, group < 65536) (enough : groups.length ≤ fuel) :
    parseIPv6Groups fuel (groupsText groups) read ellipsis =
      some ([], read ++ groups, ellipsis) := by
  induction groups generalizing fuel read with
  | nil => exact absurd rfl nonempty
  | cons group groups ih =>
    obtain ⟨fuel, rfl⟩ := Nat.exists_eq_succ_of_ne_zero (n := fuel) (by simp at enough; omega)
    have group_small := small group mem_cons_self
    cases groups with
    | nil =>
      exact parseIPv6Groups_last group_small
    | cons next later =>
      obtain ⟨byte, rest, text_eq, solid⟩ := groupsText_head next later
      rw [groupsText_cons (by simp), text_eq, parseIPv6Groups_colon group_small solid, ← text_eq,
        ih (by simp) (fun other mem => small other (mem_cons_of_mem _ mem))
          (by simpa using enough)]
      simp

theorem parseIPv6Groups_compressed {behind : List Nat} (nonempty : groups ≠ [])
    (small : ∀ group ∈ groups, group < 65536) (behind_small : ∀ group ∈ behind, group < 65536)
    (enough : groups.length + behind.length ≤ fuel) :
    parseIPv6Groups fuel (groupsText groups ++ 58 :: 58 :: groupsText behind) read none =
      some ([], read ++ groups ++ behind, some (read.length + groups.length)) := by
  induction groups generalizing fuel read with
  | nil => exact absurd rfl nonempty
  | cons group groups ih =>
    obtain ⟨fuel, rfl⟩ := Nat.exists_eq_succ_of_ne_zero (n := fuel) (by simp at enough; omega)
    have group_small := small group mem_cons_self
    cases groups with
    | nil =>
      have single : groupsText [group] = hex group := rfl
      rw [single, parseIPv6Groups_ellipsis group_small]
      by_cases last : behind = []
      · subst last
        simp [groupsText, join]
      · rw [if_neg (groupsText_ne_nil last), parseIPv6Groups_groupsText last behind_small]
        · simp
        · simp at enough
          omega
    | cons next later =>
      obtain ⟨byte, rest, text_eq, solid⟩ := groupsText_head next later
      have later_small : ∀ other ∈ next :: later, other < 65536 :=
        fun other mem => small other (mem_cons_of_mem _ mem)
      rw [groupsText_cons (by simp), text_eq, append_assoc, cons_append,
        cons_append, parseIPv6Groups_colon group_small solid, ← cons_append,
        ← text_eq, ih (by simp) later_small (by simp at enough ⊢; omega)]
      simp
      omega

end Loop

variable (address : BitVec 128)

theorem groups_length : (groups address).length = 8 := by
  simp [groups]

theorem groups_small : ∀ group ∈ groups address, group < 65536 := by
  intro group mem
  obtain ⟨i, -, rfl⟩ := mem_map.mp mem
  exact Nat.mod_lt _ (by decide)

theorem ofGroups_groups : ofGroups (groups address) = address := by
  apply BitVec.eq_of_toNat_eq
  have bound := address.isLt
  have listed : groups address = [address.toNat / 2 ^ 112 % 65536, address.toNat / 2 ^ 96 % 65536,
      address.toNat / 2 ^ 80 % 65536, address.toNat / 2 ^ 64 % 65536,
      address.toNat / 2 ^ 48 % 65536, address.toNat / 2 ^ 32 % 65536,
      address.toNat / 2 ^ 16 % 65536, address.toNat / 2 ^ 0 % 65536] := rfl
  -- The groups read so far are the leading bits of the address.
  have first : 0 * 65536 + address.toNat / 2 ^ 112 % 65536 = address.toNat / 2 ^ 112 := by omega
  have next (shift : Nat) : address.toNat / 2 ^ (shift + 16) * 65536 +
      address.toNat / 2 ^ shift % 65536 = address.toNat / 2 ^ shift := by
    rw [pow_add, ← Nat.div_div_eq_div_mul]
    exact Nat.div_add_mod' _ _
  simp only [ofGroups, listed, foldl_cons, foldl_nil, BitVec.toNat_ofNat]
  rw [first, next 96, next 80, next 64, next 48, next 32, next 16, next 0, pow_zero, Nat.div_one,
    Nat.mod_eq_of_lt bound]

/-- A run of zero groups that is left out. -/
def ZeroRun (groups : List Nat) (start stop : Nat) : Prop :=
  2 ≤ stop - start ∧ stop ≤ groups.length ∧
    groups = groups.take start ++ List.replicate (stop - start) 0 ++ groups.drop stop

theorem zeroRun_takeWhile {groups : List Nat} {start : Nat} (inside : start ≤ groups.length)
    (long : 2 ≤ ((groups.drop start).takeWhile (· == 0)).length) :
    ZeroRun groups start (start + ((groups.drop start).takeWhile (· == 0)).length) := by
  have zeros : (groups.drop start).takeWhile (· == 0) =
      List.replicate ((groups.drop start).takeWhile (· == 0)).length 0 := by
    refine eq_replicate_iff.mpr ⟨rfl, fun group mem => ?_⟩
    simpa using all_eq_true.mp all_takeWhile group mem
  have split := takeWhile_append_dropWhile (p := (· == 0)) (l := groups.drop start)
  have count_le : ((groups.drop start).takeWhile (· == 0)).length ≤ groups.length - start := by
    have lengths := congrArg List.length split
    rw [length_append, length_drop] at lengths
    omega
  refine ⟨by omega, by omega, ?_⟩
  have behind : groups.drop (start + ((groups.drop start).takeWhile (· == 0)).length) =
      (groups.drop start).dropWhile (· == 0) := by
    rw [← drop_drop]
    nth_rewrite 2 [← split]
    rw [drop_left]
  rw [Nat.add_sub_cancel_left, ← zeros, behind, append_assoc, split, take_append_drop]

theorem zeroRun_eq_some {groups : List Nat} (eight : groups.length = 8) {start stop : Nat}
    (found : zeroRun groups = some (start, stop)) : ZeroRun groups start stop := by
  -- Every run that becomes the best one is a run of at least two zeros.
  have best : ∀ start stop, zeroRun groups = some (start, stop) → ZeroRun groups start stop := by
    refine List.foldlRecOn (List.range 8) _ (motive := fun best : Option (Nat × Nat) =>
      ∀ start stop, best = some (start, stop) → ZeroRun groups start stop) (by simp) ?_
    intro best sound i mem start stop
    rw [mem_range] at mem
    cases best with
    | none =>
      dsimp only
      split
      · rename_i long
        rintro ⟨rfl, rfl⟩
        exact zeroRun_takeWhile (by omega) (by simpa using long)
      · simp
    | some run =>
      obtain ⟨earlier, finish⟩ := run
      have earlier_long := (sound earlier finish rfl).1
      dsimp only
      split
      · rintro ⟨rfl, rfl⟩
        exact zeroRun_takeWhile (by omega) (by omega)
      · exact sound start stop
  exact best start stop found

theorem expandEllipsis_zeroRun {groups : List Nat} (eight : groups.length = 8) {start stop : Nat}
    (run : ZeroRun groups start stop) :
    expandEllipsis (groups.take start ++ groups.drop stop) (some start) = some groups := by
  obtain ⟨long, inside, split⟩ := run
  have front : (groups.take start).length = start := by
    rw [length_take]
    omega
  have rest : (groups.take start ++ groups.drop stop).length = start + (8 - stop) := by
    rw [length_append, front, length_drop, eight]
  rw [expandEllipsis, rest, if_pos (by omega),
    show 8 - (start + (8 - stop)) = stop - start by omega]
  rw [take_left' front, drop_left' front, ← split]

theorem colonText_eq :
    colonText address =
      match zeroRun (groups address) with
      | none => groupsText (groups address)
      | some (start, stop) => groupsText ((groups address).take start) ++
          58 :: 58 :: groupsText ((groups address).drop stop) := by
  unfold colonText
  cases zeroRun (groups address) with
  | none => rfl
  | some run => simp [groupsText]

variable {address : BitVec 128}

theorem mem_colonText (mem : byte ∈ colonText address) : (hexValue byte).isSome ∨ byte = 58 := by
  rw [colonText_eq] at mem
  split at mem
  · exact mem_groupsText mem
  · rw [mem_append, mem_cons, mem_cons] at mem
    rcases mem with front | colon | colon | behind
    · exact mem_groupsText front
    · exact Or.inr colon
    · exact Or.inr colon
    · exact mem_groupsText behind

theorem colon_mem_colonText (address : BitVec 128) : 58 ∈ colonText address := by
  rw [colonText_eq]
  split
  · cases listed : groups address with
    | nil => simpa [listed] using groups_length address
    | cons first rest =>
      cases rest with
      | nil => simpa [listed] using groups_length address
      | cons second later => simp [groupsText_cons]
  · simp

theorem parseIPv6_of_groups {read : List Nat} {rest : Str} (text_eq : text = byte :: rest)
    (solid : byte ≠ 58) (loop : parseIPv6Groups 8 text [] none = some ([], read, ellipsis)) :
    parseIPv6 text = (expandEllipsis read ellipsis).map ofGroups := by
  subst text_eq
  rw [parseIPv6]
  · rw [loop]
  · simp [solid]
  · simp [solid]

theorem parseIPv6_of_ellipsis {read : List Nat} (text_ne : text ≠ [])
    (loop : parseIPv6Groups 8 text [] (some 0) = some ([], read, ellipsis)) :
    parseIPv6 (58 :: 58 :: text) = (expandEllipsis read ellipsis).map ofGroups := by
  rw [parseIPv6]
  · rw [loop]
  · exact text_ne

theorem parseIPv6_colonText (address : BitVec 128) :
    parseIPv6 (colonText address) = some address := by
  have eight := groups_length address
  have small := groups_small address
  rw [colonText_eq]
  cases found : zeroRun (groups address) with
  | none =>
    cases listed : groups address with
    | nil => simp [listed] at eight
    | cons first later =>
      obtain ⟨byte, rest, text_eq, solid⟩ := groupsText_head first later
      have loop : parseIPv6Groups 8 (groupsText (first :: later)) [] none =
          some ([], [] ++ (first :: later), none) :=
        parseIPv6Groups_groupsText (by simp) (by rwa [← listed]) (by rw [← listed, eight])
      rw [parseIPv6_of_groups text_eq solid loop, nil_append, ← listed, expandEllipsis,
        if_neg (by omega), map_some, ofGroups_groups]
  | some run =>
    obtain ⟨start, stop⟩ := run
    have zeros := zeroRun_eq_some eight found
    have expanded := expandEllipsis_zeroRun eight zeros
    have front_small : ∀ group ∈ (groups address).take start, group < 65536 :=
      fun group mem => small group (mem_of_mem_take mem)
    have behind_small : ∀ group ∈ (groups address).drop stop, group < 65536 :=
      fun group mem => small group (mem_of_mem_drop mem)
    obtain ⟨long, inside, -⟩ := zeros
    dsimp only
    cases front : (groups address).take start with
    | nil =>
      have start_zero : start = 0 := by
        simpa [← length_eq_zero_iff, eight] using front
      rw [front, nil_append, start_zero] at expanded
      cases behind : (groups address).drop stop with
      | nil =>
        rw [behind] at expanded
        change (expandEllipsis [] (some 0)).map ofGroups = some address
        rw [expanded, map_some, ofGroups_groups]
      | cons first later =>
        obtain ⟨byte, rest, text_eq, solid⟩ := groupsText_head first later
        have loop : parseIPv6Groups 8 (groupsText (first :: later)) [] (some 0) =
            some ([], [] ++ (first :: later), some 0) :=
          parseIPv6Groups_groupsText (by simp) (by rwa [← behind])
            (by rw [← behind, length_drop]; omega)
        have text_ne : groupsText (first :: later) ≠ [] := by simp [text_eq]
        rw [behind] at expanded
        change parseIPv6 (58 :: 58 :: groupsText (first :: later)) = some address
        rw [parseIPv6_of_ellipsis text_ne loop, nil_append, expanded, map_some, ofGroups_groups]
    | cons first later =>
      obtain ⟨byte, rest, text_eq, solid⟩ := groupsText_head first later
      have front_length : (first :: later).length = start := by
        rw [← front, length_take]
        omega
      have loop : parseIPv6Groups 8 (groupsText (first :: later) ++
          58 :: 58 :: groupsText ((groups address).drop stop)) [] none =
          some ([], [] ++ (first :: later) ++ (groups address).drop stop,
            some ([].length + (first :: later).length)) :=
        parseIPv6Groups_compressed (by simp) (by rwa [← front]) behind_small
          (by rw [front_length, length_drop]; omega)
      rw [length_nil, Nat.zero_add, front_length, nil_append, ← front] at loop
      rw [← front] at text_eq ⊢
      rw [parseIPv6_of_groups (by rw [text_eq, cons_append]) solid loop, expanded,
        map_some, ofGroups_groups]

theorem parseAddr_colonText (address : BitVec 128) :
    parseAddr (colonText address) = some (.v6 address []) := by
  have plain : ∀ byte ∈ colonText address, byte ≠ 46 ∧ byte ≠ 37 := by
    intro byte mem
    rcases mem_colonText mem with digit | rfl
    · constructor
      all_goals
        rintro rfl
        cases digit
    · decide
  have special : (colonText address).find? (fun byte => byte == 46 || byte == 58 || byte == 37) =
      some 58 := by
    have some_special : ((colonText address).find?
        (fun byte => byte == 46 || byte == 58 || byte == 37)).isSome := by
      rw [List.find?_isSome]
      exact ⟨58, colon_mem_colonText address, rfl⟩
    obtain ⟨byte, found⟩ := isSome_iff_exists.mp some_special
    have matched := List.find?_some found
    obtain ⟨not_dot, not_percent⟩ := plain byte (mem_of_find?_eq_some found)
    simp only [Bool.or_eq_true, beq_iff_eq, not_dot, not_percent, false_or, or_false] at matched
    rw [found, matched]
  have no_zone : cut 37 (colonText address) = none := by
    cases found : cut 37 (colonText address) with
    | none => rfl
    | some parts =>
      have percent : 37 ∈ colonText address := by
        rw [eq_of_cut found]
        simp
      exact absurd rfl (plain 37 percent).2
  rw [parseAddr, special]
  change parseIPv6Zone (colonText address) = _
  rw [parseIPv6Zone, no_zone]
  change (parseIPv6 (colonText address)).map _ = _
  rw [parseIPv6_colonText, map_some]

/-- The address in sixteen bytes. -/
def IP.to16 : IP → BitVec 128
  | .four address => mapped address
  | .sixteen address => address

/-- `IP.Equal`: an IPv4 address and its mapped form are equal. -/
def IP.equal (ip x : IP) : Bool := ip.to16 == x.to16

theorem to4_to16 (ip : IP) : (IP.sixteen ip.to16).to4 = ip.to4 := by
  cases ip with
  | four address => exact unmap_mapped address
  | sixteen address => rfl

/-- A network does not tell an IPv4 address from its sixteen-byte form. -/
theorem IPNet.contains_to16 (net : IPNet) (ip : IP) :
    net.contains (.sixteen ip.to16) = net.contains ip := by
  cases ip with
  | sixteen address => rfl
  | four address =>
    unfold IPNet.contains
    rw [to4_to16]
    cases net.number <;> rfl

theorem to16_of_to4 {ip : IP} {address : BitVec 32} (view : ip.to4 = some address) :
    ip.to16 = mapped address := by
  cases ip with
  | four own => rw [Option.some.inj view, IP.to16]
  | sixteen own => exact eq_mapped_of_unmap view

theorem IP.string_of_to4 {ip : IP} {address : BitVec 32} (view : ip.to4 = some address) :
    ip.string = dotted address := by
  unfold IP.string
  rw [view]

theorem IP.string_of_unmap (view : unmap address = none) :
    (IP.sixteen address).string = colonText address := by
  have none_four : (IP.sixteen address).to4 = none := view
  unfold IP.string
  rw [none_four]

theorem parseIP_string (ip : IP) : parseIP ip.string = some (.sixteen ip.to16) := by
  cases ip with
  | four address =>
    have four : (IP.four address).to4 = some address := rfl
    rw [IP.string_of_to4 four, parseIP, parseAddr_dotted]
    rfl
  | sixteen address =>
    cases view : unmap address with
    | none =>
      rw [IP.string_of_unmap view, parseIP, parseAddr_colonText]
      rfl
    | some low =>
      have four : (IP.sixteen address).to4 = some low := view
      rw [IP.string_of_to4 four, parseIP, parseAddr_dotted, IP.to16, eq_mapped_of_unmap view]

theorem parseNet_string (net : IPNet) :
    ∃ again, parseNet net.string = some again ∧ again.string = net.string := by
  cases number : net.number with
  | inl block =>
    have text_eq : net.string = blockText block := by rw [IPNet.string, number]; rfl
    exact ⟨.four block, by rw [text_eq, parseNet_blockText],
      by rw [text_eq, IPNet.string_of_block4 (IPNet.block4_four block)]⟩
  | inr block =>
    have text_eq : net.string = colonText block.base ++ 47 :: itoa block.len := by
      rw [IPNet.string, number]
    have no_slash : 47 ∉ colonText block.base := by
      intro mem
      rcases mem_colonText mem with digit | same
      · cases digit
      · cases same
    have small : block.len < 0xFFFFFF := by have := block.len_le; omega
    have net_eq : net = .sixteen block := by
      cases net with
      | four own => cases number
      | sixteen own =>
        rw [IPNet.number] at number
        split at number
        · cases number
        · cases number
          rfl
    refine ⟨net, ?_, rfl⟩
    rw [text_eq, parseNet, parseCIDR, cut_append 47 _ _ no_slash]
    simp only [parseAddr_colonText, dtoi_itoa small, dif_pos block.len_le, map_some,
      Block.around_base, net_eq]

/-- The bytes of an IPv6 text. -/
def isColonByte (byte : UInt8) : Bool := (hexValue byte).isSome || byte == 58 || byte == 46

theorem hexGroup_bytes {rest : Str} {count value count' value' : Nat}
    (parsed : hexGroup count value text = some (count', value', rest)) :
    ∃ digits, text = digits ++ rest ∧ ∀ byte ∈ digits, isColonByte byte = true := by
  induction text generalizing count value with
  | nil =>
    simp only [hexGroup, Option.some.injEq, Prod.mk.injEq] at parsed
    exact ⟨[], by simpa using parsed.2.2, by simp⟩
  | cons byte text ih =>
    rw [hexGroup] at parsed
    cases digit : hexValue byte with
    | none =>
      simp only [digit, Option.some.injEq, Prod.mk.injEq] at parsed
      exact ⟨[], by simpa using parsed.2.2, by simp⟩
    | some d =>
      simp only [digit] at parsed
      split at parsed
      · cases parsed
      · obtain ⟨digits, rfl, all⟩ := ih parsed
        refine ⟨byte :: digits, rfl, ?_⟩
        simpa [isColonByte, digit] using all

theorem parseIPv6Groups_bytes {fuel : Nat} {groups groups' : List Nat} {ellipsis' : Option Nat}
    (parsed : parseIPv6Groups fuel text groups ellipsis = some ([], groups', ellipsis')) :
    ∀ byte ∈ text, isColonByte byte = true := by
  induction fuel generalizing text groups ellipsis with
  | zero =>
    simp only [parseIPv6Groups, Option.some.injEq, Prod.mk.injEq] at parsed
    simp [parsed.1]
  | succ fuel ih =>
    rw [parseIPv6Groups] at parsed
    have colon : isColonByte 58 = true := by decide
    cases group : hexGroup 0 0 text with
    | none => simp [group] at parsed
    | some result =>
      obtain ⟨count, value, rest⟩ := result
      obtain ⟨digits, rfl, all⟩ := hexGroup_bytes group
      rw [group] at parsed
      cases count with
      | zero => simp at parsed
      | succ count =>
        cases rest with
        | nil => simpa using all
        | cons byte rest =>
          dsimp only at parsed
          split at parsed
          case isTrue dotted =>
            -- the rest of the text is a dotted address
            split at parsed
            · cases parsed
            · split at parsed
              · cases parsed
              · split at parsed
                case h_1 fields_eq =>
                  intro other mem
                  rcases mem_dotted (dotted_of_parseIPv4Fields fields_eq ▸ mem) with digit | rfl
                  · simp [isColonByte, hexValue, digit]
                  · decide
                case h_2 => cases parsed
          case isFalse =>
            split at parsed
            case isTrue => cases parsed
            case isFalse is_colon =>
              rw [not_not] at is_colon
              subst is_colon
              have later : ∀ other ∈ rest, isColonByte other = true := by
                cases rest with
                | nil => simp
                | cons next rest =>
                  dsimp only at parsed
                  split at parsed
                  case isTrue double =>
                    subst double
                    split at parsed
                    · cases parsed
                    · split at parsed
                      case isTrue last => simpa [last] using colon
                      case isFalse =>
                        exact forall_mem_cons.mpr ⟨colon, ih parsed⟩
                  case isFalse => exact ih parsed
              intro other mem
              rcases mem_append.mp mem with digit | tail
              · exact all other digit
              · rcases mem_cons.mp tail with rfl | behind
                · exact colon
                · exact later other behind

theorem parseIPv6_bytes (parsed : parseIPv6 text = some address) :
    ∀ byte ∈ text, isColonByte byte = true := by
  have colon : isColonByte 58 = true := by decide
  unfold parseIPv6 at parsed
  dsimp only at parsed
  split at parsed
  case h_2 => cases parsed
  case h_1 start =>
    split at start
    · simpa using colon
    · have rest := parseIPv6Groups_bytes start
      exact forall_mem_cons.mpr ⟨colon, forall_mem_cons.mpr ⟨colon, rest⟩⟩
    · exact parseIPv6Groups_bytes start

theorem parseAddr_v6_bytes (parsed : parseAddr text = some (.v6 address [])) :
    ∀ byte ∈ text, isColonByte byte = true := by
  rw [parseAddr] at parsed
  split at parsed
  · rw [parseIPv4, map_eq_some_iff] at parsed
    obtain ⟨_, _, wrong⟩ := parsed
    cases wrong
  · rw [parseIPv6Zone] at parsed
    split at parsed
    case h_1 =>
      rw [map_eq_some_iff] at parsed
      obtain ⟨_, read, _⟩ := parsed
      exact parseIPv6_bytes read
    case h_2 => cases parsed
    case h_3 nonempty _ =>
      rw [map_eq_some_iff] at parsed
      obtain ⟨_, _, same⟩ := parsed
      exact absurd (Addr.v6.inj same).2 nonempty
  · cases parsed

end Go
