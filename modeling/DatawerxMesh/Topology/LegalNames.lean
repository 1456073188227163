import DatawerxMesh.Topology.NameCollisions

/-!
# Object names are legal

`SanitizeName` returns a usable name for every byte string, however long it is and whatever it
decodes to, and leaves usable names as they are.
-/

namespace DatawerxMesh.Topology

open Go List

theorem getLast?_trimRight (byte : UInt8) (s : Str) : (trimRight byte s).getLast? ≠ some byte := by
  rw [trimRight, List.getLast?_reverse]
  intro starts
  have kept := List.head?_dropWhile_not (· == byte) s.reverse
  rw [starts] at kept
  simp at kept

theorem head?_trimRight {byte first : UInt8} {s : Str} (starts : s.head? = some first)
    (differs : first ≠ byte) : (trimRight byte s).head? = some first := by
  obtain ⟨rest, rfl⟩ := List.head?_eq_some_iff.mp starts
  have stays : (rest.reverse ++ [first]).dropWhile (· == byte) =
      rest.reverse.dropWhile (· == byte) ++ [first] := by
    rw [dropWhile_append]
    split
    case isTrue all_trimmed =>
      rw [isEmpty_iff.mp all_trimmed, nil_append]
      exact dropWhile_cons_of_neg (by simpa using differs)
    case isFalse => rfl
  rw [trimRight, reverse_cons, stays, reverse_append]
  rfl

theorem mem_of_mem_trimRight {byte other : UInt8} {s : Str} (mem : other ∈ trimRight byte s) :
    other ∈ s :=
  mem_reverse.mp ((dropWhile_sublist _).subset (mem_reverse.mp mem))

theorem length_trimRight_le (byte : UInt8) (s : Str) : (trimRight byte s).length ≤ s.length := by
  rw [trimRight, length_reverse, ← @length_reverse _ s]
  exact (dropWhile_sublist _).length_le

theorem isNameByte_sanitizeRune (rune : Nat) : isNameByte (sanitizeRune rune) = true := by
  have small : ∀ rune < 123, isNameByte (sanitizeRune rune) = true := by decide +kernel
  by_cases bounded : rune < 123
  · exact small rune bounded
  · rw [sanitizeRune, if_neg (by omega)]
    decide

theorem isNameByte_of_mem_cleaned {id : Str} {byte : UInt8} (mem : byte ∈ cleaned id) :
    isNameByte byte = true := by
  have mapped := (dropWhile_sublist _).subset (mem_of_mem_trimRight mem)
  obtain ⟨rune, -, rfl⟩ := mem_map.mp mapped
  exact isNameByte_sanitizeRune _

theorem exists_head?_cleaned {id : Str} (nonempty : cleaned id ≠ []) :
    ∃ first, (cleaned id).head? = some first ∧ first ≠ 45 := by
  rw [cleaned, trim] at nonempty ⊢
  generalize (runes id).map (fun rune => sanitizeRune (toLowerRune rune)) = mapped at nonempty ⊢
  cases starts : (mapped.dropWhile (· == 45)).head? with
  | none =>
    rw [List.head?_eq_none_iff.mp starts] at nonempty
    exact absurd rfl nonempty
  | some first =>
    have kept := List.head?_dropWhile_not (· == 45) mapped
    rw [starts] at kept
    have differs : first ≠ 45 := by simpa using kept
    exact ⟨first, head?_trimRight starts differs, differs⟩

theorem isNameByte_of_mem_hexEncode {bytes : Str} {byte : UInt8} (mem : byte ∈ hexEncode bytes) :
    isNameByte byte = true := by
  have digits : ∀ byte : UInt8, (hexEncode [byte]).all isNameByte = true :=
    forall_byte (fun byte => (hexEncode [byte]).all isNameByte = true) (by decide +kernel)
  obtain ⟨source, -, inside⟩ := mem_flatMap.mp mem
  exact all_eq_true.mp (digits source) byte (by simpa [hexEncode] using inside)

theorem length_shortHash (id : Str) : (shortHash id).length = 8 := by
  rw [shortHash, length_take, length_hexEncode, length_sha256]
  rfl

theorem length_cutFor_le {suffixLen : Nat} (fits : suffixLen ≤ maxSanitizedNameLen) (id : Str) :
    (cutFor suffixLen id).length + suffixLen ≤ maxSanitizedNameLen := by
  rw [cutFor]
  split
  case isTrue long =>
    have trimmed := length_trimRight_le 45 ((cleaned id).take (maxSanitizedNameLen - suffixLen))
    rw [length_take] at trimmed
    omega
  case isFalse short => omega

theorem mem_cleaned_of_mem_cutFor {suffixLen : Nat} {id : Str} {byte : UInt8}
    (mem : byte ∈ cutFor suffixLen id) : byte ∈ cleaned id := by
  rw [cutFor] at mem
  split at mem
  · exact mem_of_mem_take (mem_of_mem_trimRight mem)
  · exact mem

theorem head?_cutFor {suffixLen : Nat} (fits : suffixLen < maxSanitizedNameLen) {id : Str}
    {first : UInt8} (starts : (cleaned id).head? = some first) (differs : first ≠ 45) :
    (cutFor suffixLen id).head? = some first := by
  rw [cutFor]
  split
  · refine head?_trimRight ?_ differs
    rw [List.head?_take, if_neg (by omega), starts]
  · exact starts

theorem dnsSafe_rewrittenName {id : Str} (nonempty : cleaned id ≠ []) :
    DnsSafe (rewrittenName shortHash id) := by
  obtain ⟨first, starts, differs⟩ := exists_head?_cleaned nonempty
  have room : (shortHash id).length.succ = 9 := by rw [length_shortHash]
  have cut_starts := @head?_cutFor 9 (by decide) id first starts differs
  have cut_short := @length_cutFor_le 9 (by decide) id
  have hash_short := length_shortHash id
  rw [rewrittenName, room]
  refine ⟨?_, ?_, ?_, ?_, ?_⟩
  · intro byte mem
    rcases mem_append.mp mem with in_cut | in_suffix
    · exact isNameByte_of_mem_cleaned (mem_cleaned_of_mem_cutFor in_cut)
    · rcases mem_cons.mp in_suffix with rfl | in_hash
      · decide
      · exact isNameByte_of_mem_hexEncode (mem_of_mem_take in_hash)
  · simp
  · rw [List.head?_append, cut_starts]
    simpa using differs
  · intro ends
    rw [List.getLast?_append, List.getLast?_cons] at ends
    have dash : (shortHash id).getLast?.getD 45 = 45 := by simpa using ends
    cases last : (shortHash id).getLast? with
    | none =>
      rw [List.getLast?_eq_none_iff.mp last] at hash_short
      cases hash_short
    | some byte =>
      rw [last, Option.getD_some] at dash
      exact dash_not_mem_shortHash id (dash ▸ mem_of_getLast? last)
  · rw [length_append, length_cons, hash_short]
    exact cut_short

theorem dnsSafe_of_clean {id : Str} (nonempty : cleaned id ≠ []) (clean : Clean id) :
    DnsSafe id := by
  obtain ⟨first, starts, differs⟩ := exists_head?_cleaned nonempty
  have ends : (cleaned id).getLast? ≠ some 45 := getLast?_trimRight 45 _
  rw [clean.1] at nonempty starts ends
  refine ⟨fun byte mem => ?_, nonempty, ?_, ends, clean.2⟩
  · exact isNameByte_of_mem_cleaned (clean.1.symm ▸ mem)
  · rw [starts]
    simpa using differs

theorem dnsSafe_peer : DnsSafe "peer" :=
  ⟨all_eq_true.mp (by decide), by decide, by decide, by decide, by decide⟩

/-- Object names are usable, stable, and those of usable IDs are the IDs. -/
theorem sanitizeName_legal (id : Str) :
    DnsSafe (sanitizeName id) ∧ sanitizeName (sanitizeName id) = sanitizeName id ∧
      (DnsSafe id → sanitizeName id = id) := by
  have legal : DnsSafe (sanitizeName id) := by
    rw [sanitizeName_eq, sanitizeNameWith]
    by_cases nothing : cleaned id = []
    · rw [if_pos nothing]
      exact dnsSafe_peer
    · rw [if_neg nothing]
      by_cases clean : Clean id
      · rw [if_pos clean]
        exact dnsSafe_of_clean nothing clean
      · rw [if_neg clean]
        exact dnsSafe_rewrittenName nothing
  exact ⟨legal, sanitizeName_of_dnsSafe legal, sanitizeName_of_dnsSafe⟩

end DatawerxMesh.Topology
