import DatawerxMesh.Go.Text

/-!
# Trimming and lower case

`strings.TrimSpace` takes nothing more from its own result, and it commutes with `strings.ToLower`.
What the latter does outside ASCII is left to the case tables of the `unicode` package, which a run
is given.
-/

namespace Go

open List

/-- The lower case of an ASCII letter. -/
def lowerByte (byte : UInt8) : UInt8 := if 65 ≤ byte ∧ byte ≤ 90 then byte + 32 else byte

theorem toLower_eq (s : Str) : toLower s = s.map lowerByte := rfl

theorem lowerByte_lowerByte : ∀ byte, lowerByte (lowerByte byte) = lowerByte byte :=
  forall_byte _ (by decide +kernel)

theorem lowerByte_of_ge : ∀ byte : UInt8, ¬ byte < 0x80 → lowerByte byte = byte :=
  forall_byte (fun byte => ¬ byte < 0x80 → lowerByte byte = byte) (by decide +kernel)

theorem lowerByte_lt : ∀ byte : UInt8, byte < 0x80 → lowerByte byte < 0x80 ∧
    isSpaceRune (lowerByte byte).toNat = isSpaceRune byte.toNat :=
  forall_byte (fun byte => byte < 0x80 → lowerByte byte < 0x80 ∧
    isSpaceRune (lowerByte byte).toNat = isSpaceRune byte.toNat) (by decide +kernel)

theorem toLower_toLower (s : Str) : toLower (toLower s) = toLower s := by
  simp only [toLower_eq, map_map, Function.comp_def, lowerByte_lowerByte]

theorem runeLead_low {lead : UInt8} {width : Nat} {low high : UInt8}
    (starts : runeLead lead = some (width, low, high)) : 0x80 ≤ low := by
  unfold runeLead at starts
  split_ifs at starts <;> simp only [Option.some.injEq, Prod.mk.injEq] at starts <;>
    obtain ⟨-, rfl, -⟩ := starts <;> decide

theorem lowerByte_within {low : UInt8} (outside : 0x80 ≤ low) (high byte : UInt8) :
    (decide (low ≤ lowerByte byte) && decide (lowerByte byte ≤ high)) =
      (decide (low ≤ byte) && decide (byte ≤ high)) := by
  by_cases ascii : byte < 0x80
  · have below : ∀ {other : UInt8}, other < 0x80 → decide (low ≤ other) = false := by
      intro other small
      simp only [UInt8.le_iff_toNat_le, UInt8.lt_iff_toNat_lt, decide_eq_false_iff_not] at *
      omega
    rw [below (lowerByte_lt byte ascii).1, below ascii]
    rfl
  · rw [lowerByte_of_ge byte ascii]

theorem decodeRune_toLower (lead : UInt8) (rest : Str) (high : ¬ lead < 0x80) :
    decodeRune lead (toLower rest) = decodeRune lead rest := by
  rw [decodeRune, decodeRune, if_neg high, if_neg high]
  cases starts : runeLead lead with
  | none => rfl
  | some bounds =>
    obtain ⟨width, low, top⟩ := bounds
    have outside := runeLead_low starts
    dsimp only
    generalize tail_eq : rest.take (width - 1) = tail
    have tail_lower : (toLower rest).take (width - 1) = tail.map lowerByte := by
      rw [← tail_eq, map_take]
      rfl
    rw [tail_lower, ← map_take, ← map_drop, length_map, all_map, all_map]
    simp only [Function.comp_def, lowerByte_within outside,
      lowerByte_within (show (0x80 : UInt8) ≤ 0x80 by decide)]
    split
    case isFalse => rfl
    case isTrue valid =>
      simp only [Bool.and_eq_true, all_eq_true, decide_eq_true_eq] at valid
      have bounded : ∀ byte ∈ tail, ¬ byte < 0x80 := by
        intro byte mem small
        rw [← take_append_drop 1 tail, mem_append] at mem
        rcases mem with first | later
        · exact absurd (UInt8.le_trans outside (valid.1.2 byte first).1) (UInt8.not_le.mpr small)
        · exact absurd (valid.2 byte later).1 (UInt8.not_le.mpr small)
      have unchanged : tail.map lowerByte = tail := by
        rw [map_congr_left fun byte mem => lowerByte_of_ge byte (bounded byte mem)]
        exact map_id' tail
      rw [unchanged]

/-- Lower case keeps the width of the first rune, and whether it is a space. -/
theorem decodeRune_lowerByte (lead : UInt8) (rest : Str) :
    (decodeRune (lowerByte lead) (toLower rest)).2 = (decodeRune lead rest).2 ∧
      isSpaceRune (decodeRune (lowerByte lead) (toLower rest)).1 =
        isSpaceRune (decodeRune lead rest).1 := by
  by_cases ascii : lead < 0x80
  · obtain ⟨lower, same⟩ := lowerByte_lt lead ascii
    rw [decodeRune, if_pos lower, decodeRune, if_pos ascii]
    exact ⟨rfl, same⟩
  · rw [lowerByte_of_ge lead ascii, decodeRune_toLower lead rest ascii]
    exact ⟨rfl, rfl⟩

theorem isSpaceText_toLower (s : Str) : isSpaceText (toLower s) = isSpaceText s := by
  cases s with
  | nil => rfl
  | cons lead rest =>
    obtain ⟨width, space⟩ := decodeRune_lowerByte lead rest
    change isSpaceText (lowerByte lead :: toLower rest) = _
    rw [isSpaceText, isSpaceText]
    have same_length : (toLower rest).length = rest.length := length_map _
    simp only [width, space, same_length]

theorem trimLeftAfter_toLower (skip : Nat) (s : Str) :
    trimLeftAfter skip (toLower s) = toLower (trimLeftAfter skip s) := by
  induction s generalizing skip with
  | nil => cases skip <;> rfl
  | cons lead rest ih =>
    cases skip with
    | succ skip => exact ih skip
    | zero =>
      obtain ⟨width, space⟩ := decodeRune_lowerByte lead rest
      change trimLeftAfter 0 (lowerByte lead :: toLower rest) = _
      rw [trimLeftAfter, trimLeftAfter]
      simp only [width, space, ih]
      split <;> rfl

theorem trimRightAfter_toLower (skip : Nat) (s : Str) :
    trimRightAfter skip (toLower s) = toLower (trimRightAfter skip s) := by
  induction s generalizing skip with
  | nil => cases skip <;> rfl
  | cons last rest ih =>
    cases skip with
    | succ skip => exact ih skip
    | zero =>
      have texts : ∀ width, ((lowerByte last :: toLower rest).take width).reverse =
          toLower ((last :: rest).take width).reverse := fun width => by
        simp only [toLower_eq, ← map_take, ← map_cons, map_reverse]
      change trimRightAfter 0 (lowerByte last :: toLower rest) = _
      rw [trimRightAfter, trimRightAfter]
      simp only [texts, isSpaceText_toLower, ih]
      cases [1, 2, 3].find? fun width => isSpaceText ((last :: rest).take width).reverse <;> rfl

theorem trimSpace_toLower (s : Str) : trimSpace (toLower s) = toLower (trimSpace s) := by
  have reversed (text : Str) : (toLower text).reverse = toLower text.reverse := by
    simp only [toLower_eq, map_reverse]
  rw [trimSpace, trimSpace, trimLeftAfter_toLower, reversed, trimRightAfter_toLower, reversed]

theorem trimRightAfter_trimRightAfter (skip : Nat) (s : Str) :
    trimRightAfter 0 (trimRightAfter skip s) = trimRightAfter skip s := by
  induction s generalizing skip with
  | nil => cases skip <;> rfl
  | cons last rest ih =>
    cases skip with
    | succ skip => exact ih skip
    | zero =>
      rw [trimRightAfter]
      split
      case h_1 width _ => exact ih _
      case h_2 stops => rw [trimRightAfter, stops]

theorem trimRightAfter_suffix (skip : Nat) (s : Str) : trimRightAfter skip s <:+ s := by
  induction s generalizing skip with
  | nil => cases skip <;> exact suffix_refl _
  | cons last rest ih =>
    cases skip with
    | succ skip => exact (ih skip).trans (suffix_cons _ _)
    | zero =>
      rw [trimRightAfter]
      split
      case h_1 width _ => exact (ih _).trans (suffix_cons _ _)
      case h_2 => exact suffix_refl _

theorem trimLeftAfter_eq_self {lead : UInt8} {rest : Str}
    (solid : isSpaceRune (decodeRune lead rest).1 = false) :
    trimLeftAfter 0 (lead :: rest) = lead :: rest := by
  rw [trimLeftAfter]
  simp [solid]

theorem trimLeftAfter_cons {skip : Nat} {s : Str} {lead : UInt8} {rest : Str}
    (trimmed : trimLeftAfter skip s = lead :: rest) :
    isSpaceRune (decodeRune lead rest).1 = false := by
  induction s generalizing skip with
  | nil => cases skip <;> cases trimmed
  | cons first others ih =>
    cases skip with
    | succ skip => exact ih trimmed
    | zero =>
      rw [trimLeftAfter] at trimmed
      dsimp only at trimmed
      split at trimmed
      case isTrue => exact ih trimmed
      case isFalse solid =>
        obtain ⟨rfl, rfl⟩ := List.cons.inj trimmed
        simpa using solid

theorem decodeRune_take {lead : UInt8} {rest : Str}
    (solid : isSpaceRune (decodeRune lead rest).1 = false) (count : Nat) :
    isSpaceRune (decodeRune lead (rest.take count)).1 = false := by
  have error : isSpaceRune runeError = false := by decide
  rw [decodeRune] at solid ⊢
  split
  case isTrue ascii => simpa [ascii] using solid
  case isFalse high =>
    rw [if_neg high] at solid
    cases starts : runeLead lead with
    | none => exact error
    | some bounds =>
      obtain ⟨width, low, top⟩ := bounds
      rw [starts] at solid
      dsimp only at solid ⊢
      by_cases whole : width - 1 ≤ count
      · rw [take_take, min_eq_left whole]
        exact solid
      · have short : ((rest.take count).take (width - 1)).length ≠ width - 1 := by
          simp only [length_take]
          omega
        rw [decide_eq_false short]
        exact error

theorem trimSpace_trimSpace (s : Str) : trimSpace (trimSpace s) = trimSpace s := by
  have front : trimLeftAfter 0 (trimSpace s) = trimSpace s := by
    rw [trimSpace]
    cases trimmed : trimLeftAfter 0 s with
    | nil => rfl
    | cons lead rest =>
      have solid := trimLeftAfter_cons trimmed
      have short := reverse_prefix.mpr (trimRightAfter_suffix 0 (lead :: rest).reverse)
      rw [reverse_reverse] at short
      cases cut_eq : (trimRightAfter 0 (lead :: rest).reverse).reverse with
      | nil => rfl
      | cons first others =>
        rw [cut_eq] at short
        obtain ⟨rfl, front⟩ := cons_prefix_cons.mp short
        rw [prefix_iff_eq_take.mp front]
        exact trimLeftAfter_eq_self (decodeRune_take solid _)
  rw [trimSpace, front, trimSpace, reverse_reverse, trimRightAfter_trimRightAfter]

/-- `unicode.ToLower`. -/
structure CaseTable where
  /-- The lower case of a rune. -/
  lower : Nat → Nat
  ascii : ∀ rune < 128, lower rune = if 65 ≤ rune ∧ rune ≤ 90 then rune + 32 else rune

/-- The table that only changes runes with a lower case in ASCII. -/
def CaseTable.basic : CaseTable where
  lower := toLowerRune
  ascii rune small := by
    rw [toLowerRune, if_neg (show rune ≠ 0x130 by omega), if_neg (show rune ≠ 0x212A by omega)]

/-- `utf8.AppendRune`: surrogates and what exceeds the last rune are written as `RuneError`. -/
def encodeRune (rune : Nat) : Str :=
  let continuation (shift : Nat) : UInt8 := UInt8.ofNat (0x80 + rune / 64 ^ shift % 64)
  if rune < 0x80 then [UInt8.ofNat rune]
  else if rune < 0x800 then [UInt8.ofNat (0xC0 + rune / 64), continuation 0]
  else if 0xD800 ≤ rune ∧ rune ≤ 0xDFFF ∨ 0x10FFFF < rune then [0xEF, 0xBF, 0xBD]
  else if rune < 0x10000 then [UInt8.ofNat (0xE0 + rune / 64 ^ 2), continuation 1, continuation 0]
  else [UInt8.ofNat (0xF0 + rune / 64 ^ 3), continuation 2, continuation 1, continuation 0]

/-- `strings.ToLower`.  A byte outside every valid encoding becomes a `RuneError`. -/
def CaseTable.toLower (unicode : CaseTable) (s : Str) : Str :=
  (runes s).flatMap fun rune => encodeRune (unicode.lower rune)

theorem decodeRune_width_le (lead : UInt8) (rest : Str) :
    (decodeRune lead rest).2 - 1 ≤ rest.length := by
  unfold decodeRune
  split
  · simp
  · cases runeLead lead with
    | none => simp
    | some bounds =>
      dsimp only
      split
      case isFalse => simp
      case isTrue valid =>
        simp only [Bool.and_eq_true, decide_eq_true_eq, length_take] at valid
        omega

section Append

variable {byte : UInt8} (ascii : byte < 0x80)

include ascii

/-- No encoding reaches over an ASCII byte. -/
theorem decodeRune_append (lead : UInt8) (rest more : Str) :
    decodeRune lead (rest ++ byte :: more) = decodeRune lead rest := by
  rw [decodeRune, decodeRune]
  split
  · rfl
  · cases starts : runeLead lead with
    | none => rfl
    | some bounds =>
      obtain ⟨width, low, high⟩ := bounds
      have outside := UInt8.le_iff_toNat_le.mp (runeLead_low starts)
      have small := UInt8.lt_iff_toNat_lt.mp ascii
      simp only [UInt8.reduceToNat] at outside small
      dsimp only
      by_cases short : width - 1 ≤ rest.length
      · rw [take_append_of_le_length short]
      · have not_low : ¬ low ≤ byte := by
          rw [UInt8.le_iff_toNat_le]
          omega
        have not_first : ¬ 0x80 ≤ byte := UInt8.not_le.mpr ascii
        obtain ⟨extra, extra_eq⟩ : ∃ extra, width - 1 = rest.length + (extra + 1) :=
          ⟨width - 1 - rest.length - 1, by omega⟩
        have tail : (rest ++ byte :: more).take (width - 1) = rest ++ byte :: more.take extra := by
          rw [extra_eq, take_length_add_append, take_succ_cons]
        -- the encoding would have to contain the byte
        have invalid : ((rest ++ byte :: more.take extra).take 1).all
              (fun byte => decide (low ≤ byte) && decide (byte ≤ high)) = false ∨
            ((rest ++ byte :: more.take extra).drop 1).all
              (fun byte => decide (0x80 ≤ byte) && decide (byte ≤ 0xBF)) = false := by
          cases rest <;> simp [not_low, not_first]
        have cut : ¬ (rest.take (width - 1)).length = width - 1 := by
          rw [length_take]
          omega
        rw [tail, decide_eq_false cut]
        rcases invalid with first | later
        · rw [first]
          simp
        · rw [later, Bool.and_false]
          simp

theorem runesAfter_append {skip : Nat} {s : Str} (inside : skip ≤ s.length) (more : Str) :
    runesAfter skip (s ++ byte :: more) = runesAfter skip s ++ byte.toNat :: runes more := by
  induction s generalizing skip with
  | nil =>
    obtain rfl := Nat.le_zero.mp inside
    have first : decodeRune byte more = (byte.toNat, 1) := by rw [decodeRune, if_pos ascii]
    simp [runesAfter, runes, first]
  | cons lead rest ih =>
    rw [cons_append]
    cases skip with
    | succ skip => exact ih (Nat.le_of_succ_le_succ inside)
    | zero =>
      simp only [runesAfter, decodeRune_append ascii, ih (decodeRune_width_le lead rest),
        cons_append]

end Append

namespace CaseTable

variable (unicode : CaseTable)

theorem lower_byte {byte : UInt8} (ascii : byte < 0x80) :
    unicode.lower byte.toNat = (lowerByte byte).toNat := by
  have each : ∀ byte : UInt8, (if 65 ≤ byte.toNat ∧ byte.toNat ≤ 90 then byte.toNat + 32
      else byte.toNat) = (lowerByte byte).toNat := forall_byte _ (by decide +kernel)
  rw [unicode.ascii _ (UInt8.lt_iff_toNat_lt.mp ascii), each]

theorem toLower_append {byte : UInt8} (ascii : byte < 0x80) (s more : Str) :
    unicode.toLower (s ++ byte :: more) =
      unicode.toLower s ++ lowerByte byte :: unicode.toLower more := by
  have written : encodeRune (unicode.lower byte.toNat) = [lowerByte byte] := by
    have small := UInt8.lt_iff_toNat_lt.mp (lowerByte_lt byte ascii).1
    rw [unicode.lower_byte ascii, encodeRune]
    exact (if_pos small).trans (by rw [UInt8.ofNat_toNat])
  rw [toLower, runes, runesAfter_append ascii (Nat.zero_le _), flatMap_append,
    flatMap_cons, written]
  rfl

theorem toLower_of_ascii {s : Str} (ascii : ∀ byte ∈ s, byte < 0x80) :
    unicode.toLower s = Go.toLower s := by
  induction s with
  | nil => rfl
  | cons byte rest ih =>
    have split := unicode.toLower_append (ascii byte mem_cons_self) [] rest
    rw [nil_append] at split
    rw [split, ih fun other mem => ascii other (mem_cons_of_mem _ mem)]
    rfl

/-- Runes outside ASCII have no byte that an ASCII letter has. -/
theorem lower_runesAfter (skip : Nat) (s : Str) :
    (runesAfter skip (Go.toLower s)).map unicode.lower = (runesAfter skip s).map unicode.lower := by
  induction s generalizing skip with
  | nil => cases skip <;> rfl
  | cons lead rest ih =>
    cases skip with
    | succ skip => exact ih skip
    | zero =>
      change (runesAfter 0 (lowerByte lead :: Go.toLower rest)).map unicode.lower = _
      rw [runesAfter, runesAfter]
      simp only [map_cons, (decodeRune_lowerByte lead rest).1, ih]
      congr 1
      by_cases ascii : lead < 0x80
      · have lowered := (lowerByte_lt lead ascii).1
        rw [decodeRune, if_pos lowered, decodeRune, if_pos ascii, unicode.lower_byte lowered,
          lowerByte_lowerByte, unicode.lower_byte ascii]
      · rw [lowerByte_of_ge lead ascii, decodeRune_toLower lead rest ascii]

theorem toLower_toLower (s : Str) : unicode.toLower (Go.toLower s) = unicode.toLower s := by
  have mapped := congrArg (List.flatMap encodeRune) (unicode.lower_runesAfter 0 s)
  rwa [flatMap_map, flatMap_map] at mapped

end CaseTable

end Go
