import DatawerxMesh.Library.Sorting
import Mathlib.Tactic.IntervalCases

/-!
# Go strings

A Go string is a sequence of bytes with bytewise lexicographic order.  This file has the decimal
conversions and the small string functions that the planners call.
-/

namespace Go

/-- A Go string: an arbitrary byte sequence, not necessarily UTF-8. -/
abbrev Str := List UInt8

instance : LawfulBEq Str := List.instLawfulBEq

/-- The bytes of a source literal. -/
def str (literal : String) : Str := literal.toUTF8.data.toList

/-- A literal stands for its bytes where a string is expected. -/
instance : Coe String Str := ⟨str⟩

/-- The `<` operator on strings. -/
def less (left right : Str) : Bool := decide (left < right)

theorem less_orders : Sorting.Orders less id where
  asymm left right before := by
    simp only [less, decide_eq_true_eq, decide_eq_false_iff_not] at *
    exact List.lt_asymm before
  le_trans first second third not_before not_after := by
    simp only [less, decide_eq_false_iff_not] at *
    exact List.le_trans not_before not_after
  ties left right not_before not_after := by
    simp only [less, decide_eq_false_iff_not] at *
    exact List.le_antisymm not_after not_before

/-- `sort.Strings`. -/
def sortStrings (strings : List Str) : List Str := Sorting.sort less strings

/-- `strings.Contains` for a one-byte needle. -/
def containsByte (s : Str) (byte : UInt8) : Bool := s.any (· == byte)

/-- `strings.Contains`. -/
def contains (s needle : Str) : Bool := s.tails.any fun tail => tail.take needle.length == needle

/-- `strings.HasPrefix`. -/
def hasPrefix (s start : Str) : Bool := s.take start.length == start

theorem hasPrefix_iff {s start : Str} : hasPrefix s start = true ↔ start <+: s := by
  rw [hasPrefix, beq_iff_eq, List.prefix_iff_eq_take, eq_comm]

/-- `strings.HasSuffix`. -/
def hasSuffix (s suffix : Str) : Bool := suffix.isSuffixOf s

/-- `strings.TrimSuffix`. -/
def trimSuffix (s suffix : Str) : Str :=
  if hasSuffix s suffix then s.take (s.length - suffix.length) else s

theorem hasSuffix_iff {s suffix : Str} : hasSuffix s suffix = true ↔ suffix <:+ s :=
  List.isSuffixOf_iff_suffix

theorem trimSuffix_append (front suffix : Str) : trimSuffix (front ++ suffix) suffix = front := by
  rw [trimSuffix, if_pos (hasSuffix_iff.mpr ⟨front, rfl⟩)]
  simp

/-- `strings.Cut` around the first separator byte. -/
def cut (separator : UInt8) : Str → Option (Str × Str)
  | [] => none
  | byte :: rest =>
    if byte = separator then some ([], rest)
    else (cut separator rest).map fun (before, after) => (byte :: before, after)

/-- The strings with a separator between them. -/
def join (separator : Str) : List Str → Str
  | [] => []
  | [last] => last
  | first :: rest => first ++ separator ++ join separator rest

/-- The `%v` verb on a slice of strings. -/
def sprintSlice (strings : List Str) : Str := str "[" ++ join (str " ") strings ++ str "]"

/-- `strings.ToLower` on ASCII text. -/
def toLower (s : Str) : Str := s.map fun byte => if 65 ≤ byte ∧ byte ≤ 90 then byte + 32 else byte

/-- `strings.TrimRight` of a byte. -/
def trimRight (byte : UInt8) (s : Str) : Str := (s.reverse.dropWhile (· == byte)).reverse

/-- `strings.Trim` with a one-byte cutset. -/
def trim (byte : UInt8) (s : Str) : Str := trimRight byte (s.dropWhile (· == byte))

theorem forall_byte (holds : UInt8 → Prop) (all : ∀ n < 256, holds (UInt8.ofNat n))
    (byte : UInt8) : holds byte := by
  rw [← UInt8.ofNat_toNat (x := byte)]
  exact all _ byte.toNat_lt

/-- `utf8.RuneError`, which stands for a byte outside every valid encoding. -/
def runeError : Nat := 0xFFFD

/-- The length of the encoding that a byte starts, and the bounds of the byte after it. -/
def runeLead (lead : UInt8) : Option (Nat × UInt8 × UInt8) :=
  if lead < 0xC2 then none
  else if lead < 0xE0 then some (2, 0x80, 0xBF)
  else if lead = 0xE0 then some (3, 0xA0, 0xBF)
  else if lead = 0xED then some (3, 0x80, 0x9F)
  else if lead < 0xF0 then some (3, 0x80, 0xBF)
  else if lead = 0xF0 then some (4, 0x90, 0xBF)
  else if lead < 0xF4 then some (4, 0x80, 0xBF)
  else if lead = 0xF4 then some (4, 0x80, 0x8F)
  else none

/-- `utf8.DecodeRuneInString`: the first rune and its width. -/
def decodeRune (lead : UInt8) (rest : Str) : Nat × Nat :=
  if lead < 0x80 then (lead.toNat, 1)
  else
    match runeLead lead with
    | none => (runeError, 1)
    | some (width, low, high) =>
      let tail := rest.take (width - 1)
      let valid := decide (tail.length = width - 1) &&
        (tail.take 1).all (fun byte => decide (low ≤ byte) && decide (byte ≤ high)) &&
        (tail.drop 1).all fun byte => decide (0x80 ≤ byte) && decide (byte ≤ 0xBF)
      if valid then
        (tail.foldl (fun value byte => value * 64 + byte.toNat % 64)
          (lead.toNat % 2 ^ (7 - width)), width)
      else (runeError, 1)

/-- The runes after the given number of bytes, as `range` over a string yields them. -/
def runesAfter : Nat → Str → List Nat
  | _, [] => []
  | skip + 1, _ :: rest => runesAfter skip rest
  | 0, lead :: rest =>
    let (rune, width) := decodeRune lead rest
    rune :: runesAfter (width - 1) rest

/-- The runes that `range` over a string yields. -/
def runes (s : Str) : List Nat := runesAfter 0 s

/-- `unicode.ToLower` for the runes that it sends to ASCII, the Kelvin sign and the dotted capital I
among them. -/
def toLowerRune (rune : Nat) : Nat :=
  if 65 ≤ rune ∧ rune ≤ 90 then rune + 32
  else if rune = 0x130 then 0x69
  else if rune = 0x212A then 0x6B
  else rune

/-- `unicode.IsSpace`. -/
def isSpaceRune (rune : Nat) : Bool :=
  (decide (0x9 ≤ rune) && decide (rune ≤ 0xD)) ||
    (decide (0x2000 ≤ rune) && decide (rune ≤ 0x200A)) ||
    [0x20, 0x85, 0xA0, 0x1680, 0x2028, 0x2029, 0x202F, 0x205F, 0x3000].contains rune

/-- Whether `strings.TrimSpace` leaves nothing. -/
def isBlank (s : Str) : Bool := (runes s).all isSpaceRune

/-- The text starts with a space. -/
def isSpaceText : Str → Bool
  | [] => false
  | lead :: rest =>
    let (rune, width) := decodeRune lead rest
    decide (width = rest.length + 1) && isSpaceRune rune

/-- The text without the given number of bytes and without the spaces that follow them. -/
def trimLeftAfter : Nat → Str → Str
  | _, [] => []
  | skip + 1, _ :: rest => trimLeftAfter skip rest
  | 0, lead :: rest =>
    let (rune, width) := decodeRune lead rest
    if isSpaceRune rune then trimLeftAfter (width - 1) rest else lead :: rest

/-- The same at the end, with the bytes from the last one on.  A space has at most three bytes. -/
def trimRightAfter : Nat → Str → Str
  | _, [] => []
  | skip + 1, _ :: rest => trimRightAfter skip rest
  | 0, last :: rest =>
    match [1, 2, 3].find? fun width => isSpaceText ((last :: rest).take width).reverse with
    | some width => trimRightAfter (width - 1) rest
    | none => last :: rest

/-- `strings.TrimSpace`. -/
def trimSpace (s : Str) : Str := (trimRightAfter 0 (trimLeftAfter 0 s).reverse).reverse

/-- An ASCII byte that is not a space. -/
def isSolid (byte : UInt8) : Bool := decide (byte < 0x80) && !isSpaceRune byte.toNat

theorem decodeRune_of_solid {byte : UInt8} (solid : isSolid byte = true) (rest : Str) :
    decodeRune byte rest = (byte.toNat, 1) := by
  simp only [isSolid, Bool.and_eq_true, decide_eq_true_eq] at solid
  rw [decodeRune, if_pos solid.1]

theorem trimSpace_eq_self {s : Str} (solid : ∀ byte ∈ s, isSolid byte = true) :
    trimSpace s = s := by
  have no_space : ∀ {byte}, isSolid byte = true → isSpaceRune byte.toNat = false := by
    intro byte here
    simp only [isSolid, Bool.and_eq_true, Bool.not_eq_true'] at here
    exact here.2
  have front : trimLeftAfter 0 s = s := by
    cases s with
    | nil => rfl
    | cons lead rest =>
      have here := solid lead List.mem_cons_self
      simp [trimLeftAfter, decodeRune_of_solid here, no_space here]
  have no_end : ∀ {text : Str}, (∀ byte ∈ text, isSolid byte = true) →
      isSpaceText text = false := by
    intro text solid
    cases text with
    | nil => rfl
    | cons lead rest =>
      have here := solid lead List.mem_cons_self
      simp [isSpaceText, decodeRune_of_solid here, no_space here]
  have back : trimRightAfter 0 s.reverse = s.reverse := by
    cases reversed : s.reverse with
    | nil => rfl
    | cons last rest =>
      have nothing : [1, 2, 3].find? (fun width =>
          isSpaceText ((last :: rest).take width).reverse) = none := by
        refine List.find?_eq_none.mpr fun width _ => ?_
        rw [no_end fun byte mem => solid byte ?_]
        · exact Bool.false_ne_true
        · rw [← List.mem_reverse, reversed]
          exact List.mem_of_mem_take (List.mem_reverse.mp mem)
      rw [trimRightAfter, nothing]
  rw [trimSpace, front, back, List.reverse_reverse]

theorem trimSpace_of_toLower {s : Str} (solid : ∀ byte ∈ toLower s, isSolid byte = true) :
    trimSpace s = s := by
  refine trimSpace_eq_self fun byte mem => ?_
  have lowered := solid _ (List.mem_map_of_mem
    (f := fun byte => if 65 ≤ byte ∧ byte ≤ 90 then byte + 32 else byte) mem)
  by_cases capital : 65 ≤ byte ∧ byte ≤ 90
  · have range : ∀ n, 65 ≤ n → n ≤ 90 → isSpaceRune n = false := by
      intro n above below
      interval_cases n <;> rfl
    simp only [UInt8.le_iff_toNat_le, UInt8.reduceToNat] at capital
    have ascii : byte < 0x80 := by
      simp only [UInt8.lt_iff_toNat_lt, UInt8.reduceToNat]
      omega
    simp [isSolid, ascii, range _ capital.1 capital.2]
  · rwa [if_neg capital] at lowered

/-- A decimal digit. -/
def isDigit (byte : UInt8) : Bool := decide (48 ≤ byte) && decide (byte ≤ 57)

/-- The value of a digit. -/
def digitValue (byte : UInt8) : Nat := byte.toNat - 48

/-- The byte of a decimal digit. -/
def digit (value : Nat) : UInt8 := UInt8.ofNat (48 + value)

/-- `strconv.Itoa` on a non-negative number. -/
def itoa (n : Nat) : Str := (Nat.toDigits 10 n).map fun char => UInt8.ofNat char.toNat

/-- `strconv.Itoa`. -/
def itoaInt : Int → Str
  | .ofNat n => itoa n
  | .negSucc n => 45 :: itoa (n + 1)

/-- The loop of `dtoi`: the leading digits and the text after them, below `0xFFFFFF`. -/
def dtoiLoop (value : Nat) : Str → Option (Nat × Str)
  | [] => some (value, [])
  | byte :: rest =>
    if isDigit byte then
      let next := value * 10 + digitValue byte
      if 0xFFFFFF ≤ next then none else dtoiLoop next rest
    else some (value, byte :: rest)

/-- `dtoi`, which needs at least one digit. -/
def dtoi : Str → Option (Nat × Str)
  | [] => none
  | byte :: rest => if isDigit byte then dtoiLoop 0 (byte :: rest) else none

theorem isDigit_digit {value : Nat} (small : value < 10) : isDigit (digit value) = true := by
  interval_cases value <;> rfl

theorem digitValue_digit {value : Nat} (small : value < 10) : digitValue (digit value) = value := by
  interval_cases value <;> rfl

theorem itoa_of_lt {n : Nat} (small : n < 10) : itoa n = [digit n] := by
  interval_cases n <;> rfl

theorem itoa_of_ge {n : Nat} (large : 10 ≤ n) : itoa n = itoa (n / 10) ++ [digit (n % 10)] := by
  have last_lt : n % 10 < 10 := Nat.mod_lt _ (by decide)
  rw [itoa, Nat.toDigits_eq_if (by decide), if_neg (by omega), List.map_append]
  congr 1
  generalize n % 10 = last at last_lt ⊢
  interval_cases last <;> rfl

theorem isDigit_of_mem_itoa {n : Nat} {byte : UInt8} (mem : byte ∈ itoa n) :
    isDigit byte = true := by
  induction n using Nat.strongRecOn with
  | ind n ih =>
    by_cases small : n < 10
    · rw [itoa_of_lt small, List.mem_singleton] at mem
      rw [mem]
      exact isDigit_digit small
    · rw [itoa_of_ge (by omega), List.mem_append, List.mem_singleton] at mem
      rcases mem with earlier | rfl
      · exact ih (n / 10) (by omega) earlier
      · exact isDigit_digit (Nat.mod_lt _ (by decide))

theorem itoa_ne_nil (n : Nat) : itoa n ≠ [] := by
  by_cases small : n < 10
  · simp [itoa_of_lt small]
  · simp [itoa_of_ge (Nat.le_of_not_lt small)]

theorem itoa_injective {m n : Nat} (same : itoa m = itoa n) : m = n := by
  induction m using Nat.strongRecOn generalizing n with
  | ind m ih =>
    have digits : ∀ {k : Nat}, k < 10 → ∀ {l : Nat}, l < 10 → digit k = digit l → k = l := by
      intro k small l small' same
      rw [← digitValue_digit small, same, digitValue_digit small']
    have longer : ∀ {k : Nat}, 10 ≤ k → ∀ {l : Nat}, l < 10 → itoa k ≠ itoa l := by
      intro k large l small same
      rw [itoa_of_ge large, itoa_of_lt small] at same
      exact itoa_ne_nil _ (List.append_eq_singleton_iff.mp same |>.elim (·.1) fun split =>
        absurd split.2 (by simp))
    by_cases small : m < 10
    · by_cases small' : n < 10
      · rw [itoa_of_lt small, itoa_of_lt small', List.singleton_inj] at same
        exact digits small small' same
      · exact absurd same.symm (longer (Nat.le_of_not_lt small') small)
    · by_cases small' : n < 10
      · exact absurd same (longer (Nat.le_of_not_lt small) small')
      · rw [itoa_of_ge (Nat.le_of_not_lt small), itoa_of_ge (Nat.le_of_not_lt small')] at same
        obtain ⟨front, last⟩ := List.append_inj' same rfl
        have quotient := ih (m / 10) (by omega) front
        have remainder := digits (Nat.mod_lt m (by decide)) (Nat.mod_lt n (by decide))
          (List.singleton_inj.mp last)
        omega

theorem itoaInt_eq_itoa_iff {number : Int} {n : Nat} : itoaInt number = itoa n ↔ number = n := by
  cases number with
  | ofNat m =>
    rw [Int.ofNat_eq_natCast, Int.natCast_inj]
    exact ⟨itoa_injective, fun same => same ▸ rfl⟩
  | negSucc m =>
    refine iff_of_false (fun same => ?_) (by omega)
    have sign : (45 : UInt8) ∈ itoa n := by
      rw [← same]
      exact List.mem_cons_self
    cases isDigit_of_mem_itoa sign

theorem itoaInt_ne_nil (number : Int) : itoaInt number ≠ [] := by
  cases number with
  | ofNat n => exact itoa_ne_nil n
  | negSucc n => exact List.cons_ne_nil _ _

theorem mem_itoaInt {number : Int} {byte : UInt8} (mem : byte ∈ itoaInt number) :
    isDigit byte = true ∨ byte = 45 := by
  cases number with
  | ofNat n => exact Or.inl (isDigit_of_mem_itoa mem)
  | negSucc n => exact (List.mem_cons.mp mem).symm.imp_left isDigit_of_mem_itoa

theorem itoaInt_injective {left right : Int} (same : itoaInt left = itoaInt right) :
    left = right := by
  cases right with
  | ofNat n => exact itoaInt_eq_itoa_iff.mp same
  | negSucc n =>
    cases left with
    | ofNat m => exact (itoaInt_eq_itoa_iff.mp same.symm).symm
    | negSucc m =>
      have digits := itoa_injective (List.cons.inj same).2
      omega

theorem dtoiLoop_itoa {n : Nat} (bounded : n < 0xFFFFFF) (rest : Str) :
    dtoiLoop 0 (itoa n ++ rest) = dtoiLoop n rest := by
  induction n using Nat.strongRecOn generalizing rest with
  | ind n ih =>
    by_cases small : n < 10
    · rw [itoa_of_lt small, List.singleton_append, dtoiLoop, if_pos (isDigit_digit small)]
      simp only [digitValue_digit small, Nat.zero_mul, Nat.zero_add]
      rw [if_neg (by omega)]
    · have last_lt : n % 10 < 10 := Nat.mod_lt _ (by decide)
      rw [itoa_of_ge (by omega), List.append_assoc, ih (n / 10) (by omega) (by omega),
        List.singleton_append, dtoiLoop, if_pos (isDigit_digit last_lt)]
      have rebuilt : n / 10 * 10 + n % 10 = n := by omega
      simp only [digitValue_digit last_lt, rebuilt]
      rw [if_neg (by omega)]

theorem dtoi_itoa {n : Nat} (bounded : n < 0xFFFFFF) : dtoi (itoa n) = some (n, []) := by
  have read := dtoiLoop_itoa bounded []
  rw [List.append_nil] at read
  cases rendered : itoa n with
  | nil => exact absurd rendered (itoa_ne_nil n)
  | cons byte rest =>
    have first_digit : isDigit byte = true :=
      isDigit_of_mem_itoa (n := n) (by rw [rendered]; exact List.mem_cons_self)
    rw [dtoi, if_pos first_digit, ← rendered, read]
    rfl

end Go
