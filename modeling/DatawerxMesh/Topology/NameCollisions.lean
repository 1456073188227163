import DatawerxMesh.Go.Hash
import DatawerxMesh.Library.Joining

/-!
# Object names for cluster IDs

`SanitizeName` of `pkg/topology/plan.go`.  A cluster ID that is a usable name keeps it; any other
one is rewritten and gets a short hash of the original.  The hash keeps rewritten IDs apart from
each other, but not from IDs that are left as they are.
-/

namespace DatawerxMesh.Topology

open Go Joining List

/-- The longest name. -/
def maxSanitizedNameLen : Nat := 253

/-- The byte that the loop of `SanitizeName` writes for a lower-case rune. -/
def sanitizeRune (rune : Nat) : UInt8 :=
  if 97 ≤ rune ∧ rune ≤ 122 ∨ 48 ≤ rune ∧ rune ≤ 57 then UInt8.ofNat rune else 45

/-- `SanitizeName`.  Runes outside ASCII become `-` in either case, unless they are lowered into
ASCII. -/
def sanitizeName (id : Str) : Str :=
  let out := trim 45 ((runes id).map fun rune => sanitizeRune (toLowerRune rune))
  if out = [] then "peer"
  else if out = id ∧ out.length ≤ maxSanitizedNameLen then out
  else
    let suffix := "-" ++ (hexEncode (sha256 id)).take 8
    let maxBase := maxSanitizedNameLen - suffix.length
    let out := if maxBase < out.length then trimRight 45 (out.take maxBase) else out
    out ++ suffix

/-- The hash that `SanitizeName` appends. -/
def shortHash (id : Str) : Str := (hexEncode (sha256 id)).take 8

/-- What is left of an ID after rewriting and trimming. -/
def cleaned (id : Str) : Str :=
  trim 45 ((runes id).map fun rune => sanitizeRune (toLowerRune rune))

/-- The cleaned ID, cut so that a suffix of the given length fits behind it. -/
def cutFor (suffixLen : Nat) (id : Str) : Str :=
  if maxSanitizedNameLen - suffixLen < (cleaned id).length then
    trimRight 45 ((cleaned id).take (maxSanitizedNameLen - suffixLen))
  else cleaned id

/-- A rewritten name: the cut ID, a dash and the digest. -/
def rewrittenName (digest : Str → Str) (id : Str) : Str :=
  cutFor (digest id).length.succ id ++ 45 :: digest id

/-- The ID is a usable name already. -/
def Clean (id : Str) : Prop := cleaned id = id ∧ id.length ≤ maxSanitizedNameLen

instance (id : Str) : Decidable (Clean id) := inferInstanceAs (Decidable (_ ∧ _))

/-- `SanitizeName` with any digest in the place of the short hash. -/
def sanitizeNameWith (digest : Str → Str) (id : Str) : Str :=
  if cleaned id = [] then "peer"
  else if Clean id then id
  else rewrittenName digest id

theorem sanitizeName_eq (id : Str) : sanitizeName id = sanitizeNameWith shortHash id := by
  have read : sanitizeName id = if cleaned id = [] then str "peer"
      else if cleaned id = id ∧ (cleaned id).length ≤ maxSanitizedNameLen then cleaned id
      else cutFor (str "-" ++ shortHash id).length id ++ (str "-" ++ shortHash id) := rfl
  have length_eq : (str "-" ++ shortHash id).length = (shortHash id).length.succ := by
    rw [length_append, Nat.add_comm]
    rfl
  rw [read, sanitizeNameWith, length_eq]
  split
  · rfl
  · have clean_iff : cleaned id = id ∧ (cleaned id).length ≤ maxSanitizedNameLen ↔ Clean id :=
      and_congr_right fun same => by rw [same]
    by_cases clean : Clean id
    · rw [if_pos (clean_iff.mpr clean), if_pos clean]
      exact clean.1
    · rw [if_neg (fun both => clean (clean_iff.mp both)), if_neg clean]
      rfl

/-- A lower-case letter, a digit or a dash. -/
def isNameByte (byte : UInt8) : Bool :=
  decide (97 ≤ byte) && decide (byte ≤ 122) || decide (48 ≤ byte) && decide (byte ≤ 57) ||
    byte == 45

/-- The ID can be used in a DNS name as it is. -/
structure DnsSafe (id : Str) : Prop where
  chars : ∀ byte ∈ id, isNameByte byte = true
  nonempty : id ≠ []
  starts : id.head? ≠ some 45
  ends : id.getLast? ≠ some 45
  short : id.length ≤ maxSanitizedNameLen

theorem sanitizeRune_of_isNameByte : ∀ byte : UInt8, isNameByte byte = true →
    byte < 0x80 ∧ sanitizeRune (toLowerRune byte.toNat) = byte :=
  forall_byte (fun byte => isNameByte byte = true →
    byte < 0x80 ∧ sanitizeRune (toLowerRune byte.toNat) = byte) (by decide +kernel)

theorem map_runes_of_chars {id : Str} (chars : ∀ byte ∈ id, isNameByte byte = true) :
    (runes id).map (fun rune => sanitizeRune (toLowerRune rune)) = id := by
  rw [runes]
  induction id with
  | nil => rfl
  | cons lead rest ih =>
    obtain ⟨ascii, kept⟩ := sanitizeRune_of_isNameByte lead (chars lead mem_cons_self)
    rw [runesAfter, decodeRune, if_pos ascii]
    dsimp only
    rw [map_cons, kept, ih fun byte mem => chars byte (mem_cons_of_mem _ mem)]

theorem dropWhile_eq_self {byte : UInt8} {s : Str} (starts : s.head? ≠ some byte) :
    s.dropWhile (· == byte) = s := by
  cases s with
  | nil => rfl
  | cons first rest =>
    refine dropWhile_cons_of_neg fun same => starts ?_
    rw [List.head?_cons, eq_of_beq same]

theorem cleaned_of_dnsSafe {id : Str} (safe : DnsSafe id) : cleaned id = id := by
  rw [cleaned, map_runes_of_chars safe.chars, trim, dropWhile_eq_self safe.starts, trimRight,
    dropWhile_eq_self, reverse_reverse]
  rw [List.head?_reverse]
  exact safe.ends

theorem sanitizeName_of_dnsSafe {id : Str} (safe : DnsSafe id) : sanitizeName id = id := by
  have clean := cleaned_of_dnsSafe safe
  rw [sanitizeName_eq, sanitizeNameWith, if_neg, if_pos ⟨clean, safe.short⟩]
  rw [clean]
  exact safe.nonempty

/-- Both IDs have the fallback name, or one of them spells the rewritten name of the other. -/
def Collapse (digest : Str → Str) (x y : Str) : Prop :=
  (cleaned x = [] ∨ x = "peer") ∧ (cleaned y = [] ∨ y = "peer") ∨
    (Clean x ∧ cleaned y ≠ [] ∧ ¬ Clean y ∧ x = rewrittenName digest y) ∨
    Clean y ∧ cleaned x ≠ [] ∧ ¬ Clean x ∧ y = rewrittenName digest x

/-- The two IDs are rewritten to the same text with the same digest. -/
def DigestsMeet (digest : Str → Str) (x y : Str) : Prop :=
  (cleaned x ≠ [] ∧ ¬ Clean x) ∧ (cleaned y ≠ [] ∧ ¬ Clean y) ∧ digest x = digest y ∧
    cutFor (digest x).length.succ x = cutFor (digest y).length.succ y

theorem cleaned_peer : cleaned "peer" = "peer" := by decide

section Digest

variable {digest : Str → Str} (plain : ∀ id, 45 ∉ digest id) {x y : Str}

include plain

theorem rewrittenName_inj :
    rewrittenName digest x = rewrittenName digest y ↔ digest x = digest y ∧
      cutFor (digest x).length.succ x = cutFor (digest y).length.succ y := by
  rw [rewrittenName, rewrittenName]
  constructor
  · intro same
    obtain ⟨cut_eq, digest_eq⟩ := append_cons_inj_of_absent (plain x) (plain y) same
    exact ⟨digest_eq, cut_eq⟩
  · rintro ⟨digest_eq, cut_eq⟩
    rw [cut_eq, digest_eq]

omit plain in
theorem rewrittenName_ne_peer (id : Str) : rewrittenName digest id ≠ "peer" := by
  intro same
  have dash : 45 ∈ rewrittenName digest id := by simp [rewrittenName]
  rw [same] at dash
  exact absurd dash (by decide)

/-- Different IDs have one name exactly when they collapse or their digests meet. -/
theorem sanitizeNameWith_eq_iff (different : x ≠ y) :
    sanitizeNameWith digest x = sanitizeNameWith digest y ↔
      Collapse digest x y ∨ DigestsMeet digest x y := by
  have peer_clean : Clean "peer" := ⟨cleaned_peer, by decide⟩
  have peer_kept : cleaned "peer" ≠ [] := by
    rw [cleaned_peer]
    decide
  have inj := @rewrittenName_inj digest plain x y
  have x_not_peer := @rewrittenName_ne_peer digest x
  have y_not_peer := @rewrittenName_ne_peer digest y
  have x_not_empty : rewrittenName digest x ≠ [] := by simp [rewrittenName]
  have y_not_empty : rewrittenName digest y ≠ [] := by simp [rewrittenName]
  have empty_of_clean : ∀ id, cleaned id = [] → Clean id → id = [] := fun id empty clean =>
    clean.1.symm.trans empty
  unfold sanitizeNameWith Collapse DigestsMeet
  -- by the branches in which the two names are made
  by_cases x_empty : cleaned x = []
  · rw [if_pos x_empty]
    by_cases y_empty : cleaned y = []
    · simp [x_empty, y_empty]
    · rw [if_neg y_empty]
      split
      case isTrue y_clean => grind
      case isFalse y_rewritten => grind
  · rw [if_neg x_empty]
    by_cases y_empty : cleaned y = []
    · rw [if_pos y_empty]
      split
      case isTrue x_clean => grind
      case isFalse x_rewritten => grind
    · rw [if_neg y_empty]
      by_cases x_clean : Clean x
      · rw [if_pos x_clean]
        by_cases y_clean : Clean y
        · rw [if_pos y_clean]
          grind
        · rw [if_neg y_clean]
          grind
      · rw [if_neg x_clean]
        by_cases y_clean : Clean y
        · rw [if_pos y_clean]
          grind
        · rw [if_neg y_clean, inj]
          grind

end Digest

theorem dash_not_mem_hexEncode (bytes : List UInt8) : 45 ∉ hexEncode bytes := by
  have no_dash : ∀ byte : UInt8, 45 ∉ hexEncode [byte] :=
    forall_byte (fun byte => 45 ∉ hexEncode [byte]) (by decide +kernel)
  rw [hexEncode, mem_flatMap]
  rintro ⟨byte, -, dash⟩
  exact no_dash byte (by simpa [hexEncode] using dash)

theorem dash_not_mem_shortHash (id : Str) : 45 ∉ shortHash id := fun dash =>
  dash_not_mem_hexEncode _ (mem_of_mem_take dash)

/-- Different cluster IDs have different object names exactly when they do not collapse and their
short hashes do not meet.  An injective digest without dashes leaves only the first condition. -/
theorem object_names_distinct_iff (x y : Str) (different : x ≠ y) :
    (sanitizeName x ≠ sanitizeName y ↔
      ¬ Collapse shortHash x y ∧ ¬ DigestsMeet shortHash x y) ∧
    ∀ digest : Str → Str, (∀ id, 45 ∉ digest id) → digest.Injective →
      (sanitizeNameWith digest x ≠ sanitizeNameWith digest y ↔ ¬ Collapse digest x y) := by
  refine ⟨?_, fun digest plain injective => ?_⟩
  · rw [sanitizeName_eq, sanitizeName_eq, Ne,
      sanitizeNameWith_eq_iff dash_not_mem_shortHash different, not_or]
  · rw [Ne, sanitizeNameWith_eq_iff plain different, not_or]
    exact and_iff_left fun meet => different (injective meet.2.2.1)

theorem object_names_distinct_plain :
    sanitizeName "east" ≠ sanitizeName "west" := by
  refine (object_names_distinct_iff "east" "west" (by decide)).1.mpr ⟨?_, ?_⟩
  · unfold Collapse
    decide
  · unfold DigestsMeet
    decide

/-- IDs without usable characters have one name, which is also a usable ID, and a usable ID can be
the rewritten name of another one, whose short hash is different. -/
theorem object_names_collide :
    sanitizeName "!!!" = "peer" ∧ sanitizeName "???" = "peer" ∧
      sanitizeName "peer" = "peer" ∧
      sanitizeName "cluster_a" = "cluster-a-4da1daf3" ∧
      sanitizeName "cluster-a-4da1daf3" = "cluster-a-4da1daf3" ∧
      shortHash "cluster_a" ≠ shortHash "cluster-a-4da1daf3" ∧
      (∀ digest, sanitizeNameWith digest "!!!" = sanitizeNameWith digest "???") ∧
      ¬ ∀ x y : Str, x ≠ [] → y ≠ [] → x ≠ y → sanitizeName x ≠ sanitizeName y := by
  have rewritten : sanitizeName "cluster_a" = "cluster-a-4da1daf3" := by decide +kernel
  have kept : sanitizeName "cluster-a-4da1daf3" = "cluster-a-4da1daf3" := by
    decide +kernel
  refine ⟨by decide, by decide, by decide, rewritten, kept, by decide +kernel, fun digest => ?_,
    fun distinct => ?_⟩
  · rw [sanitizeNameWith, sanitizeNameWith, if_pos (by decide), if_pos (by decide)]
  · exact distinct "cluster_a" "cluster-a-4da1daf3" (by decide) (by decide) (by decide)
      (rewritten.trans kept.symm)

end DatawerxMesh.Topology
