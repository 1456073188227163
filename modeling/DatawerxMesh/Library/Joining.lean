import Mathlib.Data.List.Basic

/-!
# Texts joined by a separator

Two texts that are joined by a separator can be told apart again when the separator is absent from
one side.
-/

namespace Joining

open List

variable {α : Type} {separator : α} {left right left' right' : List α}

/-- Joined texts are the same when their parts are, or one is shifted across a separator. -/
theorem append_cons_eq_iff :
    left ++ separator :: right = left' ++ separator :: right' ↔
      left = left' ∧ right = right' ∨
      (∃ mid, left' = left ++ separator :: mid ∧ right = mid ++ separator :: right') ∨
      ∃ mid, left = left' ++ separator :: mid ∧ right' = mid ++ separator :: right := by
  constructor
  · intro same
    rcases append_eq_append_iff.mp same with
      ⟨mid, left_eq, right_eq⟩ | ⟨mid, left_eq, right_eq⟩
    · cases mid with
      | nil => simp_all
      | cons first mid =>
        obtain ⟨rfl, rest_eq⟩ := List.cons.inj right_eq
        exact .inr (.inl ⟨mid, left_eq, rest_eq⟩)
    · cases mid with
      | nil => simp_all
      | cons first mid =>
        obtain ⟨rfl, rest_eq⟩ := List.cons.inj right_eq
        exact .inr (.inr ⟨mid, left_eq, rest_eq⟩)
  · rintro (⟨rfl, rfl⟩ | ⟨mid, rfl, rfl⟩ | ⟨mid, rfl, rfl⟩)
    · rfl
    · simp
    · simp

theorem append_cons_inj_of_absent (absent : separator ∉ right) (absent' : separator ∉ right')
    (same : left ++ separator :: right = left' ++ separator :: right') :
    left = left' ∧ right = right' := by
  rcases append_cons_eq_iff.mp same with parts | ⟨mid, -, rfl⟩ | ⟨mid, -, rfl⟩
  · exact parts
  · exact absurd (by simp) absent
  · exact absurd (by simp) absent'

theorem not_mem_of_splitOn [BEq α] [LawfulBEq α] {text : List α}
    (whole : (text.splitOn separator).length ≤ 1) : separator ∉ text := by
  intro mem
  obtain ⟨before, after, rfl⟩ := append_of_mem mem
  have first := length_pos_of_ne_nil (splitOn_ne_nil separator before)
  have second := length_pos_of_ne_nil (splitOn_ne_nil separator after)
  rw [splitOn_append_cons_self, length_append] at whole
  omega

theorem splitOn_eq_pair_iff [BEq α] [LawfulBEq α] {text : List α} :
    text.splitOn separator = [left, right] ↔
      text = left ++ separator :: right ∧ separator ∉ left ∧ separator ∉ right := by
  constructor
  · intro parts
    have text_eq : left ++ separator :: right = text := by
      have joined : [separator].intercalate (text.splitOn separator) = text :=
        intercalate_splitOn separator
      rw [parts] at joined
      simpa [List.intercalate] using joined
    have lengths := congrArg List.length parts
    have first := length_pos_of_ne_nil (splitOn_ne_nil separator left)
    have second := length_pos_of_ne_nil (splitOn_ne_nil separator right)
    rw [← text_eq, splitOn_append_cons_self, length_append, length_cons,
      length_singleton] at lengths
    exact ⟨text_eq.symm, not_mem_of_splitOn (by omega), not_mem_of_splitOn (by omega)⟩
  · rintro ⟨rfl, left_free, right_free⟩
    rw [splitOn_append_cons_self_of_not_mem left_free, splitOn_eq_singleton right_free]

end Joining
