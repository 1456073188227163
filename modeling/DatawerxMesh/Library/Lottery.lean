import Mathlib.Algebra.Order.Field.Rat
import Mathlib.Tactic.FieldSimp
import Mathlib.Tactic.Ring

/-!
# Lotteries

Drawing for the first of `n` outcomes with one lot of `n`, for the second with one of `n - 1` and so
on, gives each of them the same chance.
-/

namespace Chance

variable {α β : Type}

/-- An experiment with draws, in each of which one lot of the given number hits. -/
inductive Lottery (α : Type) where
  | sure (outcome : α)
  | draw (lots : Nat) (hit miss : Lottery α)

namespace Lottery

/-- Continue with another experiment that depends on the outcome. -/
def bind : Lottery α → (α → Lottery β) → Lottery β
  | sure outcome, next => next outcome
  | draw lots hit miss, next => draw lots (hit.bind next) (miss.bind next)

/-- The probability of an outcome. -/
def chance [DecidableEq α] (outcome : α) : Lottery α → ℚ
  | sure value => if value = outcome then 1 else 0
  | draw lots hit miss =>
    1 / lots * hit.chance outcome + (1 - 1 / lots) * miss.chance outcome

/-- Draw for the outcomes one after the other. -/
def pick : α → List α → Lottery α
  | first, [] => sure first
  | first, second :: rest => draw (rest.length + 2) (sure first) (pick second rest)

theorem chance_pick [DecidableEq α] (first : α) (rest : List α) (outcome : α) :
    (pick first rest).chance outcome = (first :: rest).count outcome / (rest.length + 1) := by
  induction rest generalizing first with
  | nil => by_cases same : first = outcome <;> simp [pick, chance, same]
  | cons second rest ih =>
    have lots_ne : (rest.length : ℚ) + 2 ≠ 0 := by
      exact_mod_cast Nat.succ_ne_zero (rest.length + 1)
    have length_eq : ((second :: rest).length : ℚ) + 1 = rest.length + 2 := by
      rw [List.length_cons]
      push_cast
      ring
    have count_eq : ((first :: second :: rest).count outcome : ℚ) =
        (second :: rest).count outcome + (sure first).chance outcome := by
      by_cases same : first = outcome <;> simp [chance, same]
    rw [pick, chance, ih second, count_eq, length_eq]
    push_cast
    field_simp
    ring

theorem bind_pick {next : α → Lottery α} {first : α} {rest : List α}
    (final : ∀ outcome ∈ first :: rest, next outcome = sure outcome) :
    (pick first rest).bind next = pick first rest := by
  induction rest generalizing first with
  | nil => exact final first List.mem_cons_self
  | cons second rest ih =>
    rw [pick, bind, bind, final first List.mem_cons_self,
      ih fun outcome mem => final outcome (List.mem_cons_of_mem _ mem)]

end Lottery

end Chance
