import Mathlib.Tactic.Common

/-!
# Outcomes of calls that may fail or abort

A call returns a value, returns an error, or aborts with a runtime panic.  Loops with early return
are monadic folds over this type.
-/

namespace Program

open List

theorem exists_of_isOk {ε α : Type} {result : Except ε α} (success : result.isOk = true) :
    ∃ value, result = .ok value := by
  cases result with
  | ok value => exact ⟨value, rfl⟩
  | error error => cases success

theorem except_bind_eq_ok {ε α β : Type} {first : Except ε α} {next : α → Except ε β} {result : β} :
    (first >>= next) = .ok result ↔ ∃ value, first = .ok value ∧ next value = .ok result := by
  cases first with
  | error error =>
    constructor
    · intro done
      cases done
    · rintro ⟨value, done, -⟩
      cases done
  | ok value =>
    constructor
    · exact fun done => ⟨value, rfl, done⟩
    · rintro ⟨other, same, done⟩
      cases same
      exact done

theorem mapM_eq_ok {ε α β : Type} {call : α → Except ε β} {item : Option α} {result : Option β} :
    item.mapM call = .ok result ↔
      Option.Rel (fun value after => call value = .ok after) item result := by
  cases item with
  | none =>
    constructor
    · intro done
      cases done
      exact .none
    · intro related
      cases related
      rfl
  | some value =>
    rw [Option.mapM_some]
    constructor
    · intro done
      obtain ⟨after, called, returned⟩ := except_bind_eq_ok.mp done
      cases returned
      exact .some called
    · intro related
      cases related with
      | some called =>
        rw [called]
        rfl

/-- Result of a call: a value, an error value, or a runtime panic. -/
inductive Outcome (ε α : Type) where
  | ok (value : α)
  | err (error : ε)
  | panic
  deriving DecidableEq

namespace Outcome

variable {ε δ α β σ : Type}

/-- Continue with the value of a successful call. -/
def bind : Outcome ε α → (α → Outcome ε β) → Outcome ε β
  | ok value, next => next value
  | err error, _ => err error
  | panic, _ => panic

instance : Monad (Outcome ε) where
  pure := ok
  bind := bind

/-- The error is wrapped. -/
def mapErr (wrap : ε → δ) : Outcome ε α → Outcome δ α
  | ok value => ok value
  | err error => err (wrap error)
  | panic => panic

/-- The value, or a default. -/
def getD (outcome : Outcome ε α) (default : α) : α :=
  match outcome with
  | ok value => value
  | err _ | panic => default

/-- A value is returned. -/
def isOk : Outcome ε α → Bool
  | ok _ => true
  | err _ | panic => false

variable {outcome : Outcome ε α}

theorem isOk_iff : outcome.isOk = true ↔ ∃ value, outcome = ok value := by
  cases outcome <;> simp [isOk]

@[simp] theorem pure_eq_ok (value : α) : (pure value : Outcome ε α) = ok value := rfl

@[simp] theorem ok_bind (value : α) (next : α → Outcome ε β) : (ok value >>= next) = next value :=
  rfl

@[simp] theorem err_bind (error : ε) (next : α → Outcome ε β) : (err error >>= next) = err error :=
  rfl

@[simp] theorem panic_bind (next : α → Outcome ε β) : ((panic : Outcome ε α) >>= next) = panic :=
  rfl

instance : LawfulMonad (Outcome ε) :=
  LawfulMonad.mk' (Outcome ε) (fun outcome => by cases outcome <;> rfl)
    (fun _ _ => rfl)
    (fun outcome _ _ => by cases outcome <;> rfl)

theorem bind_eq_ok {next : α → Outcome ε β} {result : β} :
    (outcome >>= next) = ok result ↔ ∃ value, outcome = ok value ∧ next value = ok result := by
  cases outcome <;> simp

theorem bind_eq_panic {next : α → Outcome ε β} :
    (outcome >>= next) = panic ↔
      outcome = panic ∨ ∃ value, outcome = ok value ∧ next value = panic := by
  cases outcome <;> simp

@[simp] theorem mapErr_eq_ok {wrap : ε → δ} {value : α} :
    outcome.mapErr wrap = ok value ↔ outcome = ok value := by
  cases outcome <;> simp [mapErr]

@[simp] theorem mapErr_eq_panic {wrap : ε → δ} :
    outcome.mapErr wrap = panic ↔ outcome = panic := by
  cases outcome <;> simp [mapErr]

/-- A loop panics when a step does after every earlier step succeeded. -/
theorem foldlM_eq_panic (step : σ → α → Outcome ε σ) (items : List α) (state : σ) :
    items.foldlM step state = panic ↔
      ∃ before item after reached, items = before ++ item :: after ∧
        before.foldlM step state = ok reached ∧ step reached item = panic := by
  induction items generalizing state with
  | nil => simp
  | cons head tail ih =>
    rw [foldlM_cons, bind_eq_panic]
    constructor
    · rintro (now | ⟨next, first, later⟩)
      · exact ⟨[], head, tail, state, rfl, rfl, now⟩
      · obtain ⟨before, item, after, reached, rfl, passed, stuck⟩ := (ih next).mp later
        refine ⟨head :: before, item, after, reached, rfl, ?_, stuck⟩
        rw [foldlM_cons, first]
        exact passed
    · rintro ⟨before, item, after, reached, items_eq, passed, stuck⟩
      cases before with
      | nil =>
        simp only [foldlM_nil, pure_eq_ok, ok.injEq] at passed
        obtain ⟨rfl, rfl⟩ := items_eq
        subst passed
        exact Or.inl stuck
      | cons first before =>
        obtain ⟨rfl, rfl⟩ := items_eq
        obtain ⟨next, first_ok, passed⟩ := bind_eq_ok.mp passed
        exact Or.inr ⟨next, first_ok,
          (ih next).mpr ⟨before, item, after, reached, rfl, passed, stuck⟩⟩

theorem mapM_eq_ok (call : α → Outcome ε β) (default : β) (items : List α) (results : List β) :
    items.mapM call = ok results ↔
      (∀ item ∈ items, ∃ value, call item = ok value) ∧
        results = items.map fun item => (call item).getD default := by
  induction items generalizing results with
  | nil => simp [eq_comm]
  | cons head tail ih =>
    rw [mapM_cons, bind_eq_ok]
    constructor
    · rintro ⟨value, first, rest⟩
      obtain ⟨values, later, results_eq⟩ := bind_eq_ok.mp rest
      obtain ⟨all, rfl⟩ := (ih values).mp later
      obtain rfl := ok.inj results_eq
      simpa [first, getD] using all
    · rintro ⟨all, rfl⟩
      obtain ⟨value, first⟩ := all head mem_cons_self
      have later := (ih _).mpr ⟨fun item mem => all item (mem_cons_of_mem _ mem), rfl⟩
      exact ⟨value, first, by simp [later, first, getD]⟩

theorem foldlM_flatMap (expand : β → List α) (step : σ → α → Outcome ε σ) (items : List β)
    (state : σ) :
    (items.flatMap expand).foldlM step state =
      items.foldlM (fun current item => (expand item).foldlM step current) state := by
  induction items generalizing state with
  | nil => rfl
  | cons head tail ih =>
    rw [flatMap_cons, foldlM_append]
    congr 1
    funext next
    exact ih next

end Outcome
end Program
