import DatawerxMesh.Library.Outcome
import Mathlib.Data.List.AList

/-!
# Ownership tables

A table records the one source that claimed each key.  A run of claims succeeds exactly when every
item produces its requests and no key is requested by two sources.
-/

namespace Ownership

open Program List

variable {κ σ ρ ι ε : Type}

/-- No key is claimed by two sources. -/
def Consistent (claims : List (κ × σ)) : Prop :=
  ∀ key left right, (key, left) ∈ claims → (key, right) ∈ claims → left = right

theorem Consistent.of_subset {small large : List (κ × σ)} (consistent : Consistent large)
    (subset : ∀ claim ∈ small, claim ∈ large) : Consistent small :=
  fun key left right in_left in_right =>
    consistent key left right (subset _ in_left) (subset _ in_right)

/-- Owner of every claimed key. -/
abbrev Table (κ σ : Type) := AList fun _ : κ => σ

variable {table : Table κ σ} {claims : List (κ × σ)}

/-- A key requested for a source, with the effect of the request once it is granted. -/
structure Request (κ σ ρ : Type) where
  key : κ
  source : σ
  update : ρ → ρ

/-- The claim made by a request. -/
def Request.pair (request : Request κ σ ρ) : κ × σ := (request.key, request.source)

/-- Combined effect of granted requests. -/
def applyAll (requests : List (Request κ σ ρ)) (record : ρ) : ρ :=
  requests.foldl (fun current request => request.update current) record

theorem applyAll_append (left right : List (Request κ σ ρ)) (record : ρ) :
    applyAll (left ++ right) record = applyAll right (applyAll left record) :=
  foldl_append

section Tables

variable [DecidableEq κ]

/-- The table records exactly the given claims. -/
def Owns (table : Table κ σ) (claims : List (κ × σ)) : Prop :=
  ∀ key source, table.lookup key = some source ↔ (key, source) ∈ claims

theorem owns_empty : Owns (∅ : Table κ σ) [] := by
  intro key source
  simp

variable {table : Table κ σ} {claims : List (κ × σ)} (owns : Owns table claims)

include owns

theorem Owns.consistent :
    Consistent claims := by
  intro key left right in_left in_right
  have left_lookup := (owns key left).mpr in_left
  have right_lookup := (owns key right).mpr in_right
  exact Option.some.inj (left_lookup.symm.trans right_lookup)

theorem Owns.insert {key : κ} {source : σ} (consistent : Consistent (claims ++ [(key, source)])) :
    Owns (table.insert key source) (claims ++ [(key, source)]) := by
  intro other owner
  by_cases same : other = key
  · subst same
    rw [AList.lookup_insert, Option.some.injEq]
    constructor
    · rintro rfl
      simp
    · intro mem
      exact consistent other source owner (by simp) mem
  · rw [AList.lookup_insert_ne same, owns other owner]
    simp [same]

end Tables

variable [DecidableEq κ] [DecidableEq σ]

/-- Record a source as the owner of a key, or report the different source that has it. -/
def claim (table : Table κ σ) (key : κ) (source : σ) : Except σ (Table κ σ) :=
  match table.lookup key with
  | some previous => if previous ≠ source then .error previous else .ok (table.insert key source)
  | none => .ok (table.insert key source)

variable (collide : κ → σ → σ → ε)

/-- Claim the key of one request and apply its effect. -/
def settle (state : Table κ σ × ρ) (request : Request κ σ ρ) :
    Outcome ε (Table κ σ × ρ) :=
  match claim state.1 request.key request.source with
  | .ok table => .ok (table, request.update state.2)
  | .error previous => .err (collide request.key previous request.source)

variable (produce : ι → Outcome ε (List (Request κ σ ρ)))

/-- Settle the requests of every item in order. -/
def run (items : List ι) (state : Table κ σ × ρ) : Outcome ε (Table κ σ × ρ) :=
  items.foldlM (fun current item => produce item >>= fun requests =>
    requests.foldlM (settle collide) current) state

/-- Granting a request adds its claim; refusing it exhibits two owners of a key. -/
theorem settle_spec (owns : Owns table claims) (record : ρ) (request : Request κ σ ρ) :
    (Consistent (claims ++ [request.pair]) →
      ∃ next, settle collide (table, record) request = .ok (next, request.update record) ∧
        Owns next (claims ++ [request.pair])) ∧
    (¬ Consistent (claims ++ [request.pair]) → ∃ previous, settle collide (table, record) request =
        .err (collide request.key previous request.source)) := by
  constructor
  · intro consistent
    refine ⟨table.insert request.key request.source, ?_, owns.insert consistent⟩
    cases found : table.lookup request.key with
    | none => simp [settle, claim, found]
    | some previous =>
      have same : previous = request.source :=
        consistent request.key previous request.source
          (mem_append_left _ ((owns _ _).mp found)) (by simp [Request.pair])
      simp [settle, claim, found, same]
  · intro inconsistent
    cases found : table.lookup request.key with
    | none =>
      refine absurd ?_ inconsistent
      intro key left right in_left in_right
      have absent : ∀ owner, (request.key, owner) ∉ claims := by
        intro owner mem
        rw [(owns _ _).mpr mem] at found
        cases found
      simp only [mem_append, mem_singleton, Request.pair, Prod.mk.injEq] at in_left in_right
      rcases in_left with in_left | ⟨rfl, rfl⟩ <;> rcases in_right with in_right | ⟨same, rfl⟩
      · exact owns.consistent key left right in_left in_right
      · exact absurd (same ▸ in_left) (absent left)
      · exact absurd in_right (absent right)
      · rfl
    | some previous =>
      refine ⟨previous, ?_⟩
      have differs : previous ≠ request.source := by
        rintro rfl
        apply inconsistent
        have recorded := (owns _ _).mp found
        intro key left right in_left in_right
        simp only [mem_append, mem_singleton] at in_left in_right
        have in_left : (key, left) ∈ claims := by
          rcases in_left with in_left | equal
          · exact in_left
          · rw [equal]; exact recorded
        have in_right : (key, right) ∈ claims := by
          rcases in_right with in_right | equal
          · exact in_right
          · rw [equal]; exact recorded
        exact owns.consistent key left right in_left in_right
      simp [settle, claim, found, differs]

theorem settleAll_spec (owns : Owns table claims) (record : ρ) (requests : List (Request κ σ ρ)) :
    (Consistent (claims ++ requests.map Request.pair) →
      ∃ next, requests.foldlM (settle collide) (table, record) =
        .ok (next, applyAll requests record) ∧
        Owns next (claims ++ requests.map Request.pair)) ∧
    (¬ Consistent (claims ++ requests.map Request.pair) →
      ∃ error, requests.foldlM (settle collide) (table, record) = .err error) := by
  induction requests generalizing table claims record with
  | nil =>
    refine ⟨fun _ => ⟨table, rfl, by simpa using owns⟩, fun inconsistent => ?_⟩
    exact absurd (by simpa using owns.consistent) inconsistent
  | cons request requests ih =>
    have split_claims : claims ++ (request :: requests).map Request.pair =
        (claims ++ [request.pair]) ++ requests.map Request.pair := by simp
    obtain ⟨granted, refused⟩ := settle_spec collide owns record request
    rw [split_claims, foldlM_cons]
    by_cases first : Consistent (claims ++ [request.pair])
    · obtain ⟨next, settled, owns_next⟩ := granted first
      rw [settled]
      exact ih owns_next (request.update record)
    · obtain ⟨previous, settled⟩ := refused first
      rw [settled]
      refine ⟨fun consistent => ?_, fun _ => ⟨_, rfl⟩⟩
      exact absurd (consistent.of_subset fun _ mem => mem_append_left _ mem) first

/-- Claims made by the requests of several items. -/
def claimsOf (produced : List (List (Request κ σ ρ))) : List (κ × σ) :=
  produced.flatten.map Request.pair

theorem run_eq_ok (items : List ι) (owns : Owns table claims) (record final : ρ) :
    (∃ next, run collide produce items (table, record) = .ok (next, final)) ↔
      ∃ produced, items.mapM produce = .ok produced ∧
        Consistent (claims ++ claimsOf produced) ∧ final = applyAll produced.flatten record := by
  induction items generalizing table claims record with
  | nil =>
    simp only [run, foldlM_nil, mapM_nil, Outcome.pure_eq_ok, Outcome.ok.injEq, Prod.mk.injEq]
    constructor
    · rintro ⟨next, rfl, rfl⟩
      exact ⟨[], rfl, by simpa [claimsOf] using owns.consistent, rfl⟩
    · rintro ⟨produced, rfl, -, rfl⟩
      exact ⟨table, rfl, rfl⟩
  | cons item items ih =>
    simp only [run, foldlM_cons, mapM_cons, Outcome.bind_eq_ok, Outcome.pure_eq_ok,
      Outcome.ok.injEq]
    have split_claims :
        ∀ (requests : List (Request κ σ ρ)) (produced : List (List (Request κ σ ρ))),
        claims ++ claimsOf (requests :: produced) =
          (claims ++ requests.map Request.pair) ++ claimsOf produced := by
      intro requests produced
      simp [claimsOf]
    constructor
    · rintro ⟨next, middle, ⟨requests, head, settled⟩, rest⟩
      obtain ⟨granted, refused⟩ := settleAll_spec collide owns record requests
      by_cases consistent : Consistent (claims ++ requests.map Request.pair)
      · obtain ⟨reached, reached_eq, owns_reached⟩ := granted consistent
        rw [reached_eq, Outcome.ok.injEq] at settled
        subst settled
        obtain ⟨produced, tail, all, rfl⟩ :=
          (ih owns_reached (applyAll requests record)).mp ⟨next, rest⟩
        refine ⟨requests :: produced, ⟨requests, head, produced, tail, rfl⟩, ?_, ?_⟩
        · rw [split_claims]
          exact all
        · rw [flatten_cons, applyAll_append]
      · obtain ⟨error, failed⟩ := refused consistent
        rw [failed] at settled
        cases settled
    · rintro ⟨produced, ⟨requests, head, produced, tail, rfl⟩, consistent, rfl⟩
      rw [split_claims] at consistent
      obtain ⟨reached, reached_eq, owns_reached⟩ :=
        (settleAll_spec collide owns record requests).1
          (consistent.of_subset fun _ mem => mem_append_left _ mem)
      obtain ⟨next, rest⟩ := (ih owns_reached (applyAll requests record)).mpr
        ⟨produced, tail, consistent, by rw [flatten_cons, applyAll_append]⟩
      exact ⟨next, (reached, applyAll requests record), ⟨requests, head, reached_eq⟩, rest⟩

theorem run_eq_panic (items : List ι) (record : ρ) :
    run collide produce items (∅, record) = .panic ↔
      ∃ before item after produced, items = before ++ item :: after ∧
        before.mapM produce = .ok produced ∧ Consistent (claimsOf produced) ∧
        produce item = .panic := by
  rw [run, Outcome.foldlM_eq_panic]
  constructor
  · rintro ⟨before, item, after, ⟨table, reached⟩, rfl, passed, stuck⟩
    obtain ⟨produced, all, consistent, rfl⟩ :=
      (run_eq_ok collide produce before owns_empty record reached).mp ⟨table, passed⟩
    refine ⟨before, item, after, produced, rfl, all, consistent, ?_⟩
    obtain produce_panic | ⟨requests, _, settle_panic⟩ := Outcome.bind_eq_panic.mp stuck
    · exact produce_panic
    · rw [Outcome.foldlM_eq_panic] at settle_panic
      obtain ⟨_, request, _, state, _, _, one_panic⟩ := settle_panic
      unfold settle at one_panic
      split at one_panic <;> cases one_panic
  · rintro ⟨before, item, after, produced, rfl, all, consistent, stuck⟩
    obtain ⟨table, passed⟩ := (run_eq_ok collide produce before owns_empty record
      (applyAll produced.flatten record)).mpr ⟨produced, all, consistent, rfl⟩
    refine ⟨before, item, after, (table, applyAll produced.flatten record), rfl, passed, ?_⟩
    rw [stuck, Outcome.panic_bind]

end Ownership
