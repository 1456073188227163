import DatawerxMesh.Library.ApiObject

/-!
# What a program leaves alone

Others may do anything except to one part of the state.  A program that makes only calls which keep
this part keeps it in every run.
-/

namespace Program

open ApiServer

variable {Call : Type} {Answer : Call → Type} {α β ε ι σ π : Type}

namespace Script

/-- Every call that the program can make is allowed. -/
def Makes (allowed : Call → Prop) : Script Call Answer α → Prop
  | done _ => True
  | call request next => allowed request ∧ ∀ answer, (next answer).Makes allowed

variable {allowed : Call → Prop}

theorem makes_perform {request : Call} (permitted : allowed request) :
    (perform request : Script Call Answer _).Makes allowed :=
  ⟨permitted, fun _ => trivial⟩

theorem Makes.bind {script : Script Call Answer α} {next : α → Script Call Answer β}
    (first : script.Makes allowed) (rest : ∀ value, (next value).Makes allowed) :
    (script >>= next).Makes allowed := by
  induction script with
  | done value => exact rest value
  | call request continue_ ih => exact ⟨first.1, fun answer => ih answer (first.2 answer)⟩

theorem Makes.attempt {script : ExceptT ε (Script Call Answer) α}
    {next : α → ExceptT ε (Script Call Answer) β} (first : script.run.Makes allowed)
    (rest : ∀ value, (next value).run.Makes allowed) : (script >>= next).run.Makes allowed := by
  refine Makes.bind first fun result => ?_
  cases result with
  | error error => exact trivial
  | ok value => exact rest value

theorem Makes.forM {body : ι → ExceptT ε (Script Call Answer) PUnit} {items : List ι}
    (round : ∀ item ∈ items, (body item).run.Makes allowed) :
    (items.forM body).run.Makes allowed := by
  induction items with
  | nil => exact trivial
  | cons item left ih =>
    exact Makes.attempt (round item List.mem_cons_self) fun _ =>
      ih fun other mem => round other (List.mem_cons_of_mem _ mem)

theorem Makes.createOrUpdate {φ τ : Type} [DecidableEq β]
    {get : Script Call Answer (Except (Error τ) (Held φ β))}
    {write : Write φ β → Script Call Answer (Except (Error τ) Unit)} {empty : β}
    {mutate : β → β} (reads : get.Makes allowed)
    (creates : (write (.create [] (mutate empty))).Makes allowed)
    (updates : ∀ existing : Held φ β,
      (write (.update existing existing.finalizers (mutate existing.body))).Makes allowed) :
    (ApiServer.createOrUpdate get write empty mutate).Makes allowed := by
  refine Makes.bind reads fun result => ?_
  cases result with
  | error error =>
    dsimp only
    split
    · exact creates
    · exact trivial
  | ok existing =>
    dsimp only
    split
    · exact trivial
    · exact updates existing

end Script

namespace World

section Returns

variable {world : World Call Answer σ} {before middle after : σ}

theorem returns_perform {request : Call} {answer : Answer request}
    (drift : world.Drifts before middle) (answers : world.respond request middle answer after) :
    world.Returns (Script.perform request) before answer after :=
  .call drift answers (.done answer after)

theorem Returns.bind {script : Script Call Answer α} {next : α → Script Call Answer β} {value : α}
    {result : β} (first : world.Returns script before value middle)
    (later : world.Returns (next value) middle result after) :
    world.Returns (script >>= next) before result after := by
  induction first with
  | done value state => exact later
  | call drift answers _ ih => exact .call drift answers (ih later)

variable {φ τ : Type} [DecidableEq β]
  {get : Script Call Answer (Except (Error τ) (Held φ β))}
  {write : Write φ β → Script Call Answer (Except (Error τ) Unit)} {empty : β}
  {mutate : β → β} {result : Except (Error τ) Unit}

theorem returns_create {error : Error τ} (missing : error.notFound = true)
    (reads : world.Returns get before (.error error) middle)
    (writes : world.Returns (write (.create [] (mutate empty))) middle result after) :
    world.Returns (ApiServer.createOrUpdate get write empty mutate) before result after := by
  refine Returns.bind reads ?_
  dsimp only
  rw [if_pos missing]
  exact writes

theorem returns_update {existing : Held φ β} (changes : mutate existing.body ≠ existing.body)
    (reads : world.Returns get before (.ok existing) middle)
    (writes : world.Returns
      (write (.update existing existing.finalizers (mutate existing.body))) middle result after) :
    world.Returns (ApiServer.createOrUpdate get write empty mutate) before result after := by
  refine Returns.bind reads ?_
  dsimp only
  rw [if_neg changes]
  exact writes

end Returns

section Spares

variable {respond : (request : Call) → σ → Answer request → σ → Prop} {part : σ → π}
  {before after state : σ} {script : Script Call Answer α}

/-- The world in which others keep a part of the state. -/
def sparing (respond : (request : Call) → σ → Answer request → σ → Prop) (part : σ → π) :
    World Call Answer σ where
  respond := respond
  interfere before after := part after = part before

/-- No run of the program changes the part of the state. -/
def Spares (respond : (request : Call) → σ → Answer request → σ → Prop) (part : σ → π)
    (script : Script Call Answer α) (state : σ) : Prop :=
  (sparing respond part).Ensures (fun seen => part seen = part state) (fun _ _ => True) script state

theorem drifts_sparing : (sparing respond part).Drifts before after ↔ part after = part before := by
  constructor
  · intro drift
    induction drift with
    | refl => rfl
    | tail _ step ih => exact Eq.trans step ih
  · exact fun same => .single same

theorem spares_call_iff {request : Call} {next : Answer request → Script Call Answer α} :
    Spares respond part (.call request next) state ↔
      ∀ seen answer after, part seen = part state → respond request seen answer after →
        part after = part state ∧ Spares respond part (next answer) after := by
  constructor
  · intro spares seen answer after same answers
    have rest := (spares seen (drifts_sparing.mpr same)).2 answer after answers
    have kept : part after = part state := rest.now
    refine ⟨kept, ?_⟩
    rw [Spares, kept]
    exact rest
  · intro step seen drift
    have same := drifts_sparing.mp drift
    refine ⟨same, fun answer after answers => ?_⟩
    obtain ⟨kept, rest⟩ := step seen answer after same answers
    rw [Spares, kept] at rest
    exact rest

theorem spares_of_makes {allowed : Call → Prop}
    (keeps : ∀ request before answer after, allowed request → part before = part state →
      respond request before answer after → part after = part state)
    (makes : script.Makes allowed) : Spares respond part script state := by
  induction script generalizing state with
  | done value => exact ⟨rfl, trivial⟩
  | call request next ih =>
    refine spares_call_iff.mpr fun seen answer after same answers => ?_
    have kept := keeps request seen answer after makes.1 same answers
    refine ⟨kept, ih answer ?_ (makes.2 answer)⟩
    rw [kept]
    exact keeps

theorem Spares.left {next : α → Script Call Answer β}
    (spares : Spares respond part (script >>= next) state) : Spares respond part script state := by
  induction script generalizing state with
  | done value => exact ⟨rfl, trivial⟩
  | call request continue_ ih =>
    refine spares_call_iff.mpr fun seen answer after same answers => ?_
    obtain ⟨kept, rest⟩ := spares_call_iff.mp spares seen answer after same answers
    exact ⟨kept, ih answer rest⟩

theorem Spares.follow {next : α → Script Call Answer β} {value : α}
    (spares : Spares respond part (script >>= next) before)
    (returns : (sparing respond part).Returns script before value after) :
    part after = part before ∧ Spares respond part (next value) after := by
  induction returns with
  | done value state => exact ⟨rfl, spares⟩
  | call drift answers _ ih =>
    obtain ⟨kept, rest⟩ :=
      spares_call_iff.mp spares _ _ _ (drifts_sparing.mp drift) answers
    obtain ⟨later, end_⟩ := ih rest
    exact ⟨later.trans kept, end_⟩

theorem Spares.returns {value : α} (spares : Spares respond part script before)
    (returns : (sparing respond part).Returns script before value after) :
    part after = part before :=
  ((Ensures.with_always spares).returns returns).1

end Spares

end World

end Program
