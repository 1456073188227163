import Mathlib.Logic.Relation
import Mathlib.Tactic.Common

/-!
# Programs that make calls

A program returns or makes a call and continues with the answer of a world, which others may change
in between.  Guarantees are defined by recursion on the program.
-/

namespace Program

open List

/-- A program that makes calls. -/
inductive Script (Call : Type) (Answer : Call → Type) (α : Type) where
  | done (value : α)
  | call (request : Call) (next : Answer request → Script Call Answer α)

namespace Script

variable {Call : Type} {Answer : Call → Type} {α β ε : Type}

/-- Continue with the returned value. -/
def bind : Script Call Answer α → (α → Script Call Answer β) → Script Call Answer β
  | done value, next => next value
  | call request rest, next => call request fun answer => (rest answer).bind next

instance : Monad (Script Call Answer) where
  pure := done
  bind := bind

/-- A program that makes one call and returns the answer. -/
def perform (request : Call) : Script Call Answer (Answer request) := call request done

/-- Run a program with a function that answers the calls. -/
def exec {σ : Type} (handle : (request : Call) → σ → Answer request × σ) :
    Script Call Answer α → σ → α × σ
  | done value, state => (value, state)
  | call request next, state =>
    let (answer, after) := handle request state
    (next answer).exec handle after

theorem exec_bind {σ : Type} (handle : (request : Call) → σ → Answer request × σ)
    (script : Script Call Answer α) (next : α → Script Call Answer β) (state : σ) :
    (script >>= next).exec handle state =
      (next (script.exec handle state).1).exec handle (script.exec handle state).2 := by
  induction script generalizing state with
  | done value => rfl
  | call request rest ih => exact ih _ _

section Attempts

variable {σ ι : Type} {handle : (request : Call) → σ → Answer request × σ} {state after : σ}
  {script : ExceptT ε (Script Call Answer) α} {next : α → ExceptT ε (Script Call Answer) β}

theorem exec_attempt {value : α} (ran : script.run.exec handle state = (.ok value, after)) :
    (script >>= next).run.exec handle state = (next value).run.exec handle after := by
  refine (exec_bind handle script.run _ state).trans ?_
  rw [ran]
  rfl

theorem exec_attempt_eq_ok {result : β}
    (ran : (script >>= next).run.exec handle state = (.ok result, after)) :
    ∃ value middle, script.run.exec handle state = (.ok value, middle) ∧
      (next value).run.exec handle middle = (.ok result, after) := by
  rcases first : script.run.exec handle state with ⟨error | value, middle⟩
  · rw [show (script >>= next).run.exec handle state = _ from exec_bind handle script.run _ state,
      first] at ran
    cases ran
  · exact ⟨value, middle, rfl, (exec_attempt first).symm.trans ran⟩

variable {body : ι → ExceptT ε (Script Call Answer) PUnit} {items : List ι} {effect : σ → ι → σ}

theorem exec_forM_eq_ok (step : ∀ item before after,
      (body item).run.exec handle before = (.ok (), after) → after = effect before item)
    (ran : (items.forM body).run.exec handle state = (.ok (), after)) :
    after = items.foldl effect state := by
  induction items generalizing state with
  | nil => exact (congrArg Prod.snd ran).symm
  | cons item items ih =>
    obtain ⟨⟨⟩, middle, once, rest⟩ := exec_attempt_eq_ok ran
    rw [ih rest, step item state middle once, foldl_cons]

theorem exec_forM (invariant : σ → Prop) (step : ∀ item ∈ items, ∀ before, invariant before →
      (body item).run.exec handle before = (.ok (), effect before item) ∧
        invariant (effect before item)) (start : invariant state) :
    (items.forM body).run.exec handle state = (.ok (), items.foldl effect state) := by
  induction items generalizing state with
  | nil => rfl
  | cons item items ih =>
    obtain ⟨first, kept⟩ := step item mem_cons_self state start
    exact (exec_attempt first).trans
      (ih (fun other mem => step other (mem_cons_of_mem _ mem)) kept)

/-- The run returns without an error, and with the postcondition. -/
def Achieves (handle : (request : Call) → σ → Answer request × σ) (returned : α → σ → Prop)
    (script : ExceptT ε (Script Call Answer) α) (state : σ) : Prop :=
  ∃ value after, script.run.exec handle state = (.ok value, after) ∧ returned value after

variable {returned : α → σ → Prop}

theorem Achieves.mono {returned' : α → σ → Prop} (achieves : Achieves handle returned script state)
    (weaken : ∀ value seen, returned value seen → returned' value seen) :
    Achieves handle returned' script state := by
  obtain ⟨value, after, ran, holds⟩ := achieves
  exact ⟨value, after, ran, weaken value after holds⟩

theorem Achieves.attempt {finally_ : β → σ → Prop} (achieves : Achieves handle
      (fun value seen => Achieves handle finally_ (next value) seen) script state) :
    Achieves handle finally_ (script >>= next) state := by
  obtain ⟨value, middle, ran, result, after, rest, holds⟩ := achieves
  exact ⟨result, after, (exec_attempt ran).trans rest, holds⟩

theorem Achieves.adapt {δ : Type} {wrap : ε → δ}
    (achieves : Achieves handle returned script state) :
    Achieves handle returned (script.adapt wrap) state := by
  obtain ⟨value, after, ran, holds⟩ := achieves
  refine ⟨value, after, (exec_bind handle script.run _ state).trans ?_, holds⟩
  rw [ran]
  rfl

theorem Achieves.forM (invariant : List ι → σ → Prop)
    (step : ∀ item left seen, invariant (item :: left) seen →
      Achieves handle (fun _ after => invariant left after) (body item) seen)
    (start : invariant items state) :
    Achieves handle (fun _ after => invariant [] after) (items.forM body) state := by
  induction items generalizing state with
  | nil => exact ⟨⟨⟩, state, rfl, start⟩
  | cons item left ih => exact .attempt ((step item left state start).mono fun _ _ => ih)

end Attempts

@[simp] theorem perform_bind (request : Call) (next : Answer request → Script Call Answer β) :
    (perform request >>= next) = call request next := rfl

end Script

/-- A world answers calls, by a relation since an answer may depend on more than the state; between
two calls the other parties act. -/
structure World (Call : Type) (Answer : Call → Type) (σ : Type) where
  /-- A call, with its answer and the state it leaves. -/
  respond : (request : Call) → σ → Answer request → σ → Prop
  /-- One step of another party. -/
  interfere : σ → σ → Prop

namespace World

variable {Call : Type} {Answer : Call → Type} {α β ε σ : Type}

/-- The other parties take some steps. -/
abbrev Drifts (world : World Call Answer σ) : σ → σ → Prop :=
  Relation.ReflTransGen world.interfere

/-- A program started in a state may return a value in another one. -/
inductive Returns (world : World Call Answer σ) : Script Call Answer α → σ → α → σ → Prop
  | done (value : α) (state : σ) : Returns world (.done value) state value state
  | call {request : Call} {next : Answer request → Script Call Answer α} {value : α}
      {before asked answered after : σ} {answer : Answer request}
      (drift : world.Drifts before asked) (answers : world.respond request asked answer answered)
      (later : Returns world (next answer) answered value after) :
      Returns world (.call request next) before value after

variable {world : World Call Answer σ} {handle : (request : Call) → σ → Answer request × σ}

theorem returns_exec
    (handles : ∀ request state,
      world.respond request state (handle request state).1 (handle request state).2)
    (script : Script Call Answer α) (state : σ) :
    world.Returns script state (script.exec handle state).1 (script.exec handle state).2 := by
  induction script generalizing state with
  | done value => exact .done value state
  | call request next ih => exact .call .refl (handles request state) (ih _ _)

/-- A program keeps a property in all states of its runs and returns with a postcondition. -/
def Ensures (world : World Call Answer σ) (always : σ → Prop) (post : α → σ → Prop) :
    Script Call Answer α → σ → Prop
  | .done value, state => always state ∧ post value state
  | .call request next, state => ∀ seen, world.Drifts state seen → always seen ∧
      ∀ answer answered, world.respond request seen answer answered →
        Ensures world always post (next answer) answered

/-- The other parties keep a property. -/
def Stable (world : World Call Answer σ) (holds : σ → Prop) : Prop :=
  ∀ before after, holds before → world.interfere before after → holds after

theorem Stable.drift {holds : σ → Prop} (stable : world.Stable holds)
    {before after : σ} (start : holds before) (drift : world.Drifts before after) :
    holds after := by
  induction drift with
  | refl => exact start
  | tail _ step ih => exact stable _ _ ih step

theorem Stable.and {first second : σ → Prop}
    (first_stable : world.Stable first) (second_stable : world.Stable second) :
    world.Stable fun state => first state ∧ second state :=
  fun before after here step =>
    ⟨first_stable before after here.1 step, second_stable before after here.2 step⟩

section Rules

variable {world : World Call Answer σ} {always : σ → Prop} {post : α → σ → Prop}
  {script : Script Call Answer α} {state : σ}

theorem Ensures.now (ensures : world.Ensures always post script state) : always state := by
  cases script with
  | done value => exact ensures.1
  | call request next => exact (ensures state .refl).1

theorem Ensures.returns {before after : σ} {value : α}
    (ensures : world.Ensures always post script before)
    (returns : world.Returns script before value after) : post value after := by
  induction returns with
  | done value state => exact ensures.2
  | call drift answers _ ih => exact ih ((ensures _ drift).2 _ _ answers)

theorem Ensures.imp {always' : σ → Prop} {post' : α → σ → Prop}
    (ensures : world.Ensures always post script state)
    (weaken : ∀ state, always state → always' state)
    (conclude : ∀ value state, always state → post value state → post' value state) :
    world.Ensures always' post' script state := by
  induction script generalizing state with
  | done value => exact ⟨weaken state ensures.1, conclude value state ensures.1 ensures.2⟩
  | call request next ih =>
    intro seen drift
    obtain ⟨now, later⟩ := ensures seen drift
    refine ⟨weaken seen now, fun answer answered answers => ?_⟩
    exact ih answer (later answer answered answers)

theorem Ensures.mono {post' : α → σ → Prop} (ensures : world.Ensures always post script state)
    (weaken : ∀ value state, post value state → post' value state) :
    world.Ensures always post' script state :=
  ensures.imp (fun _ => id) fun value state _ => weaken value state

theorem Ensures.weaken {always' : σ → Prop} (ensures : world.Ensures always post script state)
    (weaken : ∀ state, always state → always' state) : world.Ensures always' post script state :=
  ensures.imp weaken fun _ _ _ => id

theorem Ensures.trivial (script : Script Call Answer α) (state : σ) :
    world.Ensures (fun _ => True) (fun _ _ => True) script state := by
  induction script generalizing state with
  | done value => exact ⟨True.intro, True.intro⟩
  | call request next ih =>
    exact fun _ _ => ⟨True.intro, fun answer answered _ => ih answer answered⟩

theorem Ensures.with_always (ensures : world.Ensures always post script state) :
    world.Ensures always (fun value seen => always seen ∧ post value seen) script state :=
  ensures.imp (fun _ => id) fun _ _ => And.intro

theorem Ensures.bind {next : α → Script Call Answer β} {post : β → σ → Prop}
    (first : world.Ensures always
      (fun value seen => world.Ensures always post (next value) seen) script state) :
    world.Ensures always post (script >>= next) state := by
  induction script generalizing state with
  | done value => exact first.2
  | call request rest ih =>
    intro seen drift
    obtain ⟨now, later⟩ := first seen drift
    exact ⟨now, fun answer answered answers => ih answer (later answer answered answers)⟩

theorem Ensures.of_call {request : Call} {next : Answer request → Script Call Answer α}
    {holds : σ → Prop} (stable : world.Stable holds) (keeps : ∀ seen, holds seen → always seen)
    (answered : ∀ seen answer after, holds seen → world.respond request seen answer after →
      world.Ensures always post (next answer) after) (start : holds state) :
    world.Ensures always post (.call request next) state := by
  intro seen drift
  have holds_seen := stable.drift start drift
  exact ⟨keeps seen holds_seen, fun answer after => answered seen answer after holds_seen⟩

end Rules

/-- A call with its answer. -/
abbrev Exchange (Call : Type) (Answer : Call → Type) : Type := (request : Call) × Answer request

/-- The world with a log of what was asked and answered. -/
def logged (world : World Call Answer σ) : World Call Answer (σ × List (Exchange Call Answer)) where
  respond request before answer after :=
    world.respond request before.1 answer after.1 ∧ after.2 = before.2 ++ [⟨request, answer⟩]
  interfere before after := world.interfere before.1 after.1 ∧ after.2 = before.2

/-- A function that answers the calls and logs them. -/
def logging (handle : (request : Call) → σ → Answer request × σ) (request : Call)
    (state : σ × List (Exchange Call Answer)) :
    Answer request × (σ × List (Exchange Call Answer)) :=
  ((handle request state.1).1,
    ((handle request state.1).2, state.2 ++ [⟨request, (handle request state.1).1⟩]))

theorem exec_logging (handle : (request : Call) → σ → Answer request × σ)
    (script : Script Call Answer α) (state : σ) (log : List (Exchange Call Answer)) :
    (script.exec (logging handle) (state, log)).1 = (script.exec handle state).1 ∧
      (script.exec (logging handle) (state, log)).2.1 = (script.exec handle state).2 := by
  induction script generalizing state log with
  | done value => exact ⟨rfl, rfl⟩
  | call request next ih => exact ih _ _ _

theorem returns_logging
    (handles : ∀ request state,
      world.respond request state (handle request state).1 (handle request state).2)
    (script : Script Call Answer α) (state : σ × List (Exchange Call Answer)) :
    world.logged.Returns script state (script.exec (logging handle) state).1
      (script.exec (logging handle) state).2 := by
  refine returns_exec (fun request state => ?_) script state
  exact ⟨handles request state.1, rfl⟩

variable {before after : σ × List (Exchange Call Answer)}

theorem drifts_logged (drift : world.logged.Drifts before after) :
    world.Drifts before.1 after.1 ∧ after.2 = before.2 := by
  induction drift with
  | refl => exact ⟨.refl, rfl⟩
  | tail _ step ih => exact ⟨ih.1.tail step.1, step.2.trans ih.2⟩

theorem Ensures.of_logged_call {always : σ → Prop}
    {post : α → σ × List (Exchange Call Answer) → Prop} {request : Call}
    {next : Answer request → Script Call Answer α} {holds : σ → Prop} (stable : world.Stable holds)
    (keeps : ∀ seen, holds seen → always seen) {log : List (Exchange Call Answer)}
    (answered : ∀ seen answer after, holds seen → world.respond request seen answer after →
      world.logged.Ensures (fun seen => always seen.1) post (next answer)
        (after, log ++ [⟨request, answer⟩])) {state : σ} (start : holds state) :
    world.logged.Ensures (fun seen => always seen.1) post (.call request next) (state, log) := by
  have logged_stable : world.logged.Stable fun seen => holds seen.1 ∧ seen.2 = log :=
    fun before after here step => ⟨stable _ _ here.1 step.1, step.2.trans here.2⟩
  refine Ensures.of_call logged_stable (fun seen here => keeps seen.1 here.1) ?_ ⟨start, rfl⟩
  rintro ⟨seen, seen_log⟩ answer ⟨after, after_log⟩ ⟨here, rfl⟩ ⟨responds, rfl⟩
  exact answered seen answer after here responds

theorem Returns.unlogged {script : Script Call Answer α} {value : α}
    (returns : world.logged.Returns script before value after) :
    world.Returns script before.1 value after.1 := by
  induction returns with
  | done value state => exact .done value state.1
  | call drift answers _ ih => exact .call (drifts_logged drift).1 answers.1 ih

/-- A postcondition with one part for returned values and one for errors. -/
def byResult (returned : α → σ → Prop) (failed : ε → σ → Prop) : Except ε α → σ → Prop
  | .ok value, state => returned value state
  | .error error, state => failed error state

section Fallible

variable {world : World Call Answer σ} {always : σ → Prop} {state : σ}

theorem Ensures.attempt {script : ExceptT ε (Script Call Answer) α}
    {next : α → ExceptT ε (Script Call Answer) β} {post : Except ε β → σ → Prop}
    (first : world.Ensures always
      (byResult (fun value seen => world.Ensures always post (next value).run seen)
        fun error seen => post (.error error) seen) script.run state) :
    world.Ensures always post (script >>= next).run state := by
  refine Ensures.bind (first.with_always.mono fun result seen holds => ?_)
  cases result with
  | ok value => exact holds.2
  | error error => exact holds

theorem Ensures.adapt {δ : Type} {script : ExceptT ε (Script Call Answer) α} {wrap : ε → δ}
    {returned : α → σ → Prop} {failed : δ → σ → Prop}
    (first : world.Ensures always (byResult returned fun error seen => failed (wrap error) seen)
      script.run state) :
    world.Ensures always (byResult returned failed) (script.adapt wrap).run state := by
  have kept : world.Ensures always (fun result seen => always seen ∧
      byResult returned (fun error seen => failed (wrap error) seen) result seen)
      script.run state := first.with_always
  refine Ensures.bind (kept.mono fun result seen holds => ?_)
  cases result <;> exact holds

/-- The invariant of a loop with early return speaks of the items that are left. -/
theorem Ensures.forM {ι : Type} {body : ι → ExceptT ε (Script Call Answer) PUnit}
    (invariant : List ι → σ → Prop) {failed : ε → σ → Prop}
    (keeps : ∀ left seen, invariant left seen → always seen)
    (step : ∀ item left seen, invariant (item :: left) seen → world.Ensures always
        (byResult (fun _ after => invariant left after) failed) (body item).run seen)
    {items : List ι} (start : invariant items state) :
    world.Ensures always (byResult (fun _ after => invariant [] after) failed)
      (items.forM body).run state := by
  induction items generalizing state with
  | nil => exact ⟨keeps [] state start, start⟩
  | cons item left ih =>
    refine Ensures.attempt ((step item left state start).mono fun result seen holds => ?_)
    cases result with
    | ok _ => exact ih holds
    | error error => exact holds

theorem Ensures.forM_each {ι : Type} {body : ι → ExceptT ε (Script Call Answer) PUnit}
    {items : List ι} (invariant : σ → Prop) (established : ι → σ → Prop) (failed : ε → σ → Prop)
    (keeps : ∀ seen, invariant seen → always seen)
    (round : ∀ item ∈ items, ∀ seen, invariant seen → world.Ensures always
      (byResult (fun _ after => invariant after ∧ established item after ∧
        ∀ other ≠ item, established other seen → established other after) failed)
      (body item).run seen) (start : invariant state) :
    world.Ensures always
      (byResult (fun _ after => invariant after ∧ ∀ item ∈ items, established item after) failed)
      (items.forM body).run state := by
  let reached (left : List ι) (seen : σ) : Prop :=
    (∀ item ∈ left, item ∈ items) ∧ invariant seen ∧
      ∀ item ∈ items, item ∉ left → established item seen
  have step : ∀ item left seen, reached (item :: left) seen → world.Ensures always
      (byResult (fun _ after => reached left after) failed) (body item).run seen := by
    rintro item left seen ⟨all, holds, so_far⟩
    refine (round item (all item mem_cons_self) seen holds).mono fun result after done => ?_
    cases result with
    | error error => exact done
    | ok _ =>
      obtain ⟨still, own, others⟩ := done
      refine ⟨fun other later => all other (mem_cons_of_mem _ later), still,
        fun other mem not_left => ?_⟩
      by_cases same : other = item
      · exact same ▸ own
      · exact others other same (so_far other mem (by simp [same, not_left]))
  have first : reached items state :=
    ⟨fun _ => id, start, fun item mem not_left => absurd mem not_left⟩
  refine (Ensures.forM reached (fun _ _ holds => keeps _ holds.2.1) step first).mono ?_
  rintro (error | _) after done
  · exact done
  · exact ⟨done.2.1, fun item mem => done.2.2 item mem (by simp)⟩

end Fallible

end World

/-- A worker runs one job at a time. -/
structure Worker (Job Call : Type) (Answer : Call → Type) (α σ : Type) where
  state : σ
  running : Option (Job × Script Call Answer α)

namespace Worker

variable {Job Call : Type} {Answer : Call → Type} {α σ : Type}

/-- Others act at any time, an idle worker starts a job, a call is answered, a value is settled. -/
inductive Step (world : World Call Answer σ) (program : Job → Script Call Answer α)
    (settle : Job → α → σ → σ) : Worker Job Call Answer α σ → Worker Job Call Answer α σ → Prop
  | interfere {before after : σ} {running : Option (Job × Script Call Answer α)}
      (step : world.interfere before after) :
      Step world program settle ⟨before, running⟩ ⟨after, running⟩
  | start (state : σ) (job : Job) :
      Step world program settle ⟨state, none⟩ ⟨state, some (job, program job)⟩
  | answer {before after : σ} {job : Job} {request : Call}
      {next : Answer request → Script Call Answer α} {answer : Answer request}
      (answers : world.respond request before answer after) :
      Step world program settle ⟨before, some (job, .call request next)⟩
        ⟨after, some (job, next answer)⟩
  | settle (state : σ) (job : Job) (value : α) :
      Step world program settle ⟨state, some (job, .done value)⟩ ⟨settle job value state, none⟩

theorem reaches_exec {world : World Call Answer σ} {program : Job → Script Call Answer α}
    {settle : Job → α → σ → σ} {handle : (request : Call) → σ → Answer request × σ}
    (handles : ∀ request state,
      world.respond request state (handle request state).1 (handle request state).2)
    (job : Job) (script : Script Call Answer α) (state : σ) :
    Relation.ReflTransGen (Step world program settle) ⟨state, some (job, script)⟩
      ⟨(script.exec handle state).2, some (job, .done (script.exec handle state).1)⟩ := by
  induction script generalizing state with
  | done value => exact .refl
  | call request next ih => exact .head (.answer (handles request state)) (ih _ _)

/-- What holds of a worker: an idle one is in a good state, a running one has its guarantee. -/
def Guaranteed (world : World Call Answer σ) (idle : σ → Prop) (always : Job → σ → Prop)
    (post : Job → α → σ → Prop) (worker : Worker Job Call Answer α σ) : Prop :=
  match worker.running with
  | none => idle worker.state
  | some (job, script) => world.Ensures (always job) (post job) script worker.state

theorem guaranteed_of_reachable {world : World Call Answer σ}
    {program : Job → Script Call Answer α} {settle : Job → α → σ → σ} {idle : σ → Prop}
    {always : Job → σ → Prop} {post : Job → α → σ → Prop} (idle_stable : world.Stable idle)
    (post_stable : ∀ job value, world.Stable fun state => always job state ∧ post job value state)
    (starts : ∀ job state, idle state → world.Ensures (always job) (post job) (program job) state)
    (settles : ∀ job value state, always job state → post job value state →
      idle (settle job value state))
    {state : σ} (start : idle state) {worker : Worker Job Call Answer α σ}
    (reached : Relation.ReflTransGen (Step world program settle) ⟨state, none⟩ worker) :
    worker.Guaranteed world idle always post := by
  induction reached with
  | refl => exact start
  | tail _ step ih =>
    cases step with
    | @interfere before after running step =>
      match running, ih with
      | none, ih => exact idle_stable before after ih step
      | some (job, .done value), ih => exact post_stable job value before after ih step
      | some (job, .call request next), ih => exact fun seen drift => ih seen (.head step drift)
    | start state job => exact starts job state ih
    | answer answers => exact (ih _ .refl).2 _ _ answers
    | settle state job value => exact settles job value state ih.1 ih.2

end Worker

end Program
