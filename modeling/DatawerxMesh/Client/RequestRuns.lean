import DatawerxMesh.Client.Requests

/-!
# What a request leaves behind

However a call of `authorizedDo` ends, it has sent a bounded number of requests, and every response
but the returned one has been drained.
-/

namespace DatawerxMesh.Client

open Program Go List

/-- The body of a request that is sent. -/
def Event.body? : Event → Option (Option Body)
  | .send request => some request.body
  | .sleep _ | .drainAndClose _ | .loadToken => none

/-- The response that is closed. -/
def Event.drained? : Event → Option Nat
  | .drainAndClose number => some number
  | .sleep _ | .send _ | .loadToken => none

/-- The token is read anew. -/
def Event.loads : Event → Bool
  | .loadToken => true
  | .sleep _ | .send _ | .drainAndClose _ => false

namespace EnterpriseControlPlaneClient

variable (c : EnterpriseControlPlaneClient) (call : Call)

/-- The server answers this request. -/
def answersAt (number : Nat) : Bool := (c.do_ number).answered

/-- The log of a call that has sent `n` requests and drained the responses to the first `m`. -/
structure Accounts (n m : Nat) (refreshed : Bool) (log : List Event) : Prop where
  bodies : log.filterMap Event.body? =
    (List.range n).map fun number => call.newBody.map (Body.mk number)
  drained : log.filterMap Event.drained? = (List.range m).filter c.answersAt
  loads : log.countP Event.loads = refreshed.toNat

/-- Where the loop stands: all responses so far are drained. -/
structure Kept (p : Progress) : Prop extends
    Accounts c call p.sent p.sent p.refreshed p.log where
  counted : p.sent = p.attempt + p.refreshed.toNat
  readers : call.newBody.isSome → p.readers = p.sent

/-- What is left of a call that has sent `n` requests. -/
structure Leaves (n : Nat) (log : List Event) (result : Outcome Str Response) : Prop where
  bounded : n ≤ c.retry.attempts + 1
  bodies : log.filterMap Event.body? =
    (List.range n).map fun number => call.newBody.map (Body.mk number)
  loads : log.countP Event.loads ≤ 1
  returned : ∀ resp, result = .ok resp → n = resp.number + 1 ∧
    c.do_ resp.number = .response resp.statusCode ∧ isRetryableStatus resp.statusCode = false ∧
      log.filterMap Event.drained? = (List.range resp.number).filter c.answersAt
  failed : (∀ resp, result ≠ .ok resp) →
    log.filterMap Event.drained? = (List.range n).filter c.answersAt

variable {c call} {p : Progress}

theorem Accounts.slept {n m : Nat} {refreshed : Bool} {log : List Event}
    (accounts : Accounts c call n m refreshed log) (slept : List Int64) :
    Accounts c call n m refreshed (log ++ slept.map .sleep) := by
  have silent : (slept.map Event.sleep).filterMap Event.body? = [] ∧
      (slept.map Event.sleep).filterMap Event.drained? = [] ∧
      (slept.map Event.sleep).countP Event.loads = 0 := by
    simp [filterMap_map, Function.comp_def, Event.body?, Event.drained?, Event.loads]
  refine ⟨?_, ?_, ?_⟩
  · rw [filterMap_append, silent.1, append_nil, accounts.bodies]
  · rw [filterMap_append, silent.2.1, append_nil, accounts.drained]
  · rw [countP_append, silent.2.2, accounts.loads, add_zero]

theorem Accounts.drain {n : Nat} {refreshed : Bool} {log : List Event}
    (accounts : Accounts c call (n + 1) n refreshed log) : Accounts c call (n + 1) (n + 1) refreshed
      (log ++ if (c.do_ n).answered then [.drainAndClose n] else []) := by
  obtain ⟨bodies, drained, loads⟩ := accounts
  cases answers : (c.do_ n).answered <;> refine ⟨?_, ?_, ?_⟩ <;>
    simp [bodies, drained, loads, answers, answersAt, range_succ, filter_append,
      Event.body?, Event.drained?, Event.loads]

theorem Accounts.refresh {n : Nat} {log : List Event}
    (accounts : Accounts c call (n + 1) n false log) (refused : (c.do_ n).unauthorized = true) :
    Accounts c call (n + 1) (n + 1) true (log ++ [.drainAndClose n, .loadToken]) := by
  have answers : (c.do_ n).answered = true := by
    cases replied : c.do_ n with
    | transportError err => simp [replied, Reply.unauthorized] at refused
    | response status => rfl
  obtain ⟨bodies, drained, loads⟩ := accounts.drain
  rw [answers] at bodies drained loads
  refine ⟨?_, ?_, ?_⟩
  · simpa [filterMap_cons, Event.body?] using bodies
  · simpa [filterMap_cons, Event.drained?] using drained
  · simpa [Event.loads] using loads

theorem Kept.sends (kept : Kept c call p) (slept : List Int64) :
    Accounts c call (p.sent + 1) p.sent p.refreshed
      (c.sending call { p with log := p.log ++ slept.map .sleep }).log := by
  obtain ⟨bodies, drained, loads⟩ := kept.toAccounts.slept slept
  have body : call.newBody.map (Body.mk p.readers) = call.newBody.map (Body.mk p.sent) := by
    cases made : call.newBody with
    | none => rfl
    | some payload => rw [kept.readers (by simp [made])]
  refine ⟨?_, ?_, ?_⟩
  · rw [sending, filterMap_append, bodies, range_succ, map_append, map_singleton, ← body]
    rfl
  · rw [sending, filterMap_append, drained]
    exact append_nil _
  · rw [sending, countP_append, loads]
    rfl

/-- An iteration keeps the account, or ends the call with what it may leave. -/
theorem Kept.iterate (kept : Kept c call p) (within : p.attempt < c.retry.attempts) :
    (∃ next, c.iteration call p = (next, none) ∧ Kept c call next) ∨
      ∃ next result n, c.iteration call p = (next, some result) ∧
        Leaves c call n next.log result := by
  have counted := kept.counted
  have once := Bool.toNat_le p.refreshed
  obtain ⟨⟨slept, paused_eq⟩, unreturned⟩ := pause_cases (c := c) (p := p)
  unfold iteration
  generalize c.pause p = pause at paused_eq unreturned
  obtain ⟨paused, stopped⟩ := pause
  obtain rfl := paused_eq
  have quiet := kept.toAccounts.slept slept
  have ends : ∀ result, (∀ resp, result ≠ .ok resp) →
      Leaves c call p.sent (p.log ++ slept.map .sleep) result := fun result failed =>
    ⟨by omega, quiet.bodies, quiet.loads ▸ once, fun resp ok => absurd ok (failed resp),
      fun _ => quiet.drained⟩
  cases stopped with
  | some result =>
    exact .inr ⟨_, result, p.sent, rfl, ends result fun resp ok => unreturned resp (by rw [ok])⟩
  | none =>
    dsimp only
    cases built : c.newRequest call.method (c.endpoint ++ call.path) with
    | some err =>
      rw [doAttempt, built]
      exact .inr ⟨_, _, p.sent, rfl, ends _ (by simp)⟩
    | none =>
      have sent := kept.sends slept
      have readers : call.newBody.isSome → (if call.newBody.isSome then p.readers + 1
          else p.readers) = p.sent + 1 := fun posts => by rw [if_pos posts, kept.readers posts]
      obtain ⟨-, err, retried⟩ | ⟨refused, unused, refreshed⟩ |
        ⟨status, replied, final, -, returned⟩ :=
          doAttempt_cases (p := { p with log := p.log ++ slept.map .sleep }) built
      · rw [retried]
        refine .inl ⟨_, rfl, sent.drain, ?_, readers⟩
        simp only [sending]
        omega
      · rw [refreshed]
        have fresh : p.refreshed = false := unused
        rw [fresh] at sent counted
        refine .inl ⟨_, rfl, sent.refresh refused, ?_, readers⟩
        simp [sending, counted]
      · rw [returned]
        refine .inr ⟨_, _, p.sent + 1, rfl, by omega, sent.bodies, sent.loads ▸ once, ?_, ?_⟩
        · rintro resp ⟨⟩
          exact ⟨rfl, replied, final, sent.drained⟩
        · exact fun failed => absurd rfl (failed _)

theorem Kept.run (kept : Kept c call p) (within : p.attempt ≤ c.retry.attempts) :
    ∃ n, Leaves c call n (c.loop call p).1.log (c.loop call p).2 := by
  induction p using loop.induct c call with
  | case1 p before next result done =>
    have run : c.loop call p = (next, result) := by
      rw [loop, if_pos before]
      split <;> simp_all
    obtain ⟨other, goes_on, -⟩ | ⟨other, _, n, ended, leaves⟩ := kept.iterate before
    · cases done.symm.trans goes_on
    · cases done.symm.trans ended
      rw [run]
      exact ⟨n, leaves⟩
  | case2 p before next goes_on ih =>
    have run : c.loop call p = c.loop call next := by
      rw [loop, if_pos before]
      split <;> simp_all
    have counts := iteration_counts goes_on
    obtain ⟨other, same, next_kept⟩ | ⟨other, _, n, ended, -⟩ := kept.iterate before
    · cases goes_on.symm.trans same
      rw [run]
      exact ih next_kept (by omega)
    · cases goes_on.symm.trans ended
  | case3 p after =>
    have counted := kept.counted
    have once := Bool.toNat_le p.refreshed
    rw [loop, if_neg after]
    exact ⟨p.sent, by omega, kept.bodies, kept.loads ▸ once, by simp, fun _ => kept.drained⟩

/-- However a call ends, with a response, an error, a cancelled sleep or a panic, it has sent at
most as many requests as attempts and one more, each `POST` with a reader of its own, has loaded a
token at most once, and has drained every response once, except the one that it returns. -/
theorem authorizedDo_leaves (c : EnterpriseControlPlaneClient) (call : Call) :
    ∃ n, Leaves c call n (c.authorizedDo call).1.log (c.authorizedDo call).2 :=
  Kept.run ⟨⟨rfl, rfl, rfl⟩, rfl, fun _ => rfl⟩ (Nat.zero_le _)

end EnterpriseControlPlaneClient
end DatawerxMesh.Client
