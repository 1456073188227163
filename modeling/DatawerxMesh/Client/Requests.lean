import DatawerxMesh.Go.Text
import DatawerxMesh.Client.Retry

/-!
# Requests to the control plane

`authorizedDo` of `pkg/client/controlplane.go`: a request is repeated while it fails in transit or
on the server, and once more with a new token when it is refused.
-/

namespace DatawerxMesh.Client

open Program Go

/-- What becomes of one request. -/
inductive Reply where
  | transportError (text : Str)
  | response (statusCode : Int)

/-- A response and the number of its request. -/
structure Response where
  number : Nat
  statusCode : Int
  deriving DecidableEq

/-- What a call of `newBody` makes: a reader of its own for the payload. -/
structure Body where
  reader : Nat
  payload : Str

/-- A request as it is sent. -/
structure Request where
  method : Str
  url : Str
  headers : List (Str × Str)
  body : Option Body

/-- The request may succeed when it is repeated. -/
def Reply.fails : Reply → Bool
  | .transportError _ => true
  | .response status => isRetryableStatus status

/-- The token is refused. -/
def Reply.unauthorized : Reply → Bool
  | .transportError _ => false
  | .response status => status = 401 ∨ status = 403

/-- The server has answered. -/
def Reply.answered : Reply → Bool
  | .transportError _ => false
  | .response _ => true

/-- What can be observed of a call of `authorizedDo`. -/
inductive Event where
  | sleep (d : Int64)
  | send (request : Request)
  | drainAndClose (number : Nat)
  | loadToken

/-- What the fields of the client do: the `n`-th request and the sleep before it, the draws of the
jitter, and the error of a request that cannot be built. -/
structure EnterpriseControlPlaneClient where
  endpoint : Str
  token : Str
  retry : RetryPolicy
  rng : Option (Nat → Int64 → Int64)
  sleep : Nat → Option Str
  newRequest : Str → Str → Option Str
  do_ : Nat → Reply
  tokenLoader : Str

/-- The variables of the loop, with what has been observed so far. -/
structure Progress where
  attempt : Nat
  refreshed : Bool
  lastErr : Option Str
  token : Str
  sent : Nat
  readers : Nat
  log : List Event

/-- What to do with a response. -/
inductive ResponseAction where
  | return_
  | refresh
  | retry

/-- What `doAttempt` returns: each action with its response or its error. -/
inductive Attempt where
  | return_ (result : Except Str Response)
  | refresh
  | retry (error : Str)

/-- `GET` has no `newBody`, and `POST` makes readers of its payload. -/
structure Call where
  method : Str
  path : Str
  newBody : Option Str

namespace EnterpriseControlPlaneClient

variable (c : EnterpriseControlPlaneClient)

/-- The token after a refresh; an empty one is not taken over. -/
def reloaded (token : Str) : Str :=
  let tok := trimSpace c.tokenLoader
  if tok ≠ [] then tok else token

/-- The first refusal renews the token; server errors are repeated. -/
def classifyResponse (resp : Response) (p : Progress) : Progress × ResponseAction :=
  if (resp.statusCode = 401 ∨ resp.statusCode = 403) ∧ p.refreshed = false then
    ({ p with
        refreshed := true
        token := c.reloaded p.token
        log := p.log ++ [.drainAndClose resp.number, .loadToken] }, .refresh)
  else if isRetryableStatus resp.statusCode then
    ({ p with log := p.log ++ [.drainAndClose resp.number] }, .retry)
  else (p, .return_)

/-- The request with the headers of `decorate`. -/
def request (call : Call) (p : Progress) : Request where
  method := call.method
  url := c.endpoint ++ call.path
  headers := [(str "Authorization", str "Bearer " ++ p.token),
    (str "Accept", str "application/json"), (str "User-Agent", str "datawerx-mesh-agent")] ++
      if call.newBody.isSome then [(str "Content-Type", str "application/json")] else []
  body := call.newBody.map (Body.mk p.readers)

/-- The state after a request is sent. -/
def sending (call : Call) (p : Progress) : Progress :=
  { p with
    sent := p.sent + 1
    readers := if call.newBody.isSome then p.readers + 1 else p.readers
    log := p.log ++ [.send (c.request call p)] }

/-- One request and what follows from its reply. -/
def doAttempt (call : Call) (p : Progress) : Progress × Attempt :=
  match c.newRequest call.method (c.endpoint ++ call.path) with
  | some err =>
    (p, .return_ (.error ("building request for " ++ call.path ++ ": " ++ err)))
  | none =>
    match c.do_ p.sent with
    | .transportError err => (c.sending call p, .retry ("transport error: " ++ err))
    | .response status =>
      match c.classifyResponse ⟨p.sent, status⟩ (c.sending call p) with
      | (next, .refresh) => (next, .refresh)
      | (next, .retry) => (next, .retry ("retryable HTTP " ++ itoaInt status))
      | (next, .return_) => (next, .return_ (.ok ⟨p.sent, status⟩))

/-- The sleep at the head of the loop; it may end the call. -/
def pause (p : Progress) : Progress × Option (Outcome Str Response) :=
  if p.attempt = 0 then (p, none)
  else
    match fullJitter (c.retry.backoff (p.attempt - 1)) (c.rng.map fun draw => draw p.sent) with
    | none => (p, some .panic)
    | some d => ({ p with log := p.log ++ [.sleep d] }, (c.sleep p.sent).map .err)

/-- The `switch` of the loop, with the counter as the next iteration finds it. -/
def switch : Progress × Attempt → Progress × Option (Outcome Str Response)
  | (p, .return_ (.ok resp)) => (p, some (.ok resp))
  | (p, .return_ (.error err)) => (p, some (.err err))
  | (p, .refresh) => (p, none)
  | (p, .retry err) => ({ p with attempt := p.attempt + 1, lastErr := some err }, none)

/-- One round of the retry loop. -/
def iteration (call : Call) (p : Progress) : Progress × Option (Outcome Str Response) :=
  match c.pause p with
  | (paused, some result) => (paused, some result)
  | (paused, none) => switch (c.doAttempt call paused)

variable {c} {call : Call} {p : Progress}

/-- An attempt fails and is drained, is refused for the first time, or is returned. -/
theorem doAttempt_cases (built : c.newRequest call.method (c.endpoint ++ call.path) = none) :
    (c.do_ p.sent).fails = true ∧ (∃ err, c.doAttempt call p = ({ c.sending call p with
        log := (c.sending call p).log ++
          if (c.do_ p.sent).answered then [.drainAndClose p.sent] else [] }, .retry err)) ∨
      (c.do_ p.sent).unauthorized = true ∧ p.refreshed = false ∧
        c.doAttempt call p = ({ c.sending call p with
          refreshed := true
          token := c.reloaded p.token
          log := (c.sending call p).log ++ [.drainAndClose p.sent, .loadToken] }, .refresh) ∨
      ∃ status, c.do_ p.sent = .response status ∧ isRetryableStatus status = false ∧
        ((c.do_ p.sent).unauthorized = true → p.refreshed = true) ∧
        c.doAttempt call p = (c.sending call p, .return_ (.ok ⟨p.sent, status⟩)) := by
  cases replied : c.do_ p.sent with
  | transportError err =>
    refine .inl ⟨rfl, "transport error: " ++ err, ?_⟩
    simp [doAttempt, built, replied, Reply.answered]
  | response status =>
    by_cases refresh : (status = 401 ∨ status = 403) ∧ p.refreshed = false
    · refine .inr (.inl ⟨by simpa [Reply.unauthorized] using refresh.1, refresh.2, ?_⟩)
      simp only [doAttempt, built, replied, classifyResponse]
      rw [if_pos (by exact refresh)]
      rfl
    · by_cases retryable : isRetryableStatus status = true
      · refine .inl ⟨retryable, "retryable HTTP " ++ itoaInt status, ?_⟩
        simp only [doAttempt, built, replied, classifyResponse]
        rw [if_neg (by exact refresh), if_pos retryable]
        rfl
      · refine .inr (.inr ⟨status, rfl, by simpa using retryable, fun refused => ?_, ?_⟩)
        · by_contra unused
          exact refresh ⟨by simpa [Reply.unauthorized] using refused, by simpa using unused⟩
        · simp only [doAttempt, built, replied, classifyResponse]
          rw [if_neg (by exact refresh), if_neg retryable]

theorem pause_cases : (∃ slept : List Int64, (c.pause p).1 =
    { p with log := p.log ++ slept.map .sleep }) ∧ ∀ resp, (c.pause p).2 ≠ some (.ok resp) := by
  unfold pause
  split
  · exact ⟨⟨[], by simp⟩, by simp⟩
  · split
    · exact ⟨⟨[], by simp⟩, by simp⟩
    · exact ⟨⟨[_], rfl⟩, by simp⟩

/-- An iteration that goes on counts an attempt or uses up the refresh. -/
theorem iteration_counts {next : Progress} (goes_on : c.iteration call p = (next, none)) :
    next.attempt = p.attempt + 1 ∧ next.refreshed = p.refreshed ∨
      next.attempt = p.attempt ∧ p.refreshed = false ∧ next.refreshed = true := by
  obtain ⟨⟨slept, paused_eq⟩, -⟩ := pause_cases (c := c) (p := p)
  unfold iteration at goes_on
  generalize c.pause p = pause at goes_on paused_eq
  obtain ⟨paused, stopped⟩ := pause
  obtain rfl := paused_eq
  cases stopped with
  | some result => simp at goes_on
  | none =>
    cases built : c.newRequest call.method (c.endpoint ++ call.path) with
    | some err => simp [doAttempt, built, switch] at goes_on
    | none =>
      obtain ⟨-, err, retried⟩ | ⟨-, unused, refreshed⟩ | ⟨status, -, -, -, returned⟩ :=
        doAttempt_cases (p := { p with log := p.log ++ slept.map .sleep }) built
      · cases (congrArg switch retried).symm.trans goes_on
        exact .inl ⟨rfl, rfl⟩
      · cases (congrArg switch refreshed).symm.trans goes_on
        exact .inr ⟨rfl, unused, rfl⟩
      · cases (congrArg switch returned).symm.trans goes_on

variable (c)

/-- The loop from where it stands on. -/
def loop (call : Call) (p : Progress) : Progress × Outcome Str Response :=
  if p.attempt < c.retry.attempts then
    match _goes_on : c.iteration call p with
    | (next, some result) => (next, result)
    | (next, none) => loop call next
  else
    let attempts := itoa c.retry.attempts
    (p, .err ("after " ++ attempts ++ " attempts: " ++
      p.lastErr.getD ("exhausted " ++ attempts ++ " attempts")))
  termination_by c.retry.attempts - p.attempt + (!p.refreshed).toNat
  decreasing_by
    obtain ⟨counted, same⟩ | ⟨same, before, after⟩ := iteration_counts _goes_on
    · rw [counted, same]
      omega
    · rw [same, before, after]
      exact Nat.lt_succ_self _

/-- The retry loop. -/
def authorizedDo (call : Call) : Progress × Outcome Str Response :=
  c.loop call ⟨0, false, none, c.token, 0, 0, []⟩

/-- A request without a body. -/
def authorizedGet (path : Str) : Progress × Outcome Str Response :=
  c.authorizedDo ⟨"GET", path, none⟩

/-- A request with a payload. -/
def authorizedPost (path payload : Str) : Progress × Outcome Str Response :=
  c.authorizedDo ⟨"POST", path, some payload⟩

end EnterpriseControlPlaneClient
end DatawerxMesh.Client
