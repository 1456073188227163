import Mathlib.Logic.Function.Basic

/-!
# The evidence reporters

`pkg/evidence/reporter.go`: on each node a reporter pushes the evidence of the cluster to the
control plane, which keeps the latest report.  Evidence with the digest of its last push is not
pushed.
-/

namespace DatawerxMesh.Evidence

open Function

variable {Payload Digest Node : Type} [DecidableEq Digest] [Inhabited Digest] [DecidableEq Node]

/-- The digest that was last accepted. -/
structure Reporter (Digest : Type) [Inhabited Digest] where
  lastHash : Digest := default
  pushed : Bool := false

/-- What becomes of a push.  One that fails may have reached the control plane all the same. -/
inductive Delivery where
  | accepted
  | lost
  | unacknowledged
  deriving DecidableEq

/-- `reportOnce` after the evidence has been gathered and marshaled, which may fail, with the
payload that reaches the control plane. -/
def Reporter.reportOnce (sum256 : Payload → Digest) (delivery : Delivery)
    (gathered : Option Payload) (r : Reporter Digest) : Reporter Digest × Option Payload :=
  match gathered with
  | none => (r, none)
  | some payload =>
    let hash := sum256 payload
    if r.pushed = true ∧ hash = r.lastHash then (r, none)
    else
      match delivery with
      | .accepted => (⟨hash, true⟩, some payload)
      | .lost => (r, none)
      | .unacknowledged => (r, some payload)

namespace Reporter

variable {sum256 : Payload → Digest} {delivery : Delivery} {payload : Payload} (r : Reporter Digest)

theorem reportOnce_cases (gathered : Option Payload) (acknowledged : delivery ≠ .unacknowledged) :
    r.reportOnce sum256 delivery gathered = (r, none) ∨ ∃ payload,
      r.reportOnce sum256 delivery gathered = (⟨sum256 payload, true⟩, some payload) := by
  cases gathered with
  | none => exact .inl rfl
  | some payload =>
    simp only [reportOnce]
    split
    · exact .inl rfl
    · cases delivery with
      | accepted => exact .inr ⟨payload, rfl⟩
      | lost => exact .inl rfl
      | unacknowledged => exact absurd rfl acknowledged

theorem reportOnce_known (pushed : r.pushed = true) (known : r.lastHash = sum256 payload) :
    r.reportOnce sum256 delivery (some payload) = (r, none) :=
  if_pos ⟨pushed, known.symm⟩

theorem reportOnce_accepted : (r.reportOnce sum256 .accepted (some payload)).1.pushed = true ∧
    (r.reportOnce sum256 .accepted (some payload)).1.lastHash = sum256 payload := by
  simp only [reportOnce]
  split
  · rename_i same
    exact ⟨same.1, same.2.symm⟩
  · exact ⟨rfl, rfl⟩

end Reporter

/-- The evidence of the cluster, its reporters with what each has gathered and not yet reported, and
the report that the control plane has. -/
structure Fleet (Payload Digest Node : Type) [Inhabited Digest] where
  evidence : Payload
  reporters : Node → Reporter Digest
  inFlight : Node → Option (Option Payload)
  stored : Option Payload

/-- The steps of a fleet. -/
inductive Event (Payload Node : Type) where
  | change (evidence : Payload)
  | restart (node : Node)
  | gather (node : Node) (fails : Bool)
  | report (node : Node) (delivery : Delivery)
  deriving DecidableEq

namespace Fleet

variable (sum256 : Payload → Digest)

/-- One event; a reporter gathers and reports in turns. -/
def step (s : Fleet Payload Digest Node) :
    Event Payload Node → Option (Fleet Payload Digest Node)
  | .change evidence => some { s with evidence }
  | .restart node => some { s with
      reporters := Function.update s.reporters node {}
      inFlight := Function.update s.inFlight node none }
  | .gather node fails =>
    match s.inFlight node with
    | some _ => none
    | none => some { s with
        inFlight := Function.update s.inFlight node
          (some (if fails then none else some s.evidence)) }
  | .report node delivery =>
    match s.inFlight node with
    | none => none
    | some gathered =>
      let reported := (s.reporters node).reportOnce sum256 delivery gathered
      some { s with
        reporters := Function.update s.reporters node reported.1
        inFlight := Function.update s.inFlight node none
        stored := reported.2.or s.stored }

/-- A sequence of steps, if all are possible. -/
def run (s : Fleet Payload Digest Node) (events : List (Event Payload Node)) :
    Option (Fleet Payload Digest Node) :=
  events.foldlM (step sum256) s

end Fleet

/-- How far a reporter is, since the evidence last changed, with a pass that succeeds. -/
inductive Pass where
  | pending
  | gathered
  | reported
  deriving DecidableEq

/-- The pass of a node after a step. -/
def Pass.after (node : Node) (pass : Pass) : Event Payload Node → Pass
  | .change _ => .pending
  | .restart other => if other = node then .pending else pass
  | .gather other fails =>
    if other = node ∧ fails = false ∧ pass = .pending then .gathered else pass
  | .report other delivery =>
    if other = node ∧ pass = .gathered then
      if delivery = .accepted then .reported else .pending
    else pass

namespace Fleet

variable (sum256 : Payload → Digest)

/-- Some reporter is going to push in any case, or one knows the digest of the stored report. -/
def Accounted (s : Fleet Payload Digest Node) : Prop :=
  ∃ node, (s.reporters node).pushed = true →
    ∃ payload, s.stored = some payload ∧ (s.reporters node).lastHash = sum256 payload

/-- What is known of a reporter from its pass. -/
def Follows (s : Fleet Payload Digest Node) (node : Node) : Pass → Prop
  | .pending => True
  | .gathered => s.inFlight node = some (some s.evidence)
  | .reported => (s.reporters node).pushed = true ∧
      (s.reporters node).lastHash = sum256 s.evidence ∧
      ∀ payload, s.inFlight node = some (some payload) → payload = s.evidence

variable {sum256} {s next : Fleet Payload Digest Node} {event : Event Payload Node}

theorem step_gather {node : Node} {fails : Bool}
    (stepped : s.step sum256 (.gather node fails) = some next) :
    s.inFlight node = none ∧ next = { s with
      inFlight := Function.update s.inFlight node
        (some (if fails then none else some s.evidence)) } := by
  rw [step] at stepped
  cases held : s.inFlight node with
  | some gathered => simp [held] at stepped
  | none =>
    rw [held] at stepped
    exact ⟨rfl, (Option.some.inj stepped).symm⟩

theorem step_report {node : Node} {delivery : Delivery}
    (stepped : s.step sum256 (.report node delivery) = some next) :
    ∃ gathered, s.inFlight node = some gathered ∧ next = { s with
      reporters := Function.update s.reporters node
        ((s.reporters node).reportOnce sum256 delivery gathered).1
      inFlight := Function.update s.inFlight node none
      stored := ((s.reporters node).reportOnce sum256 delivery gathered).2.or s.stored } := by
  rw [step] at stepped
  cases held : s.inFlight node with
  | none => simp [held] at stepped
  | some gathered =>
    rw [held] at stepped
    exact ⟨gathered, rfl, (Option.some.inj stepped).symm⟩

theorem Accounted.step (accounted : s.Accounted sum256) (stepped : s.step sum256 event = some next)
    (acknowledged : ∀ node, event ≠ .report node .unacknowledged) : next.Accounted sum256 := by
  obtain ⟨writer, knows⟩ := accounted
  cases event with
  | change evidence =>
    cases stepped
    exact ⟨writer, knows⟩
  | restart node =>
    cases stepped
    exact ⟨node, by simp⟩
  | gather node fails =>
    obtain ⟨-, rfl⟩ := step_gather stepped
    exact ⟨writer, knows⟩
  | report node delivery =>
    obtain ⟨gathered, -, rfl⟩ := step_report stepped
    have answered : delivery ≠ .unacknowledged := fun same => acknowledged node (same ▸ rfl)
    obtain unchanged | ⟨payload, pushes⟩ :=
      (s.reporters node).reportOnce_cases gathered answered
    · rw [unchanged, update_eq_self]
      exact ⟨writer, knows⟩
    · rw [pushes]
      exact ⟨node, fun _ => ⟨payload, rfl, by simp⟩⟩

theorem Follows.step {node : Node} {pass : Pass} (follows : s.Follows sum256 node pass)
    (stepped : s.step sum256 event = some next) :
    next.Follows sum256 node (pass.after node event) := by
  cases event with
  | change evidence => trivial
  | restart other =>
    cases stepped
    rw [Pass.after]
    split
    · trivial
    · rename_i apart
      simpa [Follows, update_of_ne (Ne.symm apart)] using follows
  | gather other fails =>
    obtain ⟨free, rfl⟩ := step_gather stepped
    rcases eq_or_ne node other with rfl | apart
    · cases pass with
      | pending => cases fails <;> simp [Pass.after, Follows]
      | gathered => cases free.symm.trans follows
      | reported => cases fails <;> simp_all [Pass.after, Follows]
    · simpa [Pass.after, Follows, apart.symm, update_of_ne apart] using follows
  | report other delivery =>
    obtain ⟨gathered, held, rfl⟩ := step_report stepped
    rcases eq_or_ne node other with rfl | apart
    · cases pass with
      | pending => simp [Pass.after, Follows]
      | gathered =>
        obtain rfl := Option.some.inj (held.symm.trans follows)
        rw [Pass.after, if_pos ⟨rfl, rfl⟩]
        split
        · rename_i accepted
          subst accepted
          simpa [Follows] using (s.reporters node).reportOnce_accepted
        · trivial
      | reported =>
        obtain ⟨pushed, known, current⟩ := follows
        have kept : ((s.reporters node).reportOnce sum256 delivery gathered).1 =
            s.reporters node := by
          cases gathered with
          | none => rfl
          | some payload =>
            rw [Reporter.reportOnce_known _ pushed (current payload held ▸ known)]
        simp [Pass.after, Follows, kept, pushed, known]
    · simpa [Pass.after, Follows, apart.symm, update_of_ne apart] using follows

theorem run_keeps {events : List (Event Payload Node)} {pass : Node → Pass}
    (accounted : s.Accounted sum256) (follows : ∀ node, s.Follows sum256 node (pass node))
    (ran : s.run sum256 events = some next)
    (acknowledged : ∀ node, .report node .unacknowledged ∉ events) :
    next.Accounted sum256 ∧
      ∀ node, next.Follows sum256 node (events.foldl (Pass.after node) (pass node)) := by
  induction events generalizing s pass with
  | nil =>
    cases ran
    exact ⟨accounted, follows⟩
  | cons event events ih =>
    obtain ⟨middle, stepped, rest⟩ := Option.bind_eq_some_iff.mp ran
    have answered : ∀ node, event ≠ .report node .unacknowledged := fun node same =>
      acknowledged node (same ▸ .head _)
    exact ih (accounted.step stepped answered) (fun node => (follows node).step stepped) rest
      fun node mem => acknowledged node (.tail _ mem)

end Fleet

/-- Two nodes before their first reports. -/
def twoNodes : Fleet Nat Nat Bool := ⟨3, fun _ => {}, fun _ => none, none⟩

/-- One node reports what has changed meanwhile, and a report of the other one is lost. -/
def raced : List (Event Nat Bool) :=
  [.gather true false, .change 7, .report true .accepted, .gather false false, .report false .lost,
    .gather true false, .gather false false, .report false .accepted, .report true .accepted]

-- After a push that is stored without an acknowledgement, a skipped report hides the difference.
example : (twoNodes.run id [.gather true false, .report true .accepted, .change 7,
    .gather true false, .report true .unacknowledged, .change 3, .gather true false,
    .report true .accepted]).map (fun s => (s.stored, s.evidence)) = some (some 7, 3) := rfl

end DatawerxMesh.Evidence
