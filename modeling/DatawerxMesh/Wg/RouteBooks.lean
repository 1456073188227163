import DatawerxMesh.Routed.Manager
import DatawerxMesh.Wg.Routes

/-!
# Host routes and their bookkeeping

Both data planes withdraw routes by their records while the table is shared, so a peer that gives up
a route takes it away from every other peer that has the same one.
-/

namespace DatawerxMesh.Wg

open Go Program Host List Function
open Ledger (recorded recorded_insert recorded_erase)

variable {Key Endpoint : Type}

/-- Calls of the manager by the peer reconciler. -/
inductive Call where
  | configurePeer (peerKey endpoint : Str) (allowedIPs : List Str)
  | removePeer (peerKey : Str)

/-- The device and the record of the manager. -/
structure State where
  device : Option Device
  peerRoutes : PeerRoutes
  printed : Printed peerRoutes

namespace State

/-- There is no device, and nothing is recorded. -/
def empty : State := ⟨none, ∅, by simp [Printed, recorded]⟩

/-- The host, with the routes it still takes. -/
def host (s : State) (budget : Option Nat) : Host := ⟨s.device, budget⟩

/-- The destinations that are routed into the device. -/
def routes (s : State) : Finset Str := (s.host none).routes

/-- The shared table with the records of the peers. -/
def book (s : State) : Ledger.Book Str Str := ⟨{c | c ∈ s.routes}, recorded s.peerRoutes⟩

end State

/-- A call has its effect, is refused before any route is touched, or fails at a route. -/
inductive Ending where
  | done
  | refused
  | routeFailed
  deriving DecidableEq

/-- How a configuration ends. -/
def configureEnding : Except ConfigureError PeerRoutes → Ending
  | .ok _ => .done
  | .error (.early _) => .refused
  | .error (.route _ _) => .routeFailed

/-- How a removal ends. -/
def removeEnding : Except Str PeerRoutes → Ending
  | .ok _ => .done
  | .error _ => .refused

/-- One call with its ending.  With a budget, that many replacements of routes succeed in it. -/
inductive Step (Endpoint : Type) (config : Config Key) (budget : Option Nat) :
    State → Call × Ending → State → Prop
  | configurePeer {before after : State} {peerKey endpoint : Str} {allowedIPs : List Str}
      {result : Except ConfigureError PeerRoutes} {host : Host}
      (returns : (world Key Endpoint).Returns
        (configurePeer config before.peerRoutes peerKey endpoint allowedIPs)
        (before.host budget) result host)
      (device_eq : after.device = host.device)
      (record_eq : after.peerRoutes = result.toOption.getD before.peerRoutes) :
      Step Endpoint config budget before
        (.configurePeer peerKey endpoint allowedIPs, configureEnding result) after
  | removePeer {before after : State} {peerKey : Str} {result : Except Str PeerRoutes} {host : Host}
      (returns : (world Key Endpoint).Returns (removePeer config before.peerRoutes peerKey)
        (before.host budget) result host)
      (device_eq : after.device = host.device)
      (record_eq : after.peerRoutes = result.toOption.getD before.peerRoutes) :
      Step Endpoint config budget before (.removePeer peerKey, removeEnding result) after

/-- The peer whose routes a call replaces, with the new routes. -/
def Call.target : Call → Option (Str × List Str)
  | .configurePeer peerKey _ allowedIPs =>
    (parseCIDRs allowedIPs).toOption.map fun nets => (peerKey, nets.map IPNet.string)
  | .removePeer peerKey => some (peerKey, [])

/-- No route that the call withdraws is recorded for another peer. -/
def Call.Exclusive (s : State) (call : Call) : Prop :=
  ∀ peerKey routes, call.target = some (peerKey, routes) → s.book.Exclusive peerKey routes

section Steps

variable {config : Config Key} {budget : Option Nat} {before after : State}
  {label : Call × Ending}

theorem State.routes_eq {host : Host} (device_eq : after.device = host.device) :
    after.routes = host.routes := by
  rw [State.routes, Host.routes, Host.routes, State.host, device_eq]

theorem book_of_done {call : Call} (step : Step Endpoint config budget before (call, .done) after) :
    ∃ peerKey routes, call.target = some (peerKey, routes) ∧
      after.book = before.book.assign peerKey routes := by
  generalize label_eq : (call, Ending.done) = label at step
  cases step with
  | @configurePeer _ peerKey endpoint allowedIPs result host returns device_eq record_eq =>
    have done := (yields_configurePeer config before.printed peerKey endpoint
      allowedIPs).returns returns
    obtain ⟨rfl, ending⟩ := Prod.mk.inj label_eq
    cases result with
    | error error => cases error <;> cases ending
    | ok record =>
      obtain ⟨nets, parsed, rfl, routes_eq⟩ := done
      refine ⟨peerKey, nets.map IPNet.string, ?_, ?_⟩
      · rw [Call.target, parsed]
        rfl
      · rw [Ledger.Book.assign_eq, State.book, record_eq, State.routes_eq device_eq, routes_eq]
        refine Ledger.Book.ext (Set.ext fun c => ?_) (recorded_insert _ _ _)
        simp [State.book, State.routes, State.host, Host.routes, Ledger.Book.install,
          Ledger.Book.withdraw, staleRoutes]
  | @removePeer _ peerKey result host returns device_eq record_eq =>
    have done := (yields_removePeer config before.printed peerKey).returns returns
    obtain ⟨rfl, ending⟩ := Prod.mk.inj label_eq
    cases result with
    | error error => cases ending
    | ok record =>
      obtain ⟨rfl, routes_eq⟩ := done
      refine ⟨peerKey, [], rfl, ?_⟩
      rw [State.book, record_eq, State.routes_eq device_eq, routes_eq]
      refine Ledger.Book.ext (Set.ext fun c => ?_) (recorded_erase _ _)
      simp [State.book, State.routes, State.host, Host.routes, Ledger.Book.assign]

/-- Without a budget no call fails at a route, and any other failing call changes nothing. -/
theorem book_of_not_done (step : Step Endpoint config none before label after)
    (not_done : label.2 ≠ .done) : after.book = before.book := by
  cases step with
  | @configurePeer _ peerKey endpoint allowedIPs result host returns device_eq record_eq =>
    have done := (yields_configurePeer config before.printed peerKey endpoint
      allowedIPs).returns returns
    cases result with
    | ok record => exact absurd rfl not_done
    | error error =>
      cases error with
      | early text =>
        rw [State.book, State.book, record_eq, State.routes_eq device_eq, done]
        rfl
      | route dst error =>
        obtain ⟨nets, count, parsed, used, short, routes_eq⟩ := done
        cases used
  | @removePeer _ peerKey result host returns device_eq record_eq =>
    have done := (yields_removePeer config before.printed peerKey).returns returns
    cases result with
    | ok record => exact absurd rfl not_done
    | error error => rw [State.book, State.book, record_eq, State.routes_eq device_eq, done]; rfl

theorem balanced_iff_of_step (step : Step Endpoint config none before label after)
    (balanced : before.book.Balanced) :
    after.book.Balanced ↔ (label.2 = .done → label.1.Exclusive before) := by
  obtain ⟨call, ending⟩ := label
  by_cases is_done : ending = .done
  · subst is_done
    obtain ⟨peerKey, routes, target, book_eq⟩ := book_of_done step
    rw [book_eq, Ledger.Book.balanced_assign_iff balanced]
    constructor
    · intro exclusive _ other others targeted
      rw [target] at targeted
      cases targeted
      exact exclusive
    · intro exclusive
      exact exclusive rfl peerKey routes target
  · rw [book_of_not_done step is_done]
    exact iff_of_true balanced fun done => absurd done is_done

theorem routes_of_routeFailed {peerKey endpoint : Str} {allowedIPs : List Str} {nets : List IPNet}
    {count : Nat} (parsed : parseCIDRs allowedIPs = .ok nets)
    (step : Step Endpoint config (some count) before
      (.configurePeer peerKey endpoint allowedIPs, .routeFailed) after) :
    after.peerRoutes = before.peerRoutes ∧
      after.routes = before.routes \ ((nets.take count).map IPNet.string).toFinset := by
  generalize label_eq : (Call.configurePeer peerKey endpoint allowedIPs, Ending.routeFailed) =
    label at step
  cases step with
  | removePeer returns device_eq record_eq => cases label_eq
  | @configurePeer _ key place cidrs result host returns device_eq record_eq =>
    have done := (yields_configurePeer config before.printed key place cidrs).returns returns
    obtain ⟨call_eq, ending⟩ := Prod.mk.inj label_eq
    cases call_eq
    cases result with
    | ok record => cases ending
    | error error =>
      cases error with
      | early text => cases ending
      | route dst error =>
        obtain ⟨nets', count', parsed', used, short, routes_eq⟩ := done
        obtain rfl : nets' = nets := by
          rw [parsed] at parsed'
          exact (Except.ok.inj parsed').symm
        obtain rfl : count' = count := (Option.some.inj used).symm
        refine ⟨record_eq, ?_⟩
        rw [State.routes_eq device_eq, routes_eq, map_take]
        rfl

end Steps

/-- A host on which nothing fails but what has to. -/
def Host.obey (request : Request Unit Unit) (host : Host) : request.Answer × Host :=
  match request with
  | .resolveUDPAddr _ => (.ok (), host)
  | .linkByName =>
    match host.device with
    | some device => (.ok device.index, host)
    | none => (.error .linkNotFound, host)
  | .linkAdd =>
    match host.device with
    | some _ => (.error (.other []), host)
    | none => (.ok (), { host with device := some ⟨1, ∅⟩ })
  | .configureDevice _ =>
    match host.device with
    | some _ => (.ok (), host)
    | none => (.error .linkNotFound, host)
  | .routeReplace index dst =>
    match host.device with
    | none => (.error (.other []), host)
    | some device =>
      if device.index = index ∧ host.budget ≠ some 0 then
        (.ok (), ⟨some ⟨device.index, insert dst.string device.routes⟩, host.spent⟩)
      else (.error (.other []), host)
  | .routeDel index dst =>
    match host.device with
    | none => (.error (.other []), host)
    | some device =>
      if device.index = index then
        if dst.string ∈ device.routes then
          (.ok (), { host with
            device := some ⟨device.index, device.routes.erase dst.string⟩ })
        else (.error .noSuchRoute, host)
      else (.error (.other []), host)

theorem Host.responds_obey (request : Request Unit Unit) (host : Host) :
    Responds request host (obey request host).1 (obey request host).2 := by
  cases found : host.device with
  | none =>
    have nowhere : ∀ index, ¬ host.Linked index := by
      rintro index ⟨device, present, _⟩
      rw [found] at present
      cases present
    cases request with
    | resolveUDPAddr endpoint => exact .resolved _ _ _
    | linkByName => simpa only [obey, found] using Responds.linkMissing found
    | linkAdd => simpa only [obey, found] using Responds.linkAdded found 1
    | configureDevice peer => simpa only [obey, found] using Responds.deviceMissing found peer
    | routeReplace index dst =>
      simpa only [obey, found] using Responds.replaceElsewhere (nowhere index) dst []
    | routeDel index dst =>
      simpa only [obey, found] using Responds.deleteElsewhere (nowhere index) dst []
  | some device =>
    have elsewhere : ∀ {index}, device.index ≠ index → ¬ host.Linked index := by
      rintro index differs ⟨other, present, rfl⟩
      rw [found] at present
      cases present
      exact differs rfl
    cases request with
    | resolveUDPAddr endpoint => exact .resolved _ _ _
    | linkByName => simpa only [obey, found] using Responds.linkFound found
    | linkAdd => simpa only [obey, found] using Responds.addFailed host []
    | configureDevice peer => simpa only [obey, found] using Responds.configured found peer
    | routeReplace index dst =>
      simp only [obey, found]
      by_cases used : host.budget = some 0
      · simpa [used] using Responds.replaceFailed used index dst []
      · by_cases same : device.index = index
        · subst same
          simpa [used] using Responds.replaced found used dst
        · simpa [same] using Responds.replaceElsewhere (elsewhere same) dst []
    | routeDel index dst =>
      simp only [obey, found]
      by_cases same : device.index = index
      · subst same
        by_cases routed : dst.string ∈ device.routes
        · simpa [routed] using Responds.deleted found routed
        · simpa [routed] using Responds.routeMissing found routed
      · simpa [same] using Responds.deleteElsewhere (elsewhere same) dst []

namespace State

variable (config : Config Unit) (s : State)

/-- The ending of an undisturbed call, with the device and the record that it leaves behind. -/
def outcome (budget : Option Nat) : Call → Ending × Option Device × PeerRoutes
  | .configurePeer peerKey endpoint allowedIPs =>
    let (result, host) :=
      (Wg.configurePeer config s.peerRoutes peerKey endpoint allowedIPs).exec Host.obey
        (s.host budget)
    (configureEnding result, host.device, result.toOption.getD s.peerRoutes)
  | .removePeer peerKey =>
    let (result, host) :=
      (Wg.removePeer config s.peerRoutes peerKey).exec Host.obey (s.host budget)
    (removeEnding result, host.device, result.toOption.getD s.peerRoutes)

theorem step_of_outcome {budget : Option Nat} {call : Call} {ending : Ending} {after : State}
    (ends : (s.outcome config budget call).1 = ending)
    (device_eq : after.device = (s.outcome config budget call).2.1)
    (record_eq : after.peerRoutes.entries = (s.outcome config budget call).2.2.entries) :
    Step Unit config budget s (call, ending) after := by
  subst ends
  cases call with
  | configurePeer peerKey endpoint allowedIPs =>
    exact .configurePeer (World.returns_exec Host.responds_obey _ _) device_eq (AList.ext record_eq)
  | removePeer peerKey =>
    exact .removePeer (World.returns_exec Host.responds_obey _ _) device_eq (AList.ext record_eq)

/-- A state with another device in which the routes of a peer are recorded. -/
def record (device : Device) (peerKey : Str) (nets : List IPNet) : State where
  device := some device
  peerRoutes := s.peerRoutes.insert peerKey (nets.map IPNet.string)
  printed := by
    intro other c mem
    rw [recorded_insert] at mem
    by_cases same : other = peerKey
    · subst same
      rw [update_self, mem_map] at mem
      obtain ⟨net, _, text_eq⟩ := mem
      exact ⟨net, text_eq⟩
    · rw [update_of_ne same] at mem
      exact s.printed other c mem

/-- A state with another device in which the routes of a peer are forgotten. -/
def forget (device : Device) (peerKey : Str) : State where
  device := some device
  peerRoutes := s.peerRoutes.erase peerKey
  printed := by
    intro other c mem
    rw [recorded_erase] at mem
    by_cases same : other = peerKey
    · subst same
      rw [update_self] at mem
      cases mem
    · rw [update_of_ne same] at mem
      exact s.printed other c mem

end State

/-- All along a run in which no operation on a route fails, the installed routes are those recorded
for the peers, exactly if no call withdraws a route that is recorded for another peer. -/
theorem routes_match_records_iff (Endpoint : Type) (config : Config Key) :
    (∀ steps : List (Ledger.Step Routed.State Routed.Call),
      Ledger.History (fun before call after => after = before.run none call)
        Routed.State.empty steps →
      ((∀ s ∈ steps, s.after.book.Balanced) ↔ ∀ s ∈ steps, s.label.Exclusive s.before)) ∧
    ∀ steps : List (Ledger.Step State (Call × Ending)),
      Ledger.History (Step Endpoint config none) State.empty steps →
      ((∀ s ∈ steps, s.after.book.Balanced) ↔
        ∀ s ∈ steps, s.label.2 = .done → s.label.1.Exclusive s.before) := by
  constructor
  · intro steps history
    have start : Routed.State.empty.book.Balanced := by
      intro route
      simp [Routed.State.book, Routed.State.empty, recorded]
    refine history.invariant_iff (fun s => s.book.Balanced) (fun s call => call.Exclusive s)
      (fun before call after taken balanced => ?_) start
    rw [taken]
    exact Routed.balanced_run_iff before balanced call
  · intro steps history
    have start : State.empty.book.Balanced := by
      intro route
      simp [State.book, State.routes, State.host, State.empty, Host.routes, recorded]
    exact history.invariant_iff (fun s => s.book.Balanced)
      (fun s label => label.2 = .done → label.1.Exclusive s)
      (fun before label after => balanced_iff_of_step) start

/-- The manager of an interface whose peers have keys of the right length. -/
def meshConfig : Config Unit where
  ifaceName := "dwx-mesh0"
  keepalive := 25
  parseKey key := if key.length = 44 then .ok () else .error "incorrect key size"
  quote := id

/-- The public key of a peer. -/
def keyA : Str := "xTIBA5rboUvnH4htodjb6e697QjLERt1NAB4mZqp8Dg="

/-- The public key of another peer. -/
def keyB : Str := "HIgo9xNzJMWLKASShiTqIybxZ0U3wGLiUeJ1PKf8ykw="

/-- `10.96.0.0/16`. -/
def servicesNet : IPNet :=
  .four (Addressing.Block.around 0x0A600000#32 16 (Nat.le_add_right 16 16))

/-- `10.97.0.0/16`. -/
def moreServicesNet : IPNet :=
  .four (Addressing.Block.around 0x0A610000#32 16 (Nat.le_add_right 16 16))

/-- Program a peer behind an overlay address. -/
def configure (peerKey : Str) (allowedIPs : List Str) : Routed.Call :=
  .configurePeer peerKey "100.64.0.5" allowedIPs

/-- Program a peer of the device. -/
def configureWg (peerKey : Str) (allowedIPs : List Str) : Call :=
  .configurePeer peerKey "203.0.113.7:51820" allowedIPs

/-- The device with routes for the networks. -/
def meshDevice (nets : List IPNet) : Device := ⟨1, (nets.map IPNet.string).toFinset⟩

/-- One peer with a route. -/
def oneShared : State := State.empty.record (meshDevice [servicesNet]) keyA [servicesNet]

/-- Two peers are programmed with the same network. -/
def bothShared : State := oneShared.record (meshDevice [servicesNet]) keyB [servicesNet]

theorem step_oneShared : Step Unit meshConfig none State.empty
    (configureWg keyA ["10.96.0.0/16"], .done) oneShared :=
  State.step_of_outcome meshConfig State.empty (by decide +kernel) (by decide +kernel)
    (by decide +kernel)

theorem routes_match_records_one_peer :
    (Routed.State.empty.run none (configure keyA ["10.96.0.0/16"])).book.Balanced ∧
      oneShared.book.Balanced := by
  obtain ⟨routed, wg⟩ := routes_match_records_iff Unit meshConfig
  constructor
  · refine (routed [⟨Routed.State.empty, _, _⟩] (.cons rfl (.nil _))).mpr ?_ _ mem_cons_self
    intro step mem peerKey routes _ route old
    obtain rfl := mem_singleton.mp mem
    cases old
  · refine (wg [⟨State.empty, _, oneShared⟩] (.cons step_oneShared (.nil _))).mpr ?_ _ mem_cons_self
    intro step mem _ peerKey routes _ c old
    obtain rfl := mem_singleton.mp mem
    cases old

/-- Two peers get the same route, and one of them is removed. -/
def firstRemoved : Routed.State :=
  ((Routed.State.empty.run none (configure keyA ["10.96.0.0/16"])).run none
    (configure keyB ["10.96.0.0/16"])).run none (.removePeer keyA)

/-- When one of two peers with the same route is removed, the route is gone, and the record still
has it for the other. -/
theorem shared_route_withdrawn :
    (firstRemoved.routes = ∅ ∧ recorded firstRemoved.peerRoutes keyB =
      [⟨str "10.96.0.0/16", str "100.64.0.5"⟩]) ∧
    ∃ steps, Ledger.History (Step Unit meshConfig none) State.empty steps ∧
      ∃ s ∈ steps, s.after.routes = ∅ ∧
        recorded s.after.peerRoutes keyB = [str "10.96.0.0/16"] := by
  have second : Step Unit meshConfig none oneShared
      (configureWg keyB [str "10.96.0.0/16"], .done) bothShared :=
    State.step_of_outcome meshConfig oneShared (by decide +kernel) (by decide +kernel)
      (by decide +kernel)
  have third : Step Unit meshConfig none bothShared (.removePeer keyA, .done)
      (bothShared.forget (meshDevice []) keyA) :=
    State.step_of_outcome meshConfig bothShared (by decide +kernel) (by decide +kernel)
      (by decide +kernel)
  refine ⟨by decide +kernel, _, .cons step_oneShared (.cons second (.cons third (.nil _))), ?_⟩
  refine ⟨_, mem_cons_of_mem _ (mem_cons_of_mem _ mem_cons_self), ?_⟩
  decide +kernel

/-- A call that fails at a route leaves routes and records as they were exactly if none of the
routes before that one was installed already. -/
theorem configure_failure_atomic_iff (Endpoint : Type) (config : Config Key)
    (peerKey endpoint : Str) (allowedIPs : List Str) (count : Nat) :
    (∀ (s : Routed.State) (desired : List Routed.Route),
      Routed.planRoutes allowedIPs (Routed.hostOnly endpoint) = .ok desired →
      count < desired.length →
      (s.run (some count) (.configurePeer peerKey endpoint allowedIPs) = s ↔
        ∀ route ∈ desired.take count, route ∉ s.routes)) ∧
    ∀ (s after : State) (nets : List IPNet), parseCIDRs allowedIPs = .ok nets →
      Step Endpoint config (some count) s
        (.configurePeer peerKey endpoint allowedIPs, .routeFailed) after →
      ((after.routes = s.routes ∧ after.peerRoutes = s.peerRoutes) ↔
        ∀ net ∈ nets.take count, net.string ∉ s.routes) := by
  constructor
  · intro s desired planned short
    exact Routed.run_failed_eq_self_iff s planned short
  · intro s after nets parsed step
    obtain ⟨record_eq, routes_eq⟩ := routes_of_routeFailed parsed step
    rw [and_iff_left record_eq, routes_eq, sdiff_eq_left, Finset.disjoint_right]
    simp only [mem_toFinset, mem_map, forall_exists_index, and_imp, forall_apply_eq_imp_iff₂]

/-- Ask for one network more. -/
def bothNetworks : List Str := ["10.96.0.0/16", "10.97.0.0/16"]

/-- An interface without peers. -/
def linked : State := { State.empty with device := some (meshDevice []) }

theorem configure_failure_atomic_first_call :
    Routed.State.empty.run (some 1) (configure keyA bothNetworks) = Routed.State.empty ∧
      linked.routes = State.empty.routes := by
  obtain ⟨routed, wg⟩ := configure_failure_atomic_iff Unit meshConfig keyA "100.64.0.5"
    bothNetworks 1
  constructor
  · have planned : Routed.planRoutes bothNetworks (Routed.hostOnly "100.64.0.5") =
        .ok [⟨"10.96.0.0/16", "100.64.0.5"⟩, ⟨"10.97.0.0/16", "100.64.0.5"⟩] := by
      decide +kernel
    exact (routed Routed.State.empty _ planned (by decide)).mpr (by decide)
  · have parsed : parseCIDRs bothNetworks = .ok [servicesNet, moreServicesNet] := by
      decide +kernel
    have failing : Step Unit meshConfig (some 1) State.empty
        (.configurePeer keyA "100.64.0.5" bothNetworks, .routeFailed) linked :=
      State.step_of_outcome meshConfig State.empty (by decide +kernel) (by decide +kernel)
        (by decide +kernel)
    exact ((wg State.empty linked _ parsed failing).mpr (by decide +kernel)).1

/-- One peer with a route. -/
def oneRouted : Routed.State :=
  Routed.State.empty.run none (configure keyA ["10.96.0.0/16"])

/-- A peer gets one network more, and its route cannot be installed.  The route that the peer
already had is withdrawn, and the record still has it. -/
theorem live_route_withdrawn :
    (oneRouted.routes = {⟨str "10.96.0.0/16", str "100.64.0.5"⟩} ∧
      (oneRouted.run (some 1) (configure keyA bothNetworks)).routes = ∅ ∧
      recorded (oneRouted.run (some 1) (configure keyA bothNetworks)).peerRoutes
        keyA = [⟨str "10.96.0.0/16", str "100.64.0.5"⟩]) ∧
    Step Unit meshConfig none State.empty
      (configureWg keyA [str "10.96.0.0/16"], .done) oneShared ∧
    oneShared.routes = {str "10.96.0.0/16"} ∧
    ∃ after, Step Unit meshConfig (some 1) oneShared
        (configureWg keyA bothNetworks, .routeFailed) after ∧
      after.routes = ∅ ∧ recorded after.peerRoutes keyA = [str "10.96.0.0/16"] := by
  have failing : Step Unit meshConfig (some 1) oneShared
      (configureWg keyA bothNetworks, .routeFailed)
      (State.empty.record (meshDevice []) keyA [servicesNet]) :=
    State.step_of_outcome meshConfig oneShared (by decide +kernel) (by decide +kernel)
      (by decide +kernel)
  exact ⟨by decide +kernel, step_oneShared, by decide +kernel, _, failing, by decide +kernel,
    by decide +kernel⟩

end DatawerxMesh.Wg
