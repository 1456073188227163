import DatawerxMesh.Wg.Manager

/-!
# What the WireGuard manager does to routes

A call replaces the routes of its peer, or is refused before it touches any, or fails at a route and
withdraws those it has replaced before.
-/

namespace DatawerxMesh.Wg

open Go Program World List
open Ledger (recorded)

variable {Key Endpoint : Type}

namespace Host

variable {host after : Host}

theorem world_drifts (drift : (world Key Endpoint).Drifts host after) : after = host := by
  induction drift with
  | refl => rfl
  | tail _ step _ => exact step.elim

theorem responds_linkByName {answer : (Request.linkByName : Request Key Endpoint).Answer}
    (responds : Responds .linkByName host answer after) :
    after = host ∧ ((∃ device, host.device = some device ∧ answer = .ok device.index) ∨
      host.device = none ∧ answer = .error .linkNotFound ∨
        ∃ text, answer = .error (.other text)) := by
  cases responds with
  | linkFound present => exact ⟨rfl, .inl ⟨_, present, rfl⟩⟩
  | linkMissing absent => exact ⟨rfl, .inr (.inl ⟨absent, rfl⟩)⟩
  | lookupFailed _ text => exact ⟨rfl, .inr (.inr ⟨text, rfl⟩)⟩

theorem responds_linkAdd {answer : (Request.linkAdd : Request Key Endpoint).Answer}
    (responds : Responds .linkAdd host answer after) :
    (host.device = none ∧ ∃ index, after = { host with device := some ⟨index, ∅⟩ }) ∨
      after = host := by
  cases responds with
  | linkAdded absent index => exact .inl ⟨absent, index, rfl⟩
  | addFailed _ text => exact .inr rfl

theorem responds_configureDevice {peer : PeerConfig Key Endpoint}
    {answer : (Request.configureDevice peer).Answer}
    (responds : Responds (.configureDevice peer) host answer after) :
    after = host ∧ ((∃ device, host.device = some device ∧ answer = .ok ()) ∨
      host.device = none ∧ answer = .error .linkNotFound ∨
        ∃ text, answer = .error (.other text)) := by
  cases responds with
  | configured present => exact ⟨rfl, .inl ⟨_, present, rfl⟩⟩
  | deviceMissing absent => exact ⟨rfl, .inr (.inl ⟨absent, rfl⟩)⟩
  | configureFailed _ _ text => exact ⟨rfl, .inr (.inr ⟨text, rfl⟩)⟩

theorem responds_routeReplace {index : Nat} {dst : IPNet}
    {answer : (Request.routeReplace index dst : Request Key Endpoint).Answer}
    (linked : host.Linked index) (responds : Responds (.routeReplace index dst) host answer after) :
    (∃ device, host.device = some device ∧ host.budget ≠ some 0 ∧ answer = .ok () ∧
      after = ⟨some ⟨device.index, insert dst.string device.routes⟩, host.spent⟩) ∨
    (host.budget = some 0 ∧ after = host ∧ ∃ text, answer = .error (.other text)) := by
  cases responds with
  | replaced present left => exact .inl ⟨_, present, left, rfl, rfl⟩
  | replaceFailed used _ _ text => exact .inr ⟨used, rfl, text, rfl⟩
  | replaceElsewhere elsewhere => exact absurd linked elsewhere

theorem responds_routeDel {index : Nat} {dst : IPNet}
    {answer : (Request.routeDel index dst : Request Key Endpoint).Answer}
    (linked : host.Linked index) (responds : Responds (.routeDel index dst) host answer after) :
    ∃ device, host.device = some device ∧
      after = { host with device := some ⟨device.index, device.routes.erase dst.string⟩ } := by
  cases responds with
  | deleted present routed => exact ⟨_, present, rfl⟩
  | @routeMissing _ device present _ unrouted =>
    refine ⟨device, present, ?_⟩
    obtain ⟨index, routes⟩ := device
    rw [Finset.erase_eq_of_notMem unrouted, ← present]
  | deleteElsewhere elsewhere => exact absurd linked elsewhere

theorem routes_of_device {device : Device} (present : host.device = some device) :
    host.routes = device.routes := by
  rw [routes, present]
  rfl

theorem routes_of_none (absent : host.device = none) : host.routes = ∅ := by
  rw [routes, absent]
  rfl

end Host

open Host

/-- What a part of the manager returns, in a world that only it changes. -/
abbrev Yields {α : Type} (post : α → Host → Prop)
    (script : Script (Request Key Endpoint) Request.Answer α) (host : Host) : Prop :=
  (world Key Endpoint).Ensures (fun _ => True) post script host

section Guarantees

variable {α : Type} {post : α → Host → Prop} {host : Host}

theorem yields_call {request : Request Key Endpoint}
    {next : request.Answer → Script (Request Key Endpoint) Request.Answer α}
    (answered : ∀ answer after, Responds request host answer after →
      Yields post (next answer) after) : Yields post (.call request next) host := by
  intro seen drift
  obtain rfl := world_drifts drift
  exact ⟨trivial, answered⟩

theorem yields_rollback {post : Unit → Host → Prop} {index : Nat} {routes : Finset Str}
    {cidrs : List Str} (present : host.device = some ⟨index, routes⟩)
    (printed : ∀ c ∈ cidrs, ∃ net : IPNet, net.string = c)
    (done : post () { host with device := some ⟨index, routes \ cidrs.toFinset⟩ }) :
    Yields post
      (rollbackRoutesLocked index cidrs : Script (Request Key Endpoint) Request.Answer Unit)
      host := by
  induction cidrs generalizing host routes with
  | nil =>
    refine ⟨trivial, ?_⟩
    obtain ⟨found, budget⟩ := host
    obtain rfl : found = some ⟨index, routes⟩ := present
    simpa using done
  | cons c rest ih =>
    obtain ⟨net, rfl⟩ := printed c mem_cons_self
    obtain ⟨again, parsed, same_text⟩ := parseNet_string net
    rw [rollbackRoutesLocked, parsed]
    refine yields_call fun answer after responds => ?_
    obtain ⟨found, found_eq, rfl⟩ := responds_routeDel ⟨_, present, rfl⟩ responds
    obtain rfl : found = ⟨index, routes⟩ := Option.some.inj (found_eq.symm.trans present)
    refine ih rfl (fun other mem => printed other (mem_cons_of_mem _ mem)) ?_
    rw [toFinset_cons, Finset.sdiff_insert, ← Finset.erase_sdiff_comm] at done
    rwa [same_text]

theorem budget_of_spent {count : Nat} (left : host.budget ≠ some 0)
    (spent_eq : host.spent = some count) : host.budget = some (count + 1) := by
  cases budget : host.budget with
  | none => simp [spent, budget] at spent_eq
  | some n =>
    rw [budget] at left
    have n_ne : n ≠ 0 := fun zero => left (by rw [zero])
    have n_eq : n - 1 = count := by simpa [spent, budget] using spent_eq
    rw [show n = count + 1 by omega]

/-- All routes are replaced, or the loop fails at its budget and withdraws what it has replaced. -/
theorem yields_install {post : Except ConfigureError (List Str) → Host → Prop} {index : Nat}
    {routes : Finset Str} {nets : List IPNet} {installed : List Str}
    (present : host.device = some ⟨index, routes⟩)
    (printed : ∀ c ∈ installed, ∃ net : IPNet, net.string = c)
    (replaced : ∀ budget, (host.budget = none → budget = none) →
      post (.ok (installed ++ nets.map IPNet.string))
        ⟨some ⟨index, routes ∪ (nets.map IPNet.string).toFinset⟩, budget⟩)
    (failed : ∀ count dst error, host.budget = some count → count < nets.length →
      post (.error (.route dst error))
        ⟨some ⟨index, (routes ∪ ((nets.map IPNet.string).take count).toFinset) \
          (installed ++ (nets.map IPNet.string).take count).toFinset⟩, some 0⟩) :
    Yields post
      (installRoutes index installed nets : Script (Request Key Endpoint) Request.Answer _)
      host := by
  induction nets generalizing host routes installed with
  | nil =>
    refine ⟨trivial, ?_⟩
    obtain ⟨found, budget⟩ := host
    obtain rfl : found = some ⟨index, routes⟩ := present
    simpa using replaced budget id
  | cons dst rest ih =>
    rw [installRoutes]
    refine yields_call fun answer after responds => ?_
    rcases responds_routeReplace ⟨_, present, rfl⟩ responds with
      ⟨found, found_eq, left, rfl, rfl⟩ | ⟨used, rfl, text, rfl⟩
    · obtain rfl : found = ⟨index, routes⟩ := Option.some.inj (found_eq.symm.trans present)
      refine ih rfl ?_ ?_ ?_
      · intro c mem
        rcases mem_append.mp mem with earlier | last
        · exact printed c earlier
        · exact ⟨dst, (mem_singleton.mp last).symm⟩
      · intro budget unlimited
        have done := replaced budget fun none_left => unlimited (by simp [spent, none_left])
        simpa [Finset.insert_union, Finset.union_insert, append_assoc] using done
      · intro count other error budget_eq short
        -- The loop has one replacement less to make, and one less left.
        have done := failed (count + 1) other error (budget_of_spent left budget_eq)
          (by simpa using short)
        simpa [Finset.insert_union, Finset.union_insert, append_assoc] using done
    · refine Ensures.bind (yields_rollback present printed ⟨trivial, ?_⟩)
      have done := failed 0 dst (.other text) used (by simp)
      simpa [used] using done

/-- No route has changed. -/
def SameRoutes (before after : Host) : Prop :=
  after.routes = before.routes ∧ after.budget = before.budget

theorem SameRoutes.refl (host : Host) : SameRoutes host host := ⟨rfl, rfl⟩

variable (config : Config Key)

theorem yields_ensureLink {host : Host} :
    Yields (byResult
        (fun index after => SameRoutes host after ∧
          ∃ device, after.device = some device ∧ device.index = index)
        fun _ after => SameRoutes host after)
      (ensureLinkLocked config : Procedure Key Endpoint Str Nat).run host := by
  refine yields_call fun answer after responds => ?_
  obtain ⟨rfl, ⟨device, present, rfl⟩ | ⟨absent, rfl⟩ | ⟨text, rfl⟩⟩ :=
    responds_linkByName responds
  · exact ⟨trivial, .refl _, device, present, rfl⟩
  · refine Ensures.attempt (yields_call fun answer seen responds => ⟨trivial, ?_⟩)
    have same : SameRoutes after seen := by
      rcases responds_linkAdd responds with ⟨_, index, rfl⟩ | rfl
      · exact ⟨(routes_of_device rfl).trans (routes_of_none absent).symm, rfl⟩
      · exact .refl _
    cases answer with
    | error error => exact same
    | ok _ =>
      refine yields_call fun answer last responds => ⟨trivial, ?_⟩
      obtain ⟨rfl, ⟨device, present, rfl⟩ | ⟨_, rfl⟩ | ⟨text, rfl⟩⟩ :=
        responds_linkByName responds
      · exact ⟨same, device, present, rfl⟩
      · exact same
      · exact same
  · exact ⟨trivial, .refl _⟩

theorem yields_resolveEndpoint (endpoint : Str) :
    Yields (fun _ after => after = host)
      (resolveEndpoint config endpoint : Procedure Key Endpoint Str (Option Endpoint)).run
      host := by
  rw [resolveEndpoint]
  split
  · refine Ensures.attempt (yields_call fun answer after responds => ⟨trivial, ?_⟩)
    cases responds with
    | resolved _ _ _ =>
      cases answer with
      | error error => rfl
      | ok address => exact ⟨trivial, rfl⟩
  · exact ⟨trivial, rfl⟩

theorem yields_programPeer (peerKey endpoint : Str) (allowedIPs : List Str) :
    Yields (byResult
        (fun found after => SameRoutes host after ∧ parseCIDRs allowedIPs = .ok found.2 ∧
          ∃ device, after.device = some device ∧ device.index = found.1)
        fun _ after => SameRoutes host after)
      (programPeer config peerKey endpoint allowedIPs :
        Procedure Key Endpoint Str (Nat × List IPNet)).run host := by
  rw [programPeer]
  cases config.parseKey peerKey with
  | error error => exact ⟨trivial, .refl _⟩
  | ok pubKey =>
    cases parsed : parseCIDRs allowedIPs with
    | error c => exact ⟨trivial, .refl _⟩
    | ok nets =>
      refine Ensures.attempt ((yields_resolveEndpoint config endpoint).mono ?_)
      rintro (error | address) seen rfl
      · exact .refl _
      refine Ensures.attempt ((yields_ensureLink config).mono ?_)
      rintro (error | link) linked found
      · exact found
      obtain ⟨same, device, present, index_eq⟩ := found
      refine Ensures.attempt (yields_call fun answer after responds => ⟨trivial, ?_⟩)
      obtain ⟨rfl, _⟩ := responds_configureDevice responds
      cases answer with
      | error error => exact same
      | ok _ => exact ⟨trivial, same, rfl, device, present, index_eq⟩

/-- `ConfigurePeer` replaces the routes of its peer, or leaves all as they were, or fails at a route
and withdraws those before it. -/
def Configured (peerRoutes : PeerRoutes) (peerKey : Str) (allowedIPs : List Str) (before : Host) :
    Except ConfigureError PeerRoutes → Host → Prop
  | .ok record, after => ∃ nets, parseCIDRs allowedIPs = .ok nets ∧
      record = peerRoutes.insert peerKey (nets.map IPNet.string) ∧
      after.routes = (before.routes ∪ (nets.map IPNet.string).toFinset) \
        (staleRoutes (recorded peerRoutes peerKey) (nets.map IPNet.string)).toFinset
  | .error (.early _), after => after.routes = before.routes
  | .error (.route _ _), after => ∃ nets count, parseCIDRs allowedIPs = .ok nets ∧
      before.budget = some count ∧ count < nets.length ∧
      after.routes = before.routes \ ((nets.map IPNet.string).take count).toFinset

/-- Every recorded text is the text of a network. -/
def Printed (peerRoutes : PeerRoutes) : Prop :=
  ∀ peerKey, ∀ c ∈ recorded peerRoutes peerKey, ∃ net : IPNet, net.string = c

theorem yields_configurePeer {peerRoutes : PeerRoutes}
    (printed : Printed peerRoutes) (peerKey endpoint : Str) (allowedIPs : List Str) :
    Yields (Configured peerRoutes peerKey allowedIPs host)
      (configurePeer config peerRoutes peerKey endpoint allowedIPs :
        Script (Request Key Endpoint) Request.Answer _) host := by
  refine Ensures.bind ((yields_programPeer config peerKey endpoint allowedIPs).mono ?_)
  rintro (error | ⟨link, nets⟩) seen found
  · exact ⟨trivial, found.1⟩
  obtain ⟨⟨routes_eq, budget_eq⟩, parsed, device, present, rfl⟩ := found
  rw [routes_of_device present] at routes_eq
  refine Ensures.bind (yields_install present (by simp) ?_ ?_)
  · intro budget _
    refine Ensures.bind (yields_rollback rfl ?_ ⟨trivial, nets, parsed, rfl, ?_⟩)
    · intro c mem
      exact printed peerKey c (mem_of_mem_filter mem)
    · rw [← routes_eq]
      rfl
  · intro count dst error used short
    refine ⟨trivial, nets, count, parsed, budget_eq ▸ used, short, ?_⟩
    rw [← routes_eq]
    exact Finset.union_sdiff_right _ _

/-- `RemovePeer` withdraws the routes of its peer, or leaves all as they were. -/
def Removed (peerRoutes : PeerRoutes) (peerKey : Str) (before : Host) :
    Except Str PeerRoutes → Host → Prop
  | .ok record, after => record = peerRoutes.erase peerKey ∧
      after.routes = before.routes \ (recorded peerRoutes peerKey).toFinset
  | .error _, after => after.routes = before.routes

theorem yields_removePeer {peerRoutes : PeerRoutes} (printed : Printed peerRoutes) (peerKey : Str) :
    Yields (Removed peerRoutes peerKey host)
      (removePeer config peerRoutes peerKey : Script (Request Key Endpoint) Request.Answer _)
      host := by
  rw [removePeer]
  cases config.parseKey peerKey with
  | error error => exact ⟨trivial, rfl⟩
  | ok pubKey =>
    refine yields_call fun answer after responds => ?_
    obtain ⟨rfl, ⟨device, present, rfl⟩ | ⟨absent, rfl⟩ | ⟨text, rfl⟩⟩ :=
      responds_configureDevice responds
    · cases known : peerRoutes.lookup peerKey with
      | none => exact ⟨trivial, rfl, by simp [recorded, known]⟩
      | some cidrs =>
        have recorded_eq : recorded peerRoutes peerKey = cidrs := by simp [recorded, known]
        refine yields_call fun answer seen responds => ?_
        obtain ⟨rfl, ⟨found, found_eq, rfl⟩ | ⟨absent, rfl⟩ | ⟨text, rfl⟩⟩ :=
          responds_linkByName responds
        · refine Ensures.bind (yields_rollback found_eq ?_ ⟨trivial, rfl, ?_⟩)
          · exact recorded_eq ▸ printed peerKey
          · rw [recorded_eq, routes_of_device found_eq]
            rfl
        · rw [absent] at present
          cases present
        · exact ⟨trivial, rfl⟩
    · exact ⟨trivial, rfl, by rw [routes_of_none absent, Finset.empty_sdiff]⟩
    · exact ⟨trivial, rfl⟩

end Guarantees

end DatawerxMesh.Wg
