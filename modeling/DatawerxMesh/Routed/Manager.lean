import DatawerxMesh.Go.Net
import DatawerxMesh.Library.Ledger
import DatawerxMesh.Library.Script
import Mathlib.Data.Finset.Basic
import Mathlib.Data.Finset.Lattice.Lemmas

/-!
# The routed data plane

`pkg/routed`: routes that steer the CIDRs of remote clusters at an overlay, in a table that all
peers share and with a record for each of them.
-/

namespace DatawerxMesh.Routed

open Go Program List
open Ledger (recorded recorded_insert recorded_erase)

/-- A destination and its next hop. -/
structure Route where
  dest : Str
  via : Str
  deriving DecidableEq

/-- Why no routes are planned. -/
inductive PlanError where
  | nextHop (via : Str)
  | cidr (text : Str)
  | family (ipnet via : Str)
  deriving DecidableEq

/-- Text of an error, given `%q`. -/
def PlanError.text (quote : Str → Str) : PlanError → Str
  | nextHop via => "overlay next-hop " ++ quote via ++ " is not a valid IP address"
  | cidr text =>
    "invalid routed CIDR " ++ quote text ++ ": invalid CIDR address: " ++ text
  | family ipnet via => "address family mismatch: CIDR " ++ ipnet ++ " via " ++ via

/-- The routes, each once. -/
def collectRoutes (viaIP : IP) (via : Str) : List Route → List Str → Except PlanError (List Route)
  | out, [] => .ok out
  | out, c :: rest =>
    if c = [] then collectRoutes viaIP via out rest
    else
      match parseNet c with
      | none => .error (.cidr c)
      | some ipnet =>
        if ipnet.ip.to4.isSome ≠ viaIP.to4.isSome then .error (.family ipnet.string via)
        else if out.any fun route => route.dest = ipnet.string then
          collectRoutes viaIP via out rest
        else collectRoutes viaIP via (out ++ [⟨ipnet.string, viaIP.string⟩]) rest

/-- The routes of a peer. -/
def planRoutes (allowedIPs : List Str) (via : Str) : Except PlanError (List Route) :=
  match parseIP via with
  | none => .error (.nextHop via)
  | some viaIP => do
      let out ← collectRoutes viaIP via [] allowedIPs
      return Sorting.sort (fun a b => less a.dest b.dest) out

/-- An endpoint without its port. -/
def hostOnly (endpoint : Str) : Str :=
  match splitHostPort endpoint with
  | some (host, _) => host
  | none => endpoint

/-- Calls of `routeOps`. -/
inductive RouteOp where
  | replace (route : Route)
  | delete (route : Route)

/-- A call succeeds or returns an error text. -/
abbrev RouteOp.Answer (_ : RouteOp) : Type := Except Str Unit

/-- The routes of every peer. -/
abbrev PeerRoutes := AList fun _ : Str => List Route

/-- Errors of `ConfigurePeer`. -/
inductive ConfigureError where
  | plan (peerKey : Str) (error : PlanError)
  | install (route : Route) (error : Str)
  deriving DecidableEq

/-- Text of an error, given `%q`. -/
def ConfigureError.text (quote : Str → Str) : ConfigureError → Str
  | plan peerKey error => "routed: peer " ++ peerKey ++ ": " ++ error.text quote
  | install route error =>
    "routed: installing route " ++ route.dest ++ " via " ++ route.via ++ ": " ++ error

/-- `Manager.deleteRoutes`, which only logs errors. -/
def deleteRoutes : List Route → Script RouteOp RouteOp.Answer Unit
  | [] => .done ()
  | r :: rest => .call (.delete r) fun _ => deleteRoutes rest

/-- The install loop of `Manager.ConfigurePeer`.  A failing replacement undoes the earlier ones. -/
def installRoutes :
    List Route → List Route → Script RouteOp RouteOp.Answer (Except ConfigureError (List Route))
  | installed, [] => .done (.ok installed)
  | installed, r :: rest => .call (.replace r) fun
      | .ok _ => installRoutes (installed ++ [r]) rest
      | .error error => do
          deleteRoutes installed
          return .error (.install r error)

/-- `Manager.ConfigurePeer`: the new record, or an error with the record as it was. -/
def configurePeer (peerRoutes : PeerRoutes) (peerKey endpoint : Str) (allowedIPs : List Str) :
    Script RouteOp RouteOp.Answer (Except ConfigureError PeerRoutes) :=
  match planRoutes allowedIPs (hostOnly endpoint) with
  | .error error => .done (.error (.plan peerKey error))
  | .ok desired => do
      match ← installRoutes [] desired with
      | .error error => return .error error
      | .ok installed =>
        deleteRoutes ((recorded peerRoutes peerKey).filter fun old => old ∉ desired)
        return .ok (peerRoutes.insert peerKey installed)

/-- The routes of a peer are withdrawn. -/
def removePeer (peerRoutes : PeerRoutes) (peerKey : Str) :
    Script RouteOp RouteOp.Answer PeerRoutes := do
  deleteRoutes (recorded peerRoutes peerKey)
  return peerRoutes.erase peerKey

/-- The installed routes, and how many more replacements succeed. -/
structure Table where
  routes : Finset Route
  budget : Option Nat

/-- How the table answers; deletions succeed. -/
def Table.answer (op : RouteOp) (table : Table) : op.Answer × Table :=
  match op with
  | .replace route =>
    match table.budget with
    | none => (.ok (), ⟨insert route table.routes, none⟩)
    | some 0 => (.error [], table)
    | some (left + 1) => (.ok (), ⟨insert route table.routes, some left⟩)
  | .delete route => (.ok (), { table with routes := table.routes.erase route })

theorem exec_deleteRoutes (routes : List Route) (table : Table) :
    (deleteRoutes routes).exec Table.answer table =
      ((), { table with routes := table.routes \ routes.toFinset }) := by
  induction routes generalizing table with
  | nil => simp [deleteRoutes, Script.exec]
  | cons r rest ih =>
    rw [deleteRoutes, Script.exec]
    refine (ih { table with routes := table.routes.erase r }).trans ?_
    rw [toFinset_cons, Finset.sdiff_insert, Finset.erase_sdiff_comm]

theorem exec_installRoutes_ok (installed desired : List Route) (table : Table)
    (unlimited : table.budget = none) :
    (installRoutes installed desired).exec Table.answer table =
      (.ok (installed ++ desired), ⟨table.routes ∪ desired.toFinset, none⟩) := by
  induction desired generalizing installed table with
  | nil =>
    obtain ⟨routes, budget⟩ := table
    simp_all [installRoutes, Script.exec]
  | cons r rest ih =>
    have answered : Table.answer (.replace r) table = (.ok (), ⟨insert r table.routes, none⟩) := by
      simp only [Table.answer, unlimited]
    rw [installRoutes, Script.exec, answered]
    refine (ih (installed ++ [r]) ⟨insert r table.routes, none⟩ rfl).trans ?_
    rw [append_assoc, singleton_append, toFinset_cons, Finset.insert_union, Finset.union_insert]

/-- What this call has replaced so far is deleted. -/
theorem exec_installRoutes_error (installed desired : List Route) (table : Table) {count : Nat}
    (limited : table.budget = some count) (short : count < desired.length) :
    ∃ error, (installRoutes installed desired).exec Table.answer table = (.error error,
        ⟨(table.routes ∪ (desired.take count).toFinset) \
          (installed ++ desired.take count).toFinset, some 0⟩) := by
  induction desired generalizing installed table count with
  | nil => exact absurd short (by simp)
  | cons r rest ih =>
    rw [installRoutes, Script.exec]
    cases count with
    | zero =>
      have answered : Table.answer (.replace r) table = (.error [], table) := by
        simp only [Table.answer, limited]
      rw [answered]
      refine ⟨.install r [], ?_⟩
      refine (Script.exec_bind _ _ _ _).trans ?_
      rw [exec_deleteRoutes]
      simp [Script.exec, pure, limited]
    | succ count =>
      have answered : Table.answer (.replace r) table =
          (.ok (), ⟨insert r table.routes, some count⟩) := by
        simp only [Table.answer, limited]
      rw [answered]
      obtain ⟨error, ran⟩ := ih (installed ++ [r]) ⟨insert r table.routes, some count⟩ rfl
        (by simpa using short)
      refine ⟨error, ran.trans ?_⟩
      rw [append_assoc, singleton_append, take_succ_cons, toFinset_cons,
        Finset.insert_union, Finset.union_insert]

/-- Calls of the manager by the peer reconciler. -/
inductive Call where
  | configurePeer (peerKey endpoint : Str) (allowedIPs : List Str)
  | removePeer (peerKey : Str)

/-- The installed routes and the record of the manager. -/
@[ext]
structure State where
  routes : Finset Route
  peerRoutes : PeerRoutes

namespace State

/-- Nothing is programmed. -/
def empty : State := ⟨∅, ∅⟩

/-- What a call leaves behind.  With a budget, that many replacements succeed in this call. -/
def run (s : State) (budget : Option Nat) : Call → State
  | .configurePeer peerKey endpoint allowedIPs =>
    let (result, table) :=
      (configurePeer s.peerRoutes peerKey endpoint allowedIPs).exec Table.answer ⟨s.routes, budget⟩
    ⟨table.routes, result.toOption.getD s.peerRoutes⟩
  | .removePeer peerKey =>
    let (peerRoutes, table) :=
      (removePeer s.peerRoutes peerKey).exec Table.answer ⟨s.routes, budget⟩
    ⟨table.routes, peerRoutes⟩

/-- The shared table with the records of the peers. -/
def book (s : State) : Ledger.Book Str Route := ⟨{route | route ∈ s.routes}, recorded s.peerRoutes⟩

end State

/-- The peer whose routes a call replaces, with the new routes.  A call whose plan fails replaces
nothing. -/
def Call.target : Call → Option (Str × List Route)
  | .configurePeer peerKey endpoint allowedIPs =>
    (planRoutes allowedIPs (hostOnly endpoint)).toOption.map fun desired => (peerKey, desired)
  | .removePeer peerKey => some (peerKey, [])

/-- No route that the call withdraws is recorded for another peer. -/
def Call.Exclusive (s : State) (call : Call) : Prop :=
  ∀ peerKey routes, call.target = some (peerKey, routes) → s.book.Exclusive peerKey routes

section Run

variable (s : State) {peerKey endpoint : Str} {allowedIPs : List Str} {desired : List Route}

theorem run_configurePeer (planned : planRoutes allowedIPs (hostOnly endpoint) = .ok desired) :
    s.run none (.configurePeer peerKey endpoint allowedIPs) = ⟨(s.routes ∪ desired.toFinset) \
          ((recorded s.peerRoutes peerKey).filter fun old => old ∉ desired).toFinset,
        s.peerRoutes.insert peerKey desired⟩ := by
  have ran : (configurePeer s.peerRoutes peerKey endpoint allowedIPs).exec Table.answer
      ⟨s.routes, none⟩ = (.ok (s.peerRoutes.insert peerKey desired),
        ⟨(s.routes ∪ desired.toFinset) \
          ((recorded s.peerRoutes peerKey).filter fun old => old ∉ desired).toFinset, none⟩) := by
    rw [configurePeer, planned]
    refine (Script.exec_bind _ _ _ _).trans ?_
    rw [exec_installRoutes_ok [] desired _ rfl]
    refine (Script.exec_bind _ _ _ _).trans ?_
    rw [exec_deleteRoutes]
    rfl
  rw [State.run, ran]
  rfl

theorem run_configurePeer_error {error : PlanError} (budget : Option Nat)
    (failed : planRoutes allowedIPs (hostOnly endpoint) = .error error) :
    s.run budget (.configurePeer peerKey endpoint allowedIPs) = s := by
  rw [State.run, configurePeer, failed]
  rfl

theorem run_removePeer :
    s.run none (.removePeer peerKey) =
      ⟨s.routes \ (recorded s.peerRoutes peerKey).toFinset, s.peerRoutes.erase peerKey⟩ := by
  have ran : (removePeer s.peerRoutes peerKey).exec Table.answer ⟨s.routes, none⟩ =
      (s.peerRoutes.erase peerKey,
        ⟨s.routes \ (recorded s.peerRoutes peerKey).toFinset, none⟩) := by
    rw [removePeer]
    refine (Script.exec_bind _ _ _ _).trans ?_
    rw [exec_deleteRoutes]
    rfl
  rw [State.run, ran]

theorem book_run_of_target {call : Call} {routes : List Route}
    (target : call.target = some (peerKey, routes)) :
    (s.run none call).book = s.book.assign peerKey routes := by
  cases call with
  | configurePeer key endpoint allowedIPs =>
    cases planned : planRoutes allowedIPs (hostOnly endpoint) with
    | error error => simp [Call.target, planned, Except.toOption] at target
    | ok desired =>
      obtain ⟨rfl, rfl⟩ : key = peerKey ∧ desired = routes := by
        simpa [Call.target, planned, Except.toOption] using target
      rw [run_configurePeer s planned, Ledger.Book.assign_eq]
      refine Ledger.Book.ext (Set.ext fun route => ?_) (recorded_insert _ _ _)
      simp [State.book, Ledger.Book.install, Ledger.Book.withdraw]
  | removePeer key =>
    obtain ⟨rfl, rfl⟩ : key = peerKey ∧ [] = routes := by simpa [Call.target] using target
    rw [run_removePeer]
    refine Ledger.Book.ext (Set.ext fun route => ?_) (recorded_erase _ _)
    simp [State.book, Ledger.Book.assign]

theorem run_of_no_target {call : Call} (target : call.target = none) : s.run none call = s := by
  cases call with
  | configurePeer key endpoint allowedIPs =>
    cases planned : planRoutes allowedIPs (hostOnly endpoint) with
    | error error => exact run_configurePeer_error s none planned
    | ok desired => simp [Call.target, planned, Except.toOption] at target
  | removePeer key => simp [Call.target] at target

/-- A call keeps the table in agreement with the record exactly if it is exclusive. -/
theorem balanced_run_iff (balanced : s.book.Balanced) (call : Call) :
    (s.run none call).book.Balanced ↔ call.Exclusive s := by
  cases target : call.target with
  | none =>
    rw [run_of_no_target s target]
    refine iff_of_true balanced fun key routes targeted => ?_
    rw [target] at targeted
    cases targeted
  | some pair =>
    obtain ⟨key, routes⟩ := pair
    rw [book_run_of_target s target, Ledger.Book.balanced_assign_iff balanced]
    constructor
    · intro exclusive other others targeted
      rw [target] at targeted
      cases targeted
      exact exclusive
    · intro exclusive
      exact exclusive key routes target

variable (planned : planRoutes allowedIPs (hostOnly endpoint) = .ok desired) {count : Nat}
  (short : count < desired.length)

include planned short

/-- The record stays, and what the call had replaced is deleted. -/
theorem run_failed :
    s.run (some count) (.configurePeer peerKey endpoint allowedIPs) =
      ⟨s.routes \ (desired.take count).toFinset, s.peerRoutes⟩ := by
  obtain ⟨error, installing⟩ :=
    exec_installRoutes_error [] desired ⟨s.routes, some count⟩ rfl short
  have ran : (configurePeer s.peerRoutes peerKey endpoint allowedIPs).exec Table.answer
      ⟨s.routes, some count⟩ = (.error error,
        ⟨(s.routes ∪ (desired.take count).toFinset) \ (desired.take count).toFinset, some 0⟩) := by
    rw [configurePeer, planned]
    refine (Script.exec_bind _ _ _ _).trans ?_
    rw [installing]
    rfl
  rw [State.run, ran]
  refine State.ext ?_ rfl
  exact Finset.union_sdiff_right _ _

theorem run_failed_eq_self_iff :
    s.run (some count) (.configurePeer peerKey endpoint allowedIPs) = s ↔
      ∀ route ∈ desired.take count, route ∉ s.routes := by
  rw [run_failed s planned short, State.ext_iff, and_iff_left rfl, sdiff_eq_left,
    Finset.disjoint_right]
  simp only [mem_toFinset]

end Run

end DatawerxMesh.Routed
