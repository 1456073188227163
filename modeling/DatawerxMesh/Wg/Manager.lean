import DatawerxMesh.Go.ColonText
import DatawerxMesh.Library.Ledger
import DatawerxMesh.Library.Script
import Mathlib.Data.Finset.Basic
import Mathlib.Data.Finset.Lattice.Lemmas

/-!
# The WireGuard manager

`ConfigurePeer` and `RemovePeer` of `pkg/wg/wireguard.go`.  Everything the manager does not compute
itself is a call.
-/

namespace DatawerxMesh.Wg

open Go Program
open Ledger (recorded)

/-- Errors of `netlink` and `wgctrl`, as far as the manager tells them apart. -/
inductive NetError where
  | linkNotFound
  | noSuchRoute
  | other (text : Str)
  deriving DecidableEq

/-- `Error`. -/
def NetError.text : NetError → Str
  | linkNotFound => "Link not found"
  | noSuchRoute => "no such process"
  | other text => text

/-- The interface is missing. -/
def isLinkNotFound (error : NetError) : Bool := error = .linkNotFound

/-- A peer of the device. -/
structure PeerConfig (Key Endpoint : Type) where
  publicKey : Key
  remove : Bool
  endpoint : Option Endpoint
  persistentKeepaliveInterval : Option Nat
  replaceAllowedIPs : Bool
  allowedIPs : List IPNet

/-- What the manager calls. -/
inductive Request (Key Endpoint : Type) where
  | resolveUDPAddr (endpoint : Str)
  | linkByName
  | linkAdd
  | configureDevice (peer : PeerConfig Key Endpoint)
  | routeReplace (linkIndex : Nat) (dst : IPNet)
  | routeDel (linkIndex : Nat) (dst : IPNet)

/-- What a request returns. -/
abbrev Request.Value {Key Endpoint : Type} : Request Key Endpoint → Type
  | resolveUDPAddr _ => Endpoint
  | linkByName => Nat
  | linkAdd | configureDevice _ | routeReplace _ _ | routeDel _ _ => Unit

/-- A call answers with its value or with an error. -/
abbrev Request.Answer {Key Endpoint : Type} (request : Request Key Endpoint) : Type :=
  Except NetError request.Value

/-- The interface, the keepalive interval in seconds, and the parsing of keys and `%q`. -/
structure Config (Key : Type) where
  ifaceName : Str
  keepalive : Nat
  parseKey : Str → Except Str Key
  quote : Str → Str

/-- The routes of every peer. -/
abbrev PeerRoutes := AList fun _ : Str => List Str

/-- The head of a key. -/
def shortKey (k : Str) : Str := if k.length ≤ 8 then k else k.take 8 ++ "…"

/-- `parseCIDRs`: the networks, or the first text that is none. -/
def parseCIDRs : List Str → Except Str (List IPNet)
  | [] => .ok []
  | c :: rest =>
    match parseNet c with
    | none => .error c
    | some ipnet => (parseCIDRs rest).map (ipnet :: ·)

/-- The routes that are no longer wanted. -/
def staleRoutes (old current : List Str) : List Str := old.filter fun o => o ∉ current

/-- Errors of `ConfigurePeer`: one before any route is touched, or one from a route. -/
inductive ConfigureError where
  | early (text : Str)
  | route (dst : IPNet) (error : NetError)
  deriving DecidableEq

/-- The message of an error. -/
def ConfigureError.text (ifaceName : Str) : ConfigureError → Str
  | early text => text
  | route dst error =>
    "wg: installing route " ++ dst.string ++ " -> " ++ ifaceName ++ ": " ++ error.text

section Manager

variable {Key Endpoint : Type} (config : Config Key)

/-- A program of requests that may fail. -/
abbrev Procedure (Key Endpoint ε α : Type) : Type :=
  ExceptT ε (Script (Request Key Endpoint) Request.Answer) α

/-- Make a call; its error is returned as the given one. -/
def attempt {ε : Type} (request : Request Key Endpoint) (wrap : NetError → ε) :
    Procedure Key Endpoint ε request.Value :=
  ExceptT.mk (.call request fun answer => .done (answer.mapError wrap))

/-- `ensureLinkLocked`: the index of the link. -/
def ensureLinkLocked : Procedure Key Endpoint Str Nat :=
  ExceptT.mk (.call .linkByName fun
    | .ok index => .done (.ok index)
    | .error error =>
      if isLinkNotFound error then
        (do
          attempt .linkAdd fun error =>
            "wg: creating wireguard link " ++ config.quote config.ifaceName ++ ": " ++
              error.text
          attempt .linkByName fun error =>
            "wg: re-reading freshly created link " ++ config.quote config.ifaceName ++
              ": " ++ error.text : Procedure Key Endpoint Str Nat)
      else
        .done (.error ("wg: looking up link " ++ config.quote config.ifaceName ++ ": " ++
          error.text)))

/-- `rollbackRoutesLocked`, which only logs errors and skips what does not parse. -/
def rollbackRoutesLocked (linkIndex : Nat) :
    List Str → Script (Request Key Endpoint) Request.Answer Unit
  | [] => .done ()
  | c :: rest =>
    match parseNet c with
    | none => rollbackRoutesLocked linkIndex rest
    | some ipnet => .call (.routeDel linkIndex ipnet) fun _ => rollbackRoutesLocked linkIndex rest

/-- The install loop of `ConfigurePeer`.  A failing replacement withdraws the earlier ones. -/
def installRoutes (linkIndex : Nat) : List Str → List IPNet →
    Script (Request Key Endpoint) Request.Answer (Except ConfigureError (List Str))
  | installed, [] => .done (.ok installed)
  | installed, dst :: rest => .call (.routeReplace linkIndex dst) fun
      | .ok _ => installRoutes linkIndex (installed ++ [dst.string]) rest
      | .error error => do
          rollbackRoutesLocked linkIndex installed
          return .error (.route dst error)

/-- The endpoint of a peer; a blank one is learned from handshakes. -/
def resolveEndpoint (endpoint : Str) : Procedure Key Endpoint Str (Option Endpoint) :=
  if endpoint ≠ [] then do
    let address ← attempt (.resolveUDPAddr endpoint) fun error =>
      "wg: resolving peer endpoint " ++ config.quote endpoint ++ ": " ++ error.text
    return some address
  else return none

/-- `ConfigurePeer` up to the routes: the index of the link and the networks. -/
def programPeer (peerKey endpoint : Str) (allowedIPs : List Str) :
    Procedure Key Endpoint Str (Nat × List IPNet) :=
  match config.parseKey peerKey with
  | .error error => throw ("wg: parsing peer public key: " ++ error)
  | .ok pubKey =>
    match parseCIDRs allowedIPs with
    | .error c =>
      throw ("wg: peer " ++ shortKey peerKey ++ ": invalid CIDR " ++ config.quote c ++
        ": invalid CIDR address: " ++ c)
    | .ok nets => do
        let udpEndpoint ← resolveEndpoint config endpoint
        let link ← ensureLinkLocked config
        attempt (.configureDevice {
          publicKey := pubKey
          remove := false
          endpoint := udpEndpoint
          persistentKeepaliveInterval := some config.keepalive
          replaceAllowedIPs := true
          allowedIPs := nets }) fun error =>
            "wg: programming peer " ++ shortKey peerKey ++ ": " ++ error.text
        return (link, nets)

/-- The route phase of `ConfigurePeer`: the new record, or an error with the record as it was. -/
def routePeer (peerRoutes : PeerRoutes) (peerKey : Str) (link : Nat) (nets : List IPNet) :
    Script (Request Key Endpoint) Request.Answer (Except ConfigureError PeerRoutes) := do
  match ← installRoutes link [] nets with
  | .error error => return .error error
  | .ok installed =>
    rollbackRoutesLocked link (staleRoutes (recorded peerRoutes peerKey) installed)
    return .ok (peerRoutes.insert peerKey installed)

/-- The peer is programmed before its routes. -/
def configurePeer (peerRoutes : PeerRoutes) (peerKey endpoint : Str) (allowedIPs : List Str) :
    Script (Request Key Endpoint) Request.Answer (Except ConfigureError PeerRoutes) := do
  match ← (programPeer config peerKey endpoint allowedIPs).run with
  | .error error => return .error (.early error)
  | .ok (link, nets) => routePeer peerRoutes peerKey link nets

/-- `WireGuardManager.RemovePeer`: the new record, or an error with the record as it was. -/
def removePeer (peerRoutes : PeerRoutes) (peerKey : Str) :
    Script (Request Key Endpoint) Request.Answer (Except Str PeerRoutes) :=
  match config.parseKey peerKey with
  | .error error => .done (.error ("wg: parsing peer public key for removal: " ++ error))
  | .ok pubKey => .call (.configureDevice {
        publicKey := pubKey
        remove := true
        endpoint := none
        persistentKeepaliveInterval := none
        replaceAllowedIPs := false
        allowedIPs := [] }) fun
      | .error error =>
        if isLinkNotFound error then .done (.ok (peerRoutes.erase peerKey))
        else
          .done (.error ("wg: removing peer " ++ shortKey peerKey ++ " from device: " ++
            error.text))
      | .ok _ =>
        match peerRoutes.lookup peerKey with
        | none => .done (.ok (peerRoutes.erase peerKey))
        | some cidrs => .call .linkByName fun
            | .ok link => do
                rollbackRoutesLocked link cidrs
                return .ok (peerRoutes.erase peerKey)
            | .error error =>
              if isLinkNotFound error then .done (.ok (peerRoutes.erase peerKey))
              else
                .done (.error ("wg: looking up link for route cleanup: " ++ error.text))

end Manager

/-- The device with the destinations of the host routes into it.  A destination is known by its
text. -/
structure Device where
  index : Nat
  routes : Finset Str
  deriving DecidableEq

/-- The device, if there is one, and how many more replacements of routes succeed. -/
structure Host where
  device : Option Device
  budget : Option Nat

namespace Host

/-- The destinations that are routed into the device. -/
def routes (host : Host) : Finset Str := (host.device.map Device.routes).getD ∅

/-- The budget after a replacement. -/
def spent (host : Host) : Option Nat := host.budget.map (· - 1)

/-- The interface exists. -/
def Linked (host : Host) (index : Nat) : Prop :=
  ∃ device, host.device = some device ∧ device.index = index

/-- How the host answers.  A link is found exactly if it is there.  Calls that look up, add or
configure may also fail for other reasons, and then nothing changes.  Replacing a route fails when
the budget is used up, deleting one when it is absent, and both do for another link. -/
inductive Responds {Key Endpoint : Type} :
    (request : Request Key Endpoint) → Host → request.Answer → Host → Prop
  | resolved (endpoint : Str) (answer : (Request.resolveUDPAddr endpoint).Answer) (host : Host) :
      Responds (.resolveUDPAddr endpoint) host answer host
  | linkFound {host : Host} {device : Device} (present : host.device = some device) :
      Responds .linkByName host (.ok device.index) host
  | linkMissing {host : Host} (absent : host.device = none) :
      Responds .linkByName host (.error .linkNotFound) host
  | lookupFailed (host : Host) (text : Str) : Responds .linkByName host (.error (.other text)) host
  | linkAdded {host : Host} (absent : host.device = none) (index : Nat) :
      Responds .linkAdd host (.ok ()) { host with device := some ⟨index, ∅⟩ }
  | addFailed (host : Host) (text : Str) : Responds .linkAdd host (.error (.other text)) host
  | configured {host : Host} {device : Device} (present : host.device = some device)
      (peer : PeerConfig Key Endpoint) : Responds (.configureDevice peer) host (.ok ()) host
  | deviceMissing {host : Host} (absent : host.device = none) (peer : PeerConfig Key Endpoint) :
      Responds (.configureDevice peer) host (.error .linkNotFound) host
  | configureFailed (host : Host) (peer : PeerConfig Key Endpoint) (text : Str) :
      Responds (.configureDevice peer) host (.error (.other text)) host
  | replaced {host : Host} {device : Device} (present : host.device = some device)
      (left : host.budget ≠ some 0) (dst : IPNet) :
      Responds (.routeReplace device.index dst) host (.ok ())
        ⟨some ⟨device.index, insert dst.string device.routes⟩, host.spent⟩
  | replaceFailed {host : Host} (used : host.budget = some 0) (index : Nat) (dst : IPNet)
      (text : Str) : Responds (.routeReplace index dst) host (.error (.other text)) host
  | replaceElsewhere {host : Host} {index : Nat} (elsewhere : ¬ host.Linked index) (dst : IPNet)
      (text : Str) : Responds (.routeReplace index dst) host (.error (.other text)) host
  | deleted {host : Host} {device : Device} (present : host.device = some device) {dst : IPNet}
      (routed : dst.string ∈ device.routes) :
      Responds (.routeDel device.index dst) host (.ok ())
        { host with device := some ⟨device.index, device.routes.erase dst.string⟩ }
  | routeMissing {host : Host} {device : Device} (present : host.device = some device)
      {dst : IPNet} (unrouted : dst.string ∉ device.routes) :
      Responds (.routeDel device.index dst) host (.error .noSuchRoute) host
  | deleteElsewhere {host : Host} {index : Nat} (elsewhere : ¬ host.Linked index) (dst : IPNet)
      (text : Str) : Responds (.routeDel index dst) host (.error (.other text)) host

/-- The host as a world that nobody else changes. -/
def world (Key Endpoint : Type) : World (Request Key Endpoint) Request.Answer Host where
  respond := Responds
  interfere _ _ := False

end Host

end DatawerxMesh.Wg
