import DatawerxMesh.Edge.Allocate

/-!
# Peers of the edge terminator

`PlanDevicePeer` of `pkg/edge/peer.go`: a device may send from the hosts of its allowed addresses
only, which the allocator hands out once.
-/

namespace DatawerxMesh.Edge

open Go

/-- A WireGuard peer of a device. -/
structure DevicePeer where
  publicKey : Str
  allowedIPs : List Str
  deriving DecidableEq

/-- The errors of `PlanDevicePeer`. -/
inductive PeerError where
  | publicKey (error : Str)
  | address (error : AddressError)
  deriving DecidableEq

/-- Error texts of `PlanDevicePeer`, with `%q` given by `quote`. -/
def PeerError.text (quote : Str → Str) : PeerError → Str
  | publicKey error => "device publicKey is not a valid WireGuard key: " ++ error
  | address error => "device address: " ++ error.text quote

/-- The peer may use its own address only. -/
def planDevicePeer {Key : Type} (parseKey : Str → Except Str Key) (publicKey address : Str) :
    Except PeerError DevicePeer :=
  match parseKey publicKey with
  | .error error => .error (.publicKey error)
  | .ok _ =>
    match hostCIDR address with
    | .error error => .error (.address error)
    | .ok host => .ok ⟨publicKey, [host]⟩

/-- WireGuard accepts the source address from the peer. -/
def DevicePeer.Permits (peer : DevicePeer) (address : BitVec 128) : Prop :=
  ∃ cidr ∈ peer.allowedIPs, ∃ net, parseNet cidr = some net ∧ net.holds address

theorem planDevicePeer_string {Key : Type} {parseKey : Str → Except Str Key} {publicKey : Str}
    {key : Key} (valid : parseKey publicKey = .ok key) (ip : IP) :
    ∃ cidr, planDevicePeer parseKey publicKey ip.string = .ok ⟨publicKey, [cidr]⟩ ∧
      parseNet cidr = some (hostNet (.sixteen ip.to16)) := by
  have host_eq := hostCIDR_eq_ok.mpr ⟨_, names_string ip, rfl⟩
  refine ⟨(IP.sixteen ip.to16).string ++ hostMaskSuffix (.sixteen ip.to16), ?_, ?_⟩
  · simp only [planDevicePeer, valid, host_eq]
  · rw [parseNet, parseCIDR_hostRoute]
    rfl

theorem ones_hostNet (ip : IP) : (hostNet ip).ones = maskBits (hostNet ip) := by
  unfold hostNet
  split <;> rfl

/-- An address of the range, the pinned host if there is a pin, and a peer for that one host. -/
structure Allotted {Key : Type} (parseKey : Str → Except Str Key) (ipnet : IPNet)
    (claim : DeviceClaim) (address : Str) (host : BitVec 128) : Prop where
  reads : parseIP address = some (.sixteen host)
  inside : ∃ off, 0 < off ∧ off < 2 ^ Dns.hostBits ipnet ∧
    (Dns.AddressRange.ofNet ipnet).numberOf address =
      some ((Dns.AddressRange.ofNet ipnet).baseInt + off)
  pin : trimSpace claim.address ≠ [] → ∃ named, Names claim.address named ∧ named.to16 = host
  peer : ∃ cidr net, planDevicePeer parseKey claim.key address = .ok ⟨claim.key, [cidr]⟩ ∧
    parseNet cidr = some net ∧ net.ones = maskBits net ∧ ∀ other, net.holds other ↔ other = host

theorem allotted_of_mem_candidates {Key : Type} {parseKey : Str → Except Str Key} {ipnet : IPNet}
    {budget : Nat} {claim : DeviceClaim} {address : Str} {key : Key}
    (valid : parseKey claim.key = .ok key) (mem : address ∈ claim.candidates ipnet budget) :
    ∃ ip : IP, address = ip.string ∧ Allotted parseKey ipnet claim address ip.to16 := by
  obtain ⟨ip, rfl, pin⟩ := DeviceClaim.eq_string_of_mem_candidates mem
  obtain ⟨cidr, planned, read⟩ := planDevicePeer_string valid ip
  refine ⟨ip, rfl, parseIP_string ip, DeviceClaim.numberOf_of_mem_candidates mem, ?_, ?_⟩
  · intro with_pin
    obtain ⟨named, names, same⟩ := pin with_pin
    exact ⟨named, names, same.symm⟩
  · exact ⟨cidr, _, planned, read, ones_hostNet _, fun other => holds_hostNet _ other⟩

theorem Allotted.permits {Key : Type} {parseKey : Str → Except Str Key} {ipnet : IPNet}
    {claim : DeviceClaim} {address : Str} {host : BitVec 128}
    (allotted : Allotted parseKey ipnet claim address host) {peer : DevicePeer}
    (planned : planDevicePeer parseKey claim.key address = .ok peer) {source : BitVec 128} :
    peer.Permits source ↔ source = host := by
  obtain ⟨cidr, net, own, read, -, only⟩ := allotted.peer
  obtain rfl := Except.ok.inj (planned.symm.trans own)
  simp [DevicePeer.Permits, read, only]

/-- Every device of a successful allocation gets one address of the edge range, its pinned host if
it has one, and the right to send from that address only.  No two devices share an address or may
send from one, and the order of the claims does not matter. -/
theorem allocateDeviceIPs_isolates {Key : Type} (parseKey : Str → Except Str Key)
    (go : Runtime Site) (edgeCIDR : Str) (ipnet : IPNet)
    (parsed : parseNet (trimSpace edgeCIDR) = some ipnet) (claims : List DeviceClaim)
    (distinct : (claims.map DeviceClaim.key).Nodup)
    (valid : ∀ claim ∈ claims, ∃ key, parseKey claim.key = .ok key) (out : Allocation)
    (success : allocateDeviceIPs go edgeCIDR claims = .ok out) :
    (∀ key, key ∈ out ↔ ∃ claim ∈ claims, claim.key = key) ∧
    (∀ claim ∈ claims, ∃ address host, out.lookup claim.key = some address ∧
      Allotted parseKey ipnet claim address host) ∧
    (∀ left ∈ claims, ∀ right ∈ claims, left ≠ right → ∀ left_address right_address,
      out.lookup left.key = some left_address → out.lookup right.key = some right_address →
        left_address ≠ right_address ∧ ∀ left_peer right_peer,
          planDevicePeer parseKey left.key left_address = .ok left_peer →
          planDevicePeer parseKey right.key right_address = .ok right_peer →
            ∀ source, left_peer.Permits source → ¬ right_peer.Permits source) ∧
    ∀ (other_run : Runtime Site) (arrived : List DeviceClaim), arrived.Perm claims →
      allocateDeviceIPs other_run edgeCIDR arrived = .ok out := by
  obtain ⟨assigned, perm, texts_nodup, is_candidate, mem_iff, lookup_iff⟩ :=
    exists_assigned parsed distinct success
  have allotted : ∀ claim s, (claim, s) ∈ assigned →
      ∃ ip : IP, s = ip.string ∧ Allotted parseKey ipnet claim s ip.to16 := by
    intro claim s mem
    obtain ⟨key, key_eq⟩ := valid claim (perm.mem_iff.mp (List.mem_map_of_mem mem))
    exact allotted_of_mem_candidates key_eq (is_candidate _ mem)
  refine ⟨mem_iff, fun claim mem => ?_, ?_, ?_⟩
  · obtain ⟨⟨_, s⟩, entry_mem, rfl⟩ := List.mem_map.mp (perm.mem_iff.mpr mem)
    obtain ⟨ip, -, has⟩ := allotted _ s entry_mem
    exact ⟨s, ip.to16, (lookup_iff _ mem s).mpr entry_mem, has⟩
  · intro left left_mem right right_mem apart left_address right_address left_eq right_eq
    have left_entry := (lookup_iff left left_mem _).mp left_eq
    have right_entry := (lookup_iff right right_mem _).mp right_eq
    have distinct_texts : left_address ≠ right_address := fun same =>
      apart (Prod.mk.inj (List.inj_on_of_nodup_map texts_nodup left_entry right_entry same)).1
    refine ⟨distinct_texts, fun left_peer right_peer left_planned right_planned source => ?_⟩
    obtain ⟨left_ip, rfl, left_has⟩ := allotted _ _ left_entry
    obtain ⟨right_ip, rfl, right_has⟩ := allotted _ _ right_entry
    rw [left_has.permits left_planned, right_has.permits right_planned]
    rintro rfl same_host
    rw [← string_to16 left_ip, same_host, string_to16] at distinct_texts
    exact distinct_texts rfl
  · intro other_run arrived arrived_perm
    rw [← success]
    exact allocateDeviceIPs_eq other_run go edgeCIDR
      ((arrived_perm.map _).nodup_iff.mpr distinct) arrived_perm

/-- A reader of public keys that checks their length. -/
def sizedKey (key : Str) : Except Str Str :=
  if key.length = 44 then .ok key else .error "incorrect key size"

/-- A device with a hashed address and one that pins its host in the mapped notation. -/
def twoDevices : List DeviceClaim :=
  [⟨"xTIBA5rboUvnH4htodjb6e697QjLERt1NAB4mZqp8Dg=", []⟩,
    ⟨"HIgo9xNzJMWLKASShiTqIybxZ0U3wGLiUeJ1PKf8ykw=", "::ffff:100.71.0.5/128 "⟩]

theorem allocateDeviceIPs_isolates_twoDevices :
    ∃ ipnet out, parseNet (trimSpace "100.71.0.0/24") = some ipnet ∧
      allocateDeviceIPs (.stable Site) "100.71.0.0/24" twoDevices = .ok out ∧
      ∀ claim ∈ twoDevices, ∃ address host, out.lookup claim.key = some address ∧
        Allotted sizedKey ipnet claim address host := by
  obtain ⟨ipnet, parsed⟩ : ∃ ipnet, parseNet (trimSpace "100.71.0.0/24") = some ipnet :=
    Option.isSome_iff_exists.mp (by decide +kernel)
  obtain ⟨out, success⟩ :
      ∃ out, allocateDeviceIPs (.stable Site) "100.71.0.0/24" twoDevices = .ok out :=
    Program.exists_of_isOk (by decide +kernel)
  have sized : ∀ claim ∈ twoDevices, ∃ key, sizedKey claim.key = .ok key := fun claim mem =>
    ⟨claim.key, if_pos ((by decide : ∀ claim ∈ twoDevices, claim.key.length = 44) claim mem)⟩
  have isolates := allocateDeviceIPs_isolates sizedKey _ _ ipnet parsed twoDevices (by decide)
    sized out success
  exact ⟨ipnet, out, parsed, success, isolates.2.1⟩

end DatawerxMesh.Edge
