import DatawerxMesh.Go.ColonText

/-!
# Host addresses

`hostCIDR` of `pkg/edge/profile.go`: a bare address and a CIDR with a full mask are brought into one
form.
-/

namespace DatawerxMesh.Edge

open Go Addressing

/-- Why a text is no host address. -/
inductive AddressError where
  | empty
  | notAddress (addr : Str)
  | invalid (addr : Str)
  | notHost (addr : Str) (bits : Nat)
  deriving DecidableEq

/-- Error texts of `hostCIDR`, with `%q` given by `quote`. -/
def AddressError.text (quote : Str → Str) : AddressError → Str
  | empty => "address is empty"
  | notAddress addr => quote addr ++ " is not an IP address"
  | invalid addr => quote addr ++ " is not a valid address: invalid CIDR address: " ++ addr
  | notHost addr bits =>
    quote addr ++ " is not a single host address (want a /" ++ itoa bits ++ " host route)"

/-- Second result of `Mask.Size`. -/
def maskBits : IPNet → Nat
  | .four _ => 32
  | .sixteen _ => 128

/-- The length of a host route. -/
def hostMaskSuffix (ip : IP) : Str := if ip.to4.isSome then "/32" else "/128"

/-- The host route of an address. -/
def hostCIDR (addr : Str) : Except AddressError Str :=
  let addr := trimSpace addr
  if addr = [] then .error .empty
  else if containsByte addr 47 = false then
    match parseIP addr with
    | none => .error (.notAddress addr)
    | some ip => .ok (ip.string ++ hostMaskSuffix ip)
  else
    match parseCIDR addr with
    | none => .error (.invalid addr)
    | some (ip, ipnet) =>
      if ipnet.ones ≠ maskBits ipnet then .error (.notHost addr (maskBits ipnet))
      else .ok (ip.string ++ hostMaskSuffix ip)

/-- The host that a text names: a bare address, or the address of a CIDR with a full mask. -/
def Names (addr : Str) (ip : IP) : Prop :=
  if containsByte (trimSpace addr) 47 = false then parseIP (trimSpace addr) = some ip
  else ∃ ipnet, parseCIDR (trimSpace addr) = some (ip, ipnet) ∧ ipnet.ones = maskBits ipnet

theorem hostCIDR_eq_ok {addr host : Str} :
    hostCIDR addr = .ok host ↔ ∃ ip, Names addr ip ∧ host = ip.string ++ hostMaskSuffix ip := by
  rw [hostCIDR]
  unfold Names
  generalize trimSpace addr = text
  by_cases empty : text = []
  · have nothing : parseIP [] = none := rfl
    simp [empty, containsByte, nothing]
  · by_cases bare : containsByte text 47 = false
    · cases parseIP text with
      | none => simp [empty, bare]
      | some ip => simp [empty, bare, eq_comm]
    · cases parseCIDR text with
      | none => simp [empty, bare]
      | some result =>
        obtain ⟨ip, ipnet⟩ := result
        by_cases full : ipnet.ones = maskBits ipnet
        · simp [empty, bare, full, eq_comm]
        · simp [empty, bare, full]

theorem isSolid_of_isDigit : ∀ byte : UInt8, isDigit byte = true → isSolid byte = true :=
  forall_byte (fun byte => isDigit byte = true → isSolid byte = true) (by decide +kernel)

theorem isSolid_of_hexValue : ∀ byte : UInt8, (hexValue byte).isSome → isSolid byte = true :=
  forall_byte (fun byte => (hexValue byte).isSome → isSolid byte = true) (by decide +kernel)

theorem mem_string {ip : IP} {byte : UInt8} (mem : byte ∈ ip.string) :
    isSolid byte = true ∧ byte ≠ 47 := by
  have plain : (isDigit byte = true ∨ byte = 46) ∨ (hexValue byte).isSome ∨ byte = 58 := by
    cases view : ip.to4 with
    | some address =>
      rw [IP.string_of_to4 view] at mem
      exact Or.inl (mem_dotted mem)
    | none =>
      cases ip with
      | four address => cases view
      | sixteen address =>
        rw [IP.string_of_unmap view] at mem
        exact Or.inr (mem_colonText mem)
  rcases plain with (digit | rfl) | digit | rfl
  · exact ⟨isSolid_of_isDigit byte digit, by rintro rfl; cases digit⟩
  · decide
  · exact ⟨isSolid_of_hexValue byte digit, by rintro rfl; cases digit⟩
  · decide

theorem string_to16 (ip : IP) : (IP.sixteen ip.to16).string = ip.string := by
  cases ip with
  | sixteen address => rfl
  | four address =>
    have low : (IP.four address).to4 = some address := rfl
    rw [IP.string_of_to4 ((to4_to16 _).trans low), IP.string_of_to4 low]

theorem names_string (ip : IP) : Names ip.string (.sixteen ip.to16) := by
  have trimmed : trimSpace ip.string = ip.string :=
    trimSpace_eq_self fun byte mem => (mem_string mem).1
  have bare : containsByte ip.string 47 = false := by
    rw [containsByte, List.any_eq_false]
    intro byte mem
    simpa using (mem_string mem).2
  rw [Names, trimmed, if_pos bare, parseIP_string]

/-- The network of one host. -/
def hostNet (ip : IP) : IPNet :=
  match ip.to4 with
  | some address => .four (Block.around address 32 le_rfl)
  | none => .sixteen (Block.around ip.to16 128 le_rfl)

theorem holds_hostNet (ip : IP) (address : BitVec 128) :
    (hostNet ip).holds address ↔ address = ip.to16 := by
  unfold hostNet
  cases view : ip.to4 with
  | some low =>
    have high := to16_of_to4 view
    simp [IPNet.holds, Block.contains_around_full, high]
  | none => simp [IPNet.holds, Block.contains_around_full]

theorem parseCIDR_hostRoute (ip : IP) :
    parseCIDR (ip.string ++ hostMaskSuffix ip) = some (.sixteen ip.to16, hostNet ip) := by
  have no_slash : (47 : UInt8) ∉ ip.string := fun mem => (mem_string mem).2 rfl
  have thirty_two : dtoi "32" = some (32, []) := by decide
  have one_twenty_eight : dtoi "128" = some (128, []) := by decide
  cases view : ip.to4 with
  | some low =>
    have suffix : hostMaskSuffix ip = 47 :: "32" := by
      rw [hostMaskSuffix, view]
      rfl
    have high := to16_of_to4 view
    rw [parseCIDR, suffix, cut_append 47 _ _ no_slash]
    simp [IP.string_of_to4 view, parseAddr_dotted, thirty_two, hostNet, view, high]
  | none =>
    have suffix : hostMaskSuffix ip = 47 :: "128" := by
      rw [hostMaskSuffix, view]
      rfl
    cases ip with
    | four own => cases view
    | sixteen own =>
      rw [parseCIDR, suffix, cut_append 47 _ _ no_slash]
      simp [IP.string_of_unmap view, parseAddr_colonText, one_twenty_eight, hostNet, view, IP.to16]

end DatawerxMesh.Edge
