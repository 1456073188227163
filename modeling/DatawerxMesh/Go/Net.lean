import DatawerxMesh.Go.Text
import DatawerxMesh.Library.AddressBlock

/-!
# Addresses and networks of the Go standard library

`netip.ParseAddr`, `net.ParseCIDR`, `IP.To4`, `IPNet.Contains` and `IPNet.String`.  The address text
decides the width of the mask, also for IPv4-mapped addresses.
-/

namespace Go

open Addressing

/-- The loop of `parseIPv4Fields`.  A dot is refused at either end and after another dot. -/
def parseIPv4Fields (fields : List Nat) (value digits : Nat) : Str → Option (List Nat)
  | [] => if fields.length < 3 then none else some (fields ++ [value])
  | byte :: rest =>
    if isDigit byte then
      if digits = 1 ∧ value = 0 then none
      else
        let next := value * 10 + digitValue byte
        if 255 < next then none else parseIPv4Fields fields next (digits + 1) rest
    else if byte = 46 then
      if digits = 0 ∨ rest = [] then none
      else if fields.length = 3 then none
      else parseIPv4Fields (fields ++ [value]) 0 0 rest
    else none

/-- The address with the given octets. -/
def ofOctets (octets : List Nat) : BitVec 32 :=
  BitVec.ofNat 32 (octets.foldl (fun address octet => address * 256 + octet) 0)

/-- The value of a hexadecimal digit. -/
def hexValue (byte : UInt8) : Option Nat :=
  if isDigit byte then some (byte.toNat - 48)
  else if 97 ≤ byte ∧ byte ≤ 102 then some (byte.toNat - 97 + 10)
  else if 65 ≤ byte ∧ byte ≤ 70 then some (byte.toNat - 65 + 10)
  else none

/-- Read one group of at most four hexadecimal digits: their number, their value and the rest. -/
def hexGroup (count value : Nat) : Str → Option (Nat × Nat × Str)
  | [] => some (count, value, [])
  | byte :: rest =>
    match hexValue byte with
    | none => some (count, value, byte :: rest)
    | some d =>
      if 3 < count ∨ 0xFFFF < value * 16 + d then none
      else hexGroup (count + 1) (value * 16 + d) rest

/-- The group loop of `parseIPv6`, with at most `fuel` groups left: the remaining text, the groups
and the position of the ellipsis. -/
def parseIPv6Groups : Nat → Str → List Nat → Option Nat → Option (Str × List Nat × Option Nat)
  | 0, text, groups, ellipsis => some (text, groups, ellipsis)
  | fuel + 1, text, groups, ellipsis =>
    match hexGroup 0 0 text with
    | none => none
    | some (0, _, _) => none
    | some (_ + 1, value, []) => some ([], groups ++ [value], ellipsis)
    | some (_ + 1, value, byte :: rest) =>
      if byte = 46 then
        -- A trailing dotted address stands for the last two groups.
        if ellipsis = none ∧ groups.length ≠ 6 then none
        else if 8 < groups.length + 2 then none
        else
          match parseIPv4Fields [] 0 0 text with
          | some [a, b, c, d] => some ([], groups ++ [a * 256 + b, c * 256 + d], ellipsis)
          | _ => none
      else if byte ≠ 58 then none
      else
        match rest with
        | [] => none
        | next :: later =>
          if next = 58 then
            if ellipsis ≠ none then none
            else if later = [] then some ([], groups ++ [value], some (groups.length + 1))
            else parseIPv6Groups fuel later (groups ++ [value]) (some (groups.length + 1))
          else parseIPv6Groups fuel (next :: later) (groups ++ [value]) ellipsis

/-- Fill the gap that the ellipsis stands for. -/
def expandEllipsis (groups : List Nat) : Option Nat → Option (List Nat)
  | none => if groups.length < 8 then none else some groups
  | some position =>
    if groups.length < 8 then
      some (groups.take position ++ List.replicate (8 - groups.length) 0 ++ groups.drop position)
    else none

/-- The address with the given 16-bit groups. -/
def ofGroups (groups : List Nat) : BitVec 128 :=
  BitVec.ofNat 128 (groups.foldl (fun address group => address * 65536 + group) 0)

variable (text : Str)

/-- `parseIPv6` on text without a zone. -/
def parseIPv6 : Option (BitVec 128) :=
  let start : Option (Str × List Nat × Option Nat) :=
    match text with
    | 58 :: 58 :: [] => some ([], [], some 0)
    | 58 :: 58 :: rest => parseIPv6Groups 8 rest [] (some 0)
    | _ => parseIPv6Groups 8 text [] none
  match start with
  | some ([], groups, ellipsis) => (expandEllipsis groups ellipsis).map ofGroups
  | _ => none

/-- An address of `net/netip`. -/
inductive Addr where
  | v4 (address : BitVec 32)
  | v6 (address : BitVec 128) (zone : Str)
  deriving DecidableEq

/-- Dotted text. -/
def parseIPv4 : Option Addr :=
  (parseIPv4Fields [] 0 0 text).map fun octets => .v4 (ofOctets octets)

/-- `parseIPv6` with its optional, then non-empty, zone. -/
def parseIPv6Zone : Option Addr :=
  match cut 37 text with
  | none => (parseIPv6 text).map fun address => .v6 address []
  | some (_, []) => none
  | some (before, zone) => (parseIPv6 before).map fun address => .v6 address zone

/-- `netip.ParseAddr`: the first dot, colon or percent sign decides the syntax. -/
def parseAddr : Option Addr :=
  match text.find? fun byte => byte == 46 || byte == 58 || byte == 37 with
  | some 46 => parseIPv4 text
  | some 58 => parseIPv6Zone text
  | _ => none

/-- `net.IP`: four or sixteen bytes. -/
inductive IP where
  | four (address : BitVec 32)
  | sixteen (address : BitVec 128)
  deriving DecidableEq

/-- The sixteen-byte form of an IPv4 address. -/
def mapped (address : BitVec 32) : BitVec 128 := 0xffff#96 ++ address

/-- `IP.To4` on sixteen bytes. -/
def unmap (address : BitVec 128) : Option (BitVec 32) :=
  if address.extractLsb' 32 96 = 0xffff#96 then some (address.extractLsb' 0 32) else none

/-- The four bytes, also of a mapped address. -/
def IP.to4 : IP → Option (BitVec 32)
  | .four address => some address
  | .sixteen address => unmap address

/-- `net.ParseIP`: an address without a zone, in sixteen bytes. -/
def parseIP : Option IP :=
  match parseAddr text with
  | some (.v4 address) => some (.sixteen (mapped address))
  | some (.v6 address []) => some (.sixteen address)
  | _ => none

/-- `net.IPNet` as `ParseCIDR` builds it: a masked base with a mask of the same width. -/
inductive IPNet where
  | four (block : Block 32)
  | sixteen (block : Block 128)
  deriving DecidableEq

namespace IPNet

/-- The first address of a network. -/
def ip : IPNet → IP
  | four block => .four block.base
  | sixteen block => .sixteen block.base

/-- First result of `Mask.Size`. -/
def ones : IPNet → Nat
  | four block => block.len
  | sixteen block => block.len

end IPNet

/-- An address and its network. -/
def parseCIDR : Option (IP × IPNet) :=
  match cut 47 text with
  | none => none
  | some (addrText, maskText) =>
    match parseAddr addrText, dtoi maskText with
    | some (.v4 address), some (len, []) =>
      if fits : len ≤ 32 then
        some (.sixteen (mapped address), .four (Block.around address len fits))
      else none
    | some (.v6 address []), some (len, []) =>
      if fits : len ≤ 128 then
        some (.sixteen address, .sixteen (Block.around address len fits))
      else none
    | _, _ => none

/-- The network of a range text. -/
def parseNet : Option IPNet := (parseCIDR text).map Prod.snd

/-- The low 32 bits of a mapped network as an IPv4 block. -/
def mappedBlock (block : Block 128) (base : BitVec 32) : Block 32 :=
  Block.around base (min (block.len - 96) 32) (min_le_right _ _)

/-- `networkNumberAndMask`: an IPv4 block whenever the base has a four-byte form. -/
def IPNet.number : IPNet → Block 32 ⊕ Block 128
  | .four block => .inl block
  | .sixteen block =>
    match unmap block.base with
    | some base => .inl (mappedBlock block base)
    | none => .inr block

/-- `IPNet.Contains`: families are compared after `To4` on both sides. -/
def IPNet.contains (net : IPNet) (ip : IP) : Bool :=
  match net.number, ip.to4, ip with
  | .inl block, some address, _ => block.contains address
  | .inr block, none, .sixteen address => block.contains address
  | _, _, _ => false

/-- The bytes of an address. -/
def octets (address : BitVec 32) : List Nat :=
  [address.toNat / 2 ^ 24 % 256, address.toNat / 2 ^ 16 % 256, address.toNat / 2 ^ 8 % 256,
    address.toNat % 256]

/-- Dotted text of an IPv4 address. -/
def dotted (address : BitVec 32) : Str := join [46] ((octets address).map itoa)

/-- The 16-bit groups of an IPv6 address. -/
def groups (address : BitVec 128) : List Nat :=
  (List.range 8).map fun i => address.toNat / 2 ^ (16 * (7 - i)) % 65536

/-- Hexadecimal text without leading zeros. -/
def hex (n : Nat) : Str := (Nat.toDigits 16 n).map fun char => UInt8.ofNat char.toNat

/-- The first longest run of at least two zero groups. -/
def zeroRun (groups : List Nat) : Option (Nat × Nat) :=
  (List.range 8).foldl (fun best i =>
    let stop := i + ((groups.drop i).takeWhile (· == 0)).length
    match best with
    | none => if 2 ≤ stop - i then some (i, stop) else none
    | some (start, finish) => if finish - start < stop - i then some (i, stop) else best) none

/-- The text of an IPv6 address. -/
def colonText (address : BitVec 128) : Str :=
  match zeroRun (groups address) with
  | none => join [58] ((groups address).map hex)
  | some (start, stop) =>
    join [58] (((groups address).take start).map hex) ++ [58, 58] ++
      join [58] (((groups address).drop stop).map hex)

/-- The text of an address. -/
def IP.string (ip : IP) : Str :=
  match ip.to4, ip with
  | some address, _ => dotted address
  | none, .four address => dotted address
  | none, .sixteen address => colonText address

/-- The text of a network. -/
def IPNet.string (net : IPNet) : Str :=
  match net.number with
  | .inl block => dotted block.base ++ 47 :: itoa block.len
  | .inr block => colonText block.base ++ 47 :: itoa block.len

example : (parseNet "::ffff:10.244.0.0/112").map IPNet.string =
    some "10.244.0.0/16" := by
  decide +kernel

example : (parseNet "fd00:0:0:1::/64").map IPNet.string = some "fd00:0:0:1::/64" := by
  decide +kernel

/-- The text before and after the last separator. -/
def cutLast (separator : UInt8) (s : Str) : Option (Str × Str) :=
  (cut separator s.reverse).map fun (after, before) => (before.reverse, after.reverse)

/-- `net.SplitHostPort`.  The port starts after the last colon; a host with colons stands in
brackets. -/
def splitHostPort (hostport : Str) : Option (Str × Str) :=
  match cutLast 58 hostport with
  | none => none
  | some (host, port) =>
    match hostport with
    | 91 :: inner =>
      match cut 93 inner with
      | none => none
      | some (address, rest) =>
        if rest = 58 :: port ∧ !containsByte inner 91 ∧ !containsByte rest 93 then
          some (address, port)
        else none
    | _ =>
      if containsByte host 58 || containsByte hostport 91 || containsByte hostport 93 then none
      else some (host, port)

example : splitHostPort (str "[fd00::1]:51820") = some (str "fd00::1", str "51820") := by
  decide +kernel

example : splitHostPort "fd00::1" = none := by decide +kernel

end Go
