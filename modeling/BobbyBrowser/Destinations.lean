/-
Which addresses the direct network path may reach.

`DestinationPolicy` admits or refuses an address. Its rules are written for IPv4, and
an IPv6 address that carries an IPv4 address is meant to stand or fall with the
address it carries. What the IPv4 rules refuse is stated here once more, as blocks of
addresses, and every standard embedding is held against it.
-/
import BobbyBrowser.Outcomes

set_option autoImplicit false

namespace BobbyBrowser.Destinations

open Outcomes List Option

/-! ## Addresses -/

/-- `std::net::Ipv4Addr`, by its octets. -/
structure Ipv4Addr where
  a : BitVec 8
  b : BitVec 8
  c : BitVec 8
  d : BitVec 8
  deriving DecidableEq, Repr

namespace Ipv4Addr

variable (ip : Ipv4Addr)

def is_loopback : Bool := ip.a == 127

def is_unspecified : Bool := ip == ⟨0, 0, 0, 0⟩

def is_multicast : Bool := decide (224 ≤ ip.a) && decide (ip.a ≤ 239)

def is_link_local : Bool := ip.a == 169 && ip.b == 254

def is_broadcast : Bool := ip == ⟨255, 255, 255, 255⟩

def is_private : Bool :=
  ip.a == 10 || (ip.a == 172 && decide (16 ≤ ip.b) && decide (ip.b ≤ 31))
    || (ip.a == 192 && ip.b == 168)

/-- The address that two 16-bit segments spell. -/
def of_segments (hi lo : BitVec 16) : Ipv4Addr :=
  ⟨(hi >>> 8).setWidth 8, hi.setWidth 8, (lo >>> 8).setWidth 8, lo.setWidth 8⟩

/-- The address as a number. -/
def value : ℕ := ((ip.a.toNat * 256 + ip.b.toNat) * 256 + ip.c.toNat) * 256 + ip.d.toNat

end Ipv4Addr

/-- `std::net::Ipv6Addr`, by its segments. -/
structure Ipv6Addr where
  s0 : BitVec 16
  s1 : BitVec 16
  s2 : BitVec 16
  s3 : BitVec 16
  s4 : BitVec 16
  s5 : BitVec 16
  s6 : BitVec 16
  s7 : BitVec 16
  deriving DecidableEq, Repr

namespace Ipv6Addr

variable (ip : Ipv6Addr)

/-- The first five segments are zero. -/
def leads_zero : Bool := ip.s0 == 0 && ip.s1 == 0 && ip.s2 == 0 && ip.s3 == 0 && ip.s4 == 0

def to_ipv4_mapped : Option Ipv4Addr :=
  if ip.leads_zero && ip.s5 == 0xffff then some (.of_segments ip.s6 ip.s7) else none

def is_loopback : Bool := ip == ⟨0, 0, 0, 0, 0, 0, 0, 1⟩

def is_unspecified : Bool := ip == ⟨0, 0, 0, 0, 0, 0, 0, 0⟩

def is_multicast : Bool := ip.s0 &&& 0xff00 == 0xff00

def is_unicast_link_local : Bool := ip.s0 &&& 0xffc0 == 0xfe80

def is_unique_local : Bool := ip.s0 &&& 0xfe00 == 0xfc00

end Ipv6Addr

inductive IpAddr
  | v4 (ip : Ipv4Addr)
  | v6 (ip : Ipv6Addr)
  deriving DecidableEq, Repr

/-! ## The policy -/

structure NetworkPolicy where
  allow_loopback : Bool := false
  allow_private_network : Bool := false
  max_redirects : ℕ := 5
  max_header_bytes : ℕ := 64 * 1024
  max_body_bytes : ℕ := 8 * 1024 * 1024
  max_download_bytes : ℕ := 64 * 1024 * 1024
  request_timeout_ms : ℕ := 30000
  max_concurrent_requests : ℕ := 8
  deriving DecidableEq, Repr

def is_cgnat (ip : Ipv4Addr) : Bool := ip.a == 100 && decide (64 ≤ ip.b) && decide (ip.b ≤ 127)

def ipv4_compatible (ip : Ipv6Addr) : Option Ipv4Addr :=
  if ip.leads_zero && ip.s5 == 0 && ip.s6 != 0 then some (.of_segments ip.s6 ip.s7) else none

structure DestinationPolicy where
  network : NetworkPolicy

namespace DestinationPolicy

def ipv4_is_allowed (policy : DestinationPolicy) (ip : Ipv4Addr) : Bool :=
  if ip.is_loopback then
    policy.network.allow_loopback
  else if ip.is_unspecified || ip.is_multicast || ip.is_link_local || ip.is_broadcast
      || is_cgnat ip then
    false
  else
    !ip.is_private || policy.network.allow_private_network

def ip_is_allowed (policy : DestinationPolicy) : IpAddr → Bool
  | .v4 ip => policy.ipv4_is_allowed ip
  | .v6 ip =>
    match ip.to_ipv4_mapped.or (ipv4_compatible ip) with
    | some ipv4 => policy.ipv4_is_allowed ipv4
    | none =>
      -- 6to4 and Teredo are refused outright
      if ip.s0 == 0x2002 || (ip.s0 == 0x2001 && ip.s1 == 0) then
        false
      else if ip.is_loopback then
        policy.network.allow_loopback
      else if ip.is_unspecified || ip.is_multicast || ip.is_unicast_link_local then
        false
      else
        !ip.is_unique_local || policy.network.allow_private_network

end DestinationPolicy

def policy_error (message : String) : CommandError :=
  ⟨.network_policy_denied, message, .network, false⟩

/-- `DestinationPolicy::validate_resolved`, after `validate_http_url`, with `U` for the URL. A
socket address is its address and its port. -/
def DestinationPolicy.validate_resolved {U : Type} (policy : DestinationPolicy)
    (validate_http_url : U → Except CommandError Unit) (url : U) (addresses : List (IpAddr × ℕ)) :
    Except CommandError (U × List (IpAddr × ℕ)) := do
  validate_http_url url
  if addresses.isEmpty then
    throw (policy_error "destination resolved to no addresses")
  if addresses.any fun address => !policy.ip_is_allowed address.1 then
    throw (policy_error "destination address is not permitted")
  pure (url, addresses)

/-! ## The refused blocks -/

/-- A block of addresses: those that agree with `base` above the lowest `free` bits. -/
structure Block where
  base : ℕ
  free : ℕ

/-- The address lies in the block. -/
def Block.covers (block : Block) (address : ℕ) : Prop :=
  address / 2 ^ block.free = block.base / 2 ^ block.free

namespace Block

def this_host : Block := ⟨0, 0⟩

def broadcast : Block := ⟨2 ^ 32 - 1, 0⟩

def loopback : Block := ⟨127 * 2 ^ 24, 24⟩

def multicast : Block := ⟨224 * 2 ^ 24, 28⟩

def link_local : Block := ⟨169 * 2 ^ 24 + 254 * 2 ^ 16, 16⟩

def shared : Block := ⟨100 * 2 ^ 24 + 64 * 2 ^ 16, 22⟩

/-- 10/8, 172.16/12 and 192.168/16. -/
def private_use : List Block :=
  [⟨10 * 2 ^ 24, 24⟩, ⟨172 * 2 ^ 24 + 16 * 2 ^ 16, 20⟩, ⟨192 * 2 ^ 24 + 168 * 2 ^ 16, 16⟩]

end Block

/-- The blocks in which an IPv4 address is refused: this host, multicast, link-local, broadcast
and shared addresses always, loopback and private ones unless the policy opens them. -/
def DestinationPolicy.refused (policy : DestinationPolicy) : List Block :=
  [.this_host, .multicast, .link_local, .broadcast, .shared]
    ++ (if policy.network.allow_loopback then [] else [.loopback])
    ++ if policy.network.allow_private_network then [] else Block.private_use

namespace Ipv4Addr

variable (ip : Ipv4Addr)

/-- An address is its number. -/
theorem eq_iff_value (other : Ipv4Addr) : ip = other ↔ ip.value = other.value := by
  constructor
  · rintro rfl
    rfl
  intro h
  obtain ⟨a, b, c, d⟩ := ip
  obtain ⟨a', b', c', d'⟩ := other
  simp only [value] at h
  simp only [mk.injEq]
  bv_omega

theorem is_loopback_iff : ip.is_loopback = true ↔ Block.loopback.covers ip.value := by
  simp only [is_loopback, Block.covers, Block.loopback, value, beq_iff_eq]
  bv_omega

theorem is_unspecified_iff : ip.is_unspecified = true ↔ Block.this_host.covers ip.value := by
  simp only [is_unspecified, beq_iff_eq, eq_iff_value]
  simp [Block.covers, Block.this_host, value]

theorem is_multicast_iff : ip.is_multicast = true ↔ Block.multicast.covers ip.value := by
  simp only [is_multicast, Block.covers, Block.multicast, value, Bool.and_eq_true,
    decide_eq_true_eq]
  bv_omega

theorem is_link_local_iff : ip.is_link_local = true ↔ Block.link_local.covers ip.value := by
  simp only [is_link_local, Block.covers, Block.link_local, value, Bool.and_eq_true, beq_iff_eq]
  bv_omega

theorem is_broadcast_iff : ip.is_broadcast = true ↔ Block.broadcast.covers ip.value := by
  simp only [is_broadcast, beq_iff_eq, eq_iff_value]
  simp [Block.covers, Block.broadcast, value]

theorem is_cgnat_iff : is_cgnat ip = true ↔ Block.shared.covers ip.value := by
  simp only [is_cgnat, Block.covers, Block.shared, value, Bool.and_eq_true, beq_iff_eq,
    decide_eq_true_eq]
  bv_omega

theorem is_private_iff :
    ip.is_private = false ↔ ∀ block ∈ Block.private_use, ¬ block.covers ip.value := by
  rw [← Bool.not_eq_true]
  simp only [is_private, Block.covers, Block.private_use, forall_mem_cons, value,
    Bool.or_eq_true, Bool.and_eq_true, beq_iff_eq, decide_eq_true_eq, not_mem_nil,
    IsEmpty.forall_iff, implies_true, and_true]
  bv_omega

end Ipv4Addr

/-- Loopback addresses are in no other block, so the first test of the IPv4 rules may answer
alone. -/
theorem loopback_apart {ip : Ipv4Addr} (h : ip.is_loopback) :
    (ip.is_unspecified || ip.is_multicast || ip.is_link_local || ip.is_broadcast || is_cgnat ip)
      = false ∧ ip.is_private = false := by
  obtain ⟨a, b, c, d⟩ := ip
  simp only [Ipv4Addr.is_loopback, beq_iff_eq] at h
  subst h
  simp [Ipv4Addr.is_unspecified, Ipv4Addr.is_multicast, Ipv4Addr.is_link_local,
    Ipv4Addr.is_broadcast, is_cgnat, Ipv4Addr.is_private]

/-- The IPv4 rules admit exactly the addresses outside the refused blocks. -/
theorem ipv4_is_allowed_iff (policy : DestinationPolicy) (ip : Ipv4Addr) :
    policy.ipv4_is_allowed ip = true ↔ ∀ block ∈ policy.refused, ¬ block.covers ip.value := by
  unfold DestinationPolicy.ipv4_is_allowed DestinationPolicy.refused
  simp only [forall_mem_append, forall_mem_cons, ← Ipv4Addr.is_unspecified_iff,
    ← Ipv4Addr.is_multicast_iff, ← Ipv4Addr.is_link_local_iff, ← Ipv4Addr.is_broadcast_iff,
    ← Ipv4Addr.is_cgnat_iff]
  have hapart := @loopback_apart ip
  cases policy.network.allow_loopback <;> cases policy.network.allow_private_network <;>
    simp [← Ipv4Addr.is_private_iff, ← Ipv4Addr.is_loopback_iff] <;> grind

/-! ## Embedded addresses -/

/-- The standard ways in which an IPv6 address carries an IPv4 address. -/
inductive Embedding
  | ipv4_mapped
  | ipv4_compatible
  | six_to_four
  | teredo
  | nat64
  deriving DecidableEq, Repr

/-- The IPv4 address that the IPv6 address carries. -/
def Embedding.carried (embedding : Embedding) (ip : Ipv6Addr) : Option Ipv4Addr :=
  match embedding with
  | .ipv4_mapped =>
    if ip.leads_zero && ip.s5 == 0xffff then some (.of_segments ip.s6 ip.s7) else none
  | .ipv4_compatible =>
    if ip.leads_zero && ip.s5 == 0 then some (.of_segments ip.s6 ip.s7) else none
  | .six_to_four => if ip.s0 == 0x2002 then some (.of_segments ip.s1 ip.s2) else none
  -- Teredo writes the address of the client with its bits inverted
  | .teredo =>
    if ip.s0 == 0x2001 && ip.s1 == 0 then some (.of_segments (~~~ ip.s6) (~~~ ip.s7)) else none
  | .nat64 =>
    if ip.s0 == 0x64 && ip.s1 == 0xff9b && ip.s2 == 0 && ip.s3 == 0 && ip.s4 == 0 && ip.s5 == 0 then
      some (.of_segments ip.s6 ip.s7)
    else none

section Embedded

variable (policy : DestinationPolicy) {ip : Ipv6Addr} {v4 : Ipv4Addr}

theorem allowed_of_mapped (h : Embedding.ipv4_mapped.carried ip = some v4) :
    policy.ip_is_allowed (.v6 ip) = policy.ipv4_is_allowed v4 := by
  have hmapped : ip.to_ipv4_mapped = some v4 := h
  simp only [DestinationPolicy.ip_is_allowed, hmapped, some_or]

/-- An address that does not begin with zeros is judged by the IPv6 rules. -/
theorem unmapped (h : ip.s0 ≠ 0) : ip.to_ipv4_mapped.or (ipv4_compatible ip) = none := by
  have hleads : ip.leads_zero = false := by
    simp only [Ipv6Addr.leads_zero, beq_eq_false_iff_ne.mpr h, Bool.false_and]
  simp [Ipv6Addr.to_ipv4_mapped, ipv4_compatible, hleads]

theorem of_segments_value (hi lo : BitVec 16) :
    (Ipv4Addr.of_segments hi lo).value = hi.toNat * 2 ^ 16 + lo.toNat := by
  have hhi := hi.isLt
  have hlo := lo.isLt
  simp only [Ipv4Addr.of_segments, Ipv4Addr.value, BitVec.toNat_setWidth, BitVec.toNat_ushiftRight,
    Nat.shiftRight_eq_div_pow]
  omega

/-- `ipv4_compatible` passes over the addresses of 0.0.0.0/16. The IPv4 rules refuse only the
first of them, whose IPv6 form is the unspecified address. -/
theorem allowed_of_compatible (h : Embedding.ipv4_compatible.carried ip = some v4)
    (hallowed : policy.ip_is_allowed (.v6 ip)) : policy.ipv4_is_allowed v4 = true := by
  simp only [Embedding.carried, Ipv6Addr.leads_zero, ite_none_right_eq_some,
    Bool.and_eq_true, beq_iff_eq, some.injEq] at h
  obtain ⟨s0, s1, s2, s3, s4, s5, s6, s7⟩ := ip
  obtain ⟨⟨⟨⟨⟨⟨rfl, rfl⟩, rfl⟩, rfl⟩, rfl⟩, rfl⟩, rfl⟩ := h
  by_cases hhi : s6 = 0
  · subst hhi
    have hlo : s7 ≠ 0 := by
      rintro rfl
      simp [DestinationPolicy.ip_is_allowed, Ipv6Addr.to_ipv4_mapped, ipv4_compatible,
        Ipv6Addr.is_loopback, Ipv6Addr.is_unspecified] at hallowed
    have hspecified : (Ipv4Addr.of_segments 0 s7).is_unspecified = false := by
      rw [← Bool.not_eq_true, Ipv4Addr.is_unspecified_iff, of_segments_value]
      simp only [Block.covers, Block.this_host]
      bv_omega
    simp [DestinationPolicy.ipv4_is_allowed, Ipv4Addr.of_segments, Ipv4Addr.is_loopback,
      Ipv4Addr.is_multicast, Ipv4Addr.is_link_local, Ipv4Addr.is_broadcast, is_cgnat,
      Ipv4Addr.is_private]
    exact hspecified
  · have hcarries : ipv4_compatible ⟨0, 0, 0, 0, 0, 0, s6, s7⟩ = some (.of_segments s6 s7) :=
      if_pos (by simpa [Ipv6Addr.leads_zero] using hhi)
    have hunmapped : Ipv6Addr.to_ipv4_mapped ⟨0, 0, 0, 0, 0, 0, s6, s7⟩ = none := rfl
    simpa only [DestinationPolicy.ip_is_allowed, hunmapped, hcarries, none_or] using hallowed

/-- A 6to4 or Teredo address is refused, whatever it carries. -/
theorem refused_of_tunnel {embedding : Embedding}
    (htunnel : embedding = .six_to_four ∨ embedding = .teredo)
    (h : embedding.carried ip = some v4) : policy.ip_is_allowed (.v6 ip) = false := by
  have hhead : ip.s0 = 0x2002 ∨ ip.s0 = 0x2001 ∧ ip.s1 = 0 := by
    rcases htunnel with rfl | rfl <;>
      simp only [Embedding.carried, ite_none_right_eq_some, Bool.and_eq_true, beq_iff_eq] at h
    · exact .inl h.1
    · exact .inr h.1
  have hlead : ip.s0 ≠ 0 := by
    rcases hhead with h | ⟨h, -⟩ <;> rw [h] <;> decide
  simp only [DestinationPolicy.ip_is_allowed, unmapped hlead]
  exact if_pos (by simpa using hhead)

/-- A NAT64 address is admitted, whatever it carries: it is in none of the ranges that the IPv6
rules know. -/
theorem allowed_of_nat64 (h : Embedding.nat64.carried ip = some v4) :
    policy.ip_is_allowed (.v6 ip) = true := by
  simp only [Embedding.carried, ite_none_right_eq_some, Bool.and_eq_true, beq_iff_eq] at h
  obtain ⟨⟨⟨⟨⟨⟨hhead, -⟩, -⟩, -⟩, -⟩, -⟩, -⟩ := h
  have hlead : ip.s0 ≠ 0 := by
    rw [hhead]
    decide
  obtain ⟨s0, s1, s2, s3, s4, s5, s6, s7⟩ := ip
  simp only [DestinationPolicy.ip_is_allowed, unmapped hlead]
  simp only at hhead
  simp [hhead, Ipv6Addr.is_loopback, Ipv6Addr.is_unspecified, Ipv6Addr.is_multicast,
    Ipv6Addr.is_unicast_link_local, Ipv6Addr.is_unique_local]

/-- NAT64 aside, an IPv6 address is admitted only with the IPv4 address it carries. -/
theorem allowed_of_carried {embedding : Embedding} (hne : embedding ≠ .nat64)
    (h : embedding.carried ip = some v4) (hallowed : policy.ip_is_allowed (.v6 ip)) :
    policy.ipv4_is_allowed v4 = true := by
  cases embedding with
  | ipv4_mapped => rwa [allowed_of_mapped policy h] at hallowed
  | ipv4_compatible => exact allowed_of_compatible policy h hallowed
  | six_to_four =>
    rw [refused_of_tunnel policy (.inl rfl) h] at hallowed
    cases hallowed
  | teredo =>
    rw [refused_of_tunnel policy (.inr rfl) h] at hallowed
    cases hallowed
  | nat64 => exact absurd rfl hne

end Embedded

/-- An IPv6 address stands or falls with the IPv4 address it carries, whatever the policy, except
that a NAT64 address is admitted even where the address it carries is refused. -/
theorem embedded_address_admitted_iff (policy : DestinationPolicy) (embedding : Embedding)
    (ip : Ipv6Addr) (v4 : Ipv4Addr) (h : embedding.carried ip = some v4) :
    (policy.ip_is_allowed (.v6 ip) = true → policy.ip_is_allowed (.v4 v4) = true) ↔
      (embedding = .nat64 → ∀ block ∈ policy.refused, ¬ block.covers v4.value) := by
  rw [← ipv4_is_allowed_iff]
  by_cases hnat : embedding = .nat64
  · subst hnat
    rw [allowed_of_nat64 policy h]
    exact ⟨fun hallowed _ => hallowed rfl, fun hoff _ => hoff rfl⟩
  · exact iff_of_true (allowed_of_carried policy hnat h) (absurd · hnat)

/-- 64:ff9b::7f00:1 carries 127.0.0.1. The default policy admits the one and refuses the other. -/
theorem nat64_loopback_admitted :
    let policy : DestinationPolicy := ⟨{}⟩
    let ip : Ipv6Addr := ⟨0x64, 0xff9b, 0, 0, 0, 0, 0x7f00, 1⟩
    Embedding.nat64.carried ip = some ⟨127, 0, 0, 1⟩ ∧ policy.ip_is_allowed (.v6 ip) = true
      ∧ policy.ip_is_allowed (.v4 ⟨127, 0, 0, 1⟩) = false := by
  decide

/-- A 6to4 address that carries the loopback address, under the policy of the defaults. -/
theorem six_to_four_loopback_refused :
    Embedding.six_to_four.carried ⟨0x2002, 0x7f00, 1, 0, 0, 0, 0, 0⟩ = some ⟨127, 0, 0, 1⟩
      ∧ ((DestinationPolicy.mk {}).ip_is_allowed (.v6 ⟨0x2002, 0x7f00, 1, 0, 0, 0, 0, 0⟩) = true →
        (DestinationPolicy.mk {}).ip_is_allowed (.v4 ⟨127, 0, 0, 1⟩) = true) :=
  ⟨by decide, (embedded_address_admitted_iff ⟨{}⟩ .six_to_four _ _ (by decide)).mpr
    fun hnot => nomatch hnot⟩

/-! ## A resolved destination -/

section Resolved

variable {U : Type} {policy : DestinationPolicy} {validate_http_url : U → Except CommandError Unit}
  {url : U} {addresses : List (IpAddr × ℕ)} {destination : U × List (IpAddr × ℕ)}

/-- **What `validate_resolved` accepts**: a valid URL with at least one address, all of which the
policy admits. It hands both on as they are. -/
theorem validate_resolved_eq_ok_iff :
    policy.validate_resolved validate_http_url url addresses = .ok destination
      ↔ validate_http_url url = .ok () ∧ addresses ≠ []
        ∧ (∀ address ∈ addresses, policy.ip_is_allowed address.1 = true)
        ∧ destination = (url, addresses) := by
  have hany : (∀ address ∈ addresses, policy.ip_is_allowed address.1 = true)
      ↔ ¬ (addresses.any fun address => !policy.ip_is_allowed address.1) = true := by
    simp
  rw [hany, DestinationPolicy.validate_resolved]
  rcases validate_http_url url with error | _
  · exact ⟨nofun, nofun⟩
  cases addresses with
  | nil => exact ⟨nofun, fun h => absurd rfl h.2.1⟩
  | cons address rest =>
    rcases (address :: rest).any fun address => !policy.ip_is_allowed address.1 with _ | _
    · constructor
      · intro h
        cases h
        exact ⟨rfl, cons_ne_nil _ _, Bool.false_ne_true, rfl⟩
      · rintro ⟨-, -, -, rfl⟩
        rfl
    · exact ⟨nofun, fun h => absurd rfl h.2.2.1⟩

/-- The IPv4 address that a packet to an address ends up at: the address itself, or the one that an
embedding carries. NAT64 is the embedding the policy does not look into. -/
inductive LeadsTo : IpAddr → Ipv4Addr → Prop
  | itself (v4 : Ipv4Addr) : LeadsTo (.v4 v4) v4
  | carried {ip : Ipv6Addr} {v4 : Ipv4Addr} {embedding : Embedding} (hne : embedding ≠ .nat64)
      (h : embedding.carried ip = some v4) : LeadsTo (.v6 ip) v4

/-- **No address of a destination that is accepted leads into a refused block.** -/
theorem validated_outside_refused {address : IpAddr × ℕ} {v4 : Ipv4Addr}
    (h : policy.validate_resolved validate_http_url url addresses = .ok destination)
    (hmem : address ∈ destination.2) (hleads : LeadsTo address.1 v4) :
    ∀ block ∈ policy.refused, ¬ block.covers v4.value := by
  obtain ⟨-, -, hallowed, rfl⟩ := validate_resolved_eq_ok_iff.mp h
  have hallowed := hallowed address hmem
  obtain ⟨ip, port⟩ := address
  rw [← ipv4_is_allowed_iff]
  cases hleads with
  | itself => exact hallowed
  | carried hne h => exact allowed_of_carried policy hne h hallowed

end Resolved

end BobbyBrowser.Destinations
