import KaaS.Net.Pool

/-!
# Who gives out the addresses of a cluster's network

On KVM the machines of a cluster get their addresses from the hypervisor's DHCP server, and the two
addresses that belong to no machine (the API VIP and the load balancer's) are computed from the
network. For the two not to be given to a machine they have to lie outside the **range of the DHCP
server**.

The range is set by the OpenTofu module, from the third address of the network to the last but one:
all hosts but the gateway. The computed addresses are hosts near the top of the network, so of every
network that can be allocated both are in the range (`leases_highHosts`). That a server leases from
the bottom of its range is all that keeps it from giving them out.
-/

namespace KaaS.Netpool

open Text Guard Inet

/-! ### The network of the module -/

/-- OpenTofu's `cidrhost`: the address with that number in the network; a negative number counts
from the last address, which is `-1`. -/
def cidrhost (cidr : String) (hostnum : ℤ) : Option ℕ := do
  let n ← parseCIDR cidr
  let network ← to4 n.ip
  let maxHostNum : ℤ := 2 ^ n.hostBits - 1
  let num := if hostnum < 0 then -hostnum - 1 else hostnum
  if num > maxHostNum then none
  else some (network + (if hostnum < 0 then maxHostNum - num else num).toNat)

def netDhcpLo (cidr : String) : Option ℕ := cidrhost cidr 2

def netDhcpHi (cidr : String) : Option ℕ := cidrhost cidr (-2)

/-- The DHCP server of the network has the address in its range. -/
def leases (cidr ip : String) : Bool :=
  match netDhcpLo cidr, netDhcpHi cidr, (parseIP ip).bind to4 with
  | some lo, some hi, some v => lo ≤ v && v ≤ hi
  | _, _, _ => false

/-! ### The range -/

section Range

variable {b : Block}

private theorem two_pow_hostBits : (2 : ℤ) ^ b.net.hostBits = b.size := by
  rw [Block.size, Block.hostBits_net]
  push_cast
  rfl

private theorem cidrhost_text {k : ℕ} (hk : k < b.size) :
    cidrhost b.net.text k = some (b.base + k) := by
  simp only [cidrhost, b.parseCIDR_text, Option.bind_eq_bind, Option.bind_some, Block.to4_net,
    two_pow_hostBits, if_neg (Int.not_lt.mpr (Int.natCast_nonneg k)), Int.toNat_natCast]
  rw [if_neg (by omega)]

private theorem cidrhost_text_neg_two (hsize : 2 ≤ b.size) :
    cidrhost b.net.text (-2) = some (b.base + b.size - 2) := by
  have hneg : (-2 : ℤ) < 0 := by decide
  simp only [cidrhost, b.parseCIDR_text, Option.bind_eq_bind, Option.bind_some, Block.to4_net,
    two_pow_hostBits, hneg, if_true]
  rw [if_neg (by omega)]
  exact congrArg some (by omega)

/-- **The range** goes from the third address to the last but one. -/
theorem leases_dotted_iff (hsize : 4 ≤ b.size) {v : ℕ} (hv : v < 2 ^ 32) :
    leases b.net.text (dotted v) = true ↔ b.base + 2 ≤ v ∧ v ≤ b.base + b.size - 2 := by
  have hlo : netDhcpLo b.net.text = some (b.base + 2) := cidrhost_text (k := 2) (by omega)
  have hhi : netDhcpHi b.net.text = some (b.base + b.size - 2) := cidrhost_text_neg_two (by omega)
  simp only [leases, hlo, hhi, parseIP_dotted hv, Option.bind_some, to4_ofV4 hv, Bool.and_eq_true,
    decide_eq_true_eq]

end Range

/-- **The DHCP server may lease both**, of every network that is allocated. -/
theorem leases_highHosts (cfg : Settings) (existing : List Cluster) (requested cidr : String)
    (h : allocate cfg existing requested = .ok cidr) :
    ∃ v l, vip cidr = .ok v ∧ loadBalancerIP cidr = .ok l ∧ leases cidr v = true ∧
      leases cidr l = true := by
  obtain ⟨reserved, b, -, hb, rfl⟩ := exists_block_of_allocate h
  obtain ⟨hsize, hvip, hlb⟩ := highHosts_of_block hb.one_le hb.le_max
  have hend := b.base_add_size_le
  refine ⟨_, _, hvip, hlb, (leases_dotted_iff (by omega) (by omega)).mpr ?_,
    (leases_dotted_iff (by omega) (by omega)).mpr ?_⟩
  · omega
  · omega

/-- The network of the first cluster. -/
theorem leases_highHosts_first : ∃ v l, vip "10.200.0.0/24" = .ok v ∧
    loadBalancerIP "10.200.0.0/24" = .ok l ∧ leases "10.200.0.0/24" v = true ∧
    leases "10.200.0.0/24" l = true :=
  leases_highHosts {} [] "" "10.200.0.0/24" (by decide +kernel)

/-- The first cluster's VIP is in the range, `10.200.0.2` to `10.200.0.254`. -/
theorem vip_leased :
    allocate {} [] "" = .ok "10.200.0.0/24" ∧ vip "10.200.0.0/24" = .ok "10.200.0.250" ∧
      loadBalancerIP "10.200.0.0/24" = .ok "10.200.0.249" ∧
      netDhcpLo "10.200.0.0/24" = some 180879362 ∧ netDhcpHi "10.200.0.0/24" = some 180879614 ∧
      leases "10.200.0.0/24" "10.200.0.250" = true ∧
      leases "10.200.0.0/24" "10.200.0.249" = true := by
  decide +kernel

end KaaS.Netpool
