import KaaS.App.Create
import KaaS.Net.Static

/-!
# The addresses of a cluster

Admission gives a new cluster its addresses. A KVM cluster gets a network of its own
(`Netpool.allocate`) with a load balancer's address and, if its control plane is highly available,
an API VIP in it. On vSphere and Proxmox all clusters are on the operator's network: under DHCP the
request names the two addresses, and in static mode they are allocated together with one address
for each machine. A later edit of the pools gives addresses to new machines only.

What is in use on a shared network is the set of texts recorded on the live clusters of the
provider (`usedAddresses`).
-/

namespace KaaS

open Text Guard Inet

structure SharedNetSettings where
  network : String := ""
  netMode : String := "dhcp"
  netCIDR : String := ""
  netGateway : String := ""
  netDNS : String := ""
  netRange : String := ""

structure NetworkSettings where
  pool : Netpool.Settings := {}
  vsphere : Option SharedNetSettings := none
  proxmox : Option SharedNetSettings := none

/-- Of the providers, vSphere and Proxmox may have a shared network. -/
def NetworkSettings.sharedNet (N : NetworkSettings) (provider : String) :
    Option SharedNetSettings :=
  if provider = providerVSphere then N.vsphere
  else if provider = providerProxmox then N.proxmox
  else none

/-- What `New` checks of a shared network; `family` is the environment's name for the provider. -/
def validateSharedNet (s : SharedNetSettings) (family : String) : Except String Unit := do
  refuseIf (s.netCIDR = "") (family ++ "_NET_CIDR is required")
  let _ ← (Netpool.readCIDR s.netCIDR).mapError fun e => family ++ "_NET_CIDR: " ++ e
  if s.netMode = "dhcp" then pure ()
  else if s.netMode = "static" then do
    refuseIf (s.netGateway = "" ∨ s.netRange = "" ∨ s.netDNS = "") (family ++
      "_NET_MODE=static requires " ++ family ++ "_NET_GATEWAY, " ++ family ++ "_NET_DNS and " ++
      family ++ "_NET_RANGE")
    refuseIf (parseIP s.netGateway = none) (family ++ "_NET_GATEWAY " ++ quote s.netGateway ++
      " is not a valid IP")
    let _ ← (Netpool.parseRange s.netRange).mapError fun e => family ++ "_NET_RANGE: " ++ e
  else throw (family ++ "_NET_MODE " ++ quote s.netMode ++ " unknown (want dhcp|static)")

def Cluster.addresses (c : Cluster) : List String :=
  c.staticIPs.entries.map (·.2) ++ [c.apiVIP, c.loadBalancerIP].filter (· != "")

def usedAddresses (others : List Cluster) : List String :=
  (others.filter fun c => c.deletedAt.isNone).flatMap Cluster.addresses

def validateSharedHostIP (s : SharedNetSettings) (field ip : String) (used : List String) :
    Except String Unit := do
  let ok ← Netpool.containsIP s.netCIDR ip
  refuseIf (ok = false ∨ ip = s.netGateway) (field ++ " " ++ ip ++
    " is not a usable host address in " ++ s.netCIDR)
  refuseIf (ip ∈ used) (field ++ " " ++ ip ++ " is already in use by another cluster")

def assignAddresses (names ips : List String) : AList fun _ : String => String :=
  (names.zip ips).foldl (fun m p => m.insert p.1 p.2) ∅

/-- Under DHCP the request names the load balancer's address and, if it is needed, the VIP. -/
def admitDHCP (s : SharedNetSettings) (c : Cluster) (requestedVIP requestedLB : String)
    (used : List String) : Except String (String × String) := do
  let lb := trimSpace requestedLB
  refuseIf (lb = "") ("load_balancer_ip is required on " ++ c.infraProvider ++
    " (dhcp mode): pick a free address in " ++ s.netCIDR ++
    " outside the DHCP pool for the default MetalLB pool / Envoy Gateway")
  validateSharedHostIP s "load_balancer_ip" lb used
  if c.ha then do
    let vip := trimSpace requestedVIP
    refuseIf (vip = "") ("api_vip is required for an HA control plane on " ++ c.infraProvider ++
      " (dhcp mode): pick a free address in " ++ s.netCIDR ++ " outside the DHCP pool")
    validateSharedHostIP s "api_vip" vip (lb :: used)
    pure (lb, vip)
  else pure (lb, "")

def admitSharedNetwork (s : SharedNetSettings) (c : Cluster) (requestedVIP requestedLB : String)
    (providerClusters : List Cluster) : Except String Addressing :=
  let used := usedAddresses providerClusters
  let net : Addressing :=
    { networkCIDR := s.netCIDR, networkName := s.network, ipMode := s.netMode }
  if s.netMode = "dhcp" then do
    let given ← admitDHCP s c requestedVIP requestedLB used
    pure { net with loadBalancerIP := given.1, apiVIP := given.2 }
  else if s.netMode = "static" then do
    let names := nodeVMNames c
    -- the load balancer's address and the VIP come from the same range
    let ips ← Netpool.allocateStatic s.netRange s.netCIDR s.netGateway used
      (names.length + 1 + if c.ha then 1 else 0)
    pure { net with
      netGateway := s.netGateway
      netDNS := s.netDNS
      staticIPs := assignAddresses names ips
      loadBalancerIP := ips.getD names.length ""
      apiVIP := if c.ha then ips.getD (names.length + 1) "" else "" }
  else throw ("cluster " ++ c.name ++ " has unknown ip_mode " ++ quote s.netMode)

/-- The network of a KVM cluster, and its addresses in it. -/
def admitKVMNetwork (cfg : Netpool.Settings) (all : List Cluster) (req : CreateRequest) :
    Except String Addressing := do
  let networkCIDR ← Netpool.allocate cfg (clustersOnProvider all providerKVM) req.networkCIDR
  let apiVIP ← (if req.ha then Netpool.vip networkCIDR else pure "")
  let loadBalancerIP ← Netpool.loadBalancerIP networkCIDR
  pure { networkCIDR, apiVIP, loadBalancerIP }

namespace NetworkSettings

variable (N : NetworkSettings) (all : List Cluster)

/-- The part of admission that gives a new cluster its addresses. -/
def addressing (req : CreateRequest) (c : Cluster) : Except String Addressing :=
  match N.sharedNet c.infraProvider with
  | some s => do
    refuseIf (trimSpace req.networkCIDR ≠ "") ("network_cidr cannot be set on " ++
      c.infraProvider ++ " - the node network is deployment configuration (" ++ s.netCIDR ++ ")")
    admitSharedNetwork s c req.apiVIP req.loadBalancerIP (clustersOnProvider all c.infraProvider)
  | none => admitKVMNetwork N.pool all req

/-- What creating a cluster depends on, with the addresses filled in. -/
def creating (req : CreateRequest) (adm : CreateAdmission) : CreateAdmission :=
  { adm with
    addressing := fun c => do
      let net ← N.addressing all req c
      let given ← adm.addressing c
      pure { net with appsDomain := given.appsDomain } }

/-- What editing the cluster `c` depends on, with the addresses filled in. -/
def editing (c : Cluster) (adm : Admission) : Admission :=
  { adm with
    sharedNet := (N.sharedNet c.infraProvider).isSome
    usedIPs := usedAddresses ((clustersOnProvider all c.infraProvider).filter (·.id != c.id))
    allocateStatic := fun used n =>
      match N.sharedNet c.infraProvider with
      | some s => Netpool.allocateStatic s.netRange s.netCIDR s.netGateway used n
      | none => .ok [] }

end NetworkSettings

end KaaS
