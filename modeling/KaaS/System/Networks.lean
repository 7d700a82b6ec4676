import KaaS.System.Estate

/-!
# The networks of KVM clusters stay apart

Whatever is created, with whatever network the request names, edited and deleted: the networks of
the KVM clusters that are not deleted are **pairwise disjoint** and disjoint from the reserved
ranges, and the addresses a cluster has in its network are different hosts of it
(`Installation.networks_apart`).

A network is decided on once, when its cluster is created, against the networks of all KVM
clusters; no later step changes it or brings a deleted cluster back (`Evolves.sameNetwork`).
-/

namespace KaaS

open Inet TransitionSystem

def Cluster.liveOnKVM (c : Cluster) : Bool := c.infraProvider == providerKVM && c.deletedAt.isNone

/-- The networks of two clusters have no address in common. -/
def NetworksApart (c d : Cluster) : Prop :=
  ∀ n o, parseCIDR c.networkCIDR = some n → parseCIDR d.networkCIDR = some o → n.Disjoint o

/-- **The network of a cluster**: a block clear of the reserved ranges, with its addresses. -/
structure OwnNetwork (cfg : Netpool.Settings) (c : Cluster) (reserved : List Net) (b : Block) :
    Prop where
  configured : Netpool.reservedNets cfg = .ok reserved
  text : c.networkCIDR = b.net.text
  one_le : 1 ≤ b.ones
  le_max : b.ones ≤ Netpool.maxPrefix
  clear : ∀ r ∈ reserved, b.net.Disjoint r
  vip : c.ha = true → Netpool.vip c.networkCIDR = .ok c.apiVIP
  loadBalancer : Netpool.loadBalancerIP c.networkCIDR = .ok c.loadBalancerIP

theorem OwnNetwork.parse {cfg : Netpool.Settings} {c : Cluster} {reserved : List Net} {b : Block}
    (h : OwnNetwork cfg c reserved b) : parseCIDR c.networkCIDR = some b.net := by
  rw [h.text, b.parseCIDR_text]

/-! ### What no step changes -/

/-- The network of a cluster and its addresses are as they were, and it has not come back. -/
structure SameNetwork (c c' : Cluster) : Prop where
  provider : c'.infraProvider = c.infraProvider
  networkCIDR : c'.networkCIDR = c.networkCIDR
  ha : c'.ha = c.ha
  apiVIP : c'.apiVIP = c.apiVIP
  loadBalancerIP : c'.loadBalancerIP = c.loadBalancerIP
  live : c'.deletedAt = none → c.deletedAt = none

theorem StaysAsked.sameNetwork {c c' : Cluster} (h : StaysAsked c c') : SameNetwork c c' := by
  refine ⟨h.eq fun _ => rfl, h.eq fun _ => rfl, h.eq fun _ => rfl, h.eq fun _ => rfl,
    h.eq fun _ => rfl, fun hlive => ?_⟩
  by_contra hgone
  have hgone' := h.2 (Option.isSome_iff_ne_none.mpr hgone)
  simp [hlive] at hgone'

theorem Edit.sameNetwork {a : App} {m : Mutation} {c c' : Cluster} (h : Edit a c m c') :
    SameNetwork c c' := by
  cases h <;> exact ⟨rfl, rfl, rfl, rfl, rfl, id⟩

section Steps

variable {ω : Type} {S : Installation ω} {rows : List Cluster} {c c' : Cluster}

theorem Evolves.sameNetwork (h : Evolves S rows c c') : SameNetwork c c' := by
  cases h with
  | edited h => exact (edit_of_apply h).sameNetwork
  | marked => exact ⟨rfl, rfl, rfl, rfl, rfl, id⟩
  | ticked h => exact h.staysAsked.sameNetwork

theorem SameNetwork.liveOnKVM (h : SameNetwork c c') (hlive : c'.liveOnKVM = true) :
    c.liveOnKVM = true := by
  simp only [Cluster.liveOnKVM, Bool.and_eq_true, beq_iff_eq, Option.isNone_iff_eq_none] at *
  exact ⟨h.provider.symm.trans hlive.1, h.live hlive.2⟩

theorem SameNetwork.ownNetwork {cfg : Netpool.Settings} {reserved : List Net} {b : Block}
    (h : SameNetwork c c') (hown : OwnNetwork cfg c reserved b) : OwnNetwork cfg c' reserved b := by
  obtain ⟨hcfg, htext, hone, hmax, hclear, hvip, hlb⟩ := hown
  refine ⟨hcfg, h.networkCIDR.trans htext, hone, hmax, hclear, fun hha => ?_, ?_⟩
  · rw [h.networkCIDR, h.apiVIP]
    exact hvip (h.ha ▸ hha)
  · rw [h.networkCIDR, h.loadBalancerIP]
    exact hlb

/-- **A new KVM cluster** has a network of its own, apart from those of all others. -/
theorem ownNetwork_of_createCluster {adm : CreateAdmission} {req : CreateRequest}
    (h : S.platform.app.createCluster (S.creating rows req adm) req = .ok c)
    (hkvm : c.infraProvider = providerKVM) :
    ∃ reserved b, OwnNetwork S.networks.pool c reserved b ∧
      ∀ n ∈ Netpool.usedNets (clustersOnProvider rows providerKVM), b.net.Disjoint n := by
  obtain ⟨c₀, net, hnet, rfl, -, -, hha, -⟩ := addressed_of_createCluster h
  have hprovider : c₀.infraProvider = providerKVM := hkvm
  have hshared : S.networks.sharedNet c₀.infraProvider = none := by
    rw [hprovider]
    rfl
  simp only [Installation.creating, NetworkSettings.creating, NetworkSettings.addressing, hshared,
    admitKVMNetwork, Guard.bind_eq_ok, Guard.pure_eq_ok] at hnet
  obtain ⟨-, ⟨cidr, hcidr, vip, hvip, lb, hlb, rfl⟩, given, -, rfl⟩ := hnet
  obtain ⟨reserved, b, hreserved, hb, rfl⟩ := Netpool.exists_block_of_allocate hcidr
  refine ⟨reserved, b, ⟨hreserved, rfl, hb.one_le, hb.le_max, hb.clear, fun hc => ?_, hlb⟩, hb.free⟩
  have hreq : req.ha = true := hha.symm.trans hc
  rw [if_pos hreq] at hvip
  exact hvip

structure NetworksInv (S : Installation ω) (rows : List Cluster) : Prop where
  ids : (rows.map (·.id)).Nodup
  own : ∀ c ∈ rows, c.liveOnKVM = true → ∃ reserved b, OwnNetwork S.networks.pool c reserved b
  apart : rows.Pairwise fun c d =>
    c.liveOnKVM = true → d.liveOnKVM = true → NetworksApart c d

private theorem mem_usedNets {d : Cluster} {n : Net} (hd : d ∈ rows) (hlive : d.liveOnKVM = true)
    (hn : parseCIDR d.networkCIDR = some n) :
    n ∈ Netpool.usedNets (clustersOnProvider rows providerKVM) := by
  simp only [Cluster.liveOnKVM, Bool.and_eq_true] at hlive
  refine List.mem_filterMap.mpr ⟨d, List.mem_filter.mpr ⟨List.mem_filter.mpr ⟨hd, hlive.1⟩, ?_⟩, hn⟩
  -- the empty text is no network
  have hne : d.networkCIDR ≠ "" := by
    intro hempty
    have hnone : parseCIDR "" = none := by decide
    simp [hempty, hnone] at hn
  simp [hlive.2, hne]

theorem NetworksInv.step (h : NetworksInv S rows) {i : EstateInput} {rows' : List Cluster}
    (hstep : RowsStep S rows i rows') : NetworksInv S rows' := by
  refine ⟨hstep.nodup_ids h.ids, ?_, ?_⟩
  · cases hstep with
    | same => exact h.own
    | created hi hid hcreate =>
      intro d hd hlive
      rcases List.mem_append.mp hd with hd | hd
      · exact h.own d hd hlive
      · obtain rfl := List.mem_singleton.mp hd
        simp only [Cluster.liveOnKVM, Bool.and_eq_true, beq_iff_eq] at hlive
        obtain ⟨reserved, b, hown, -⟩ := ownNetwork_of_createCluster hcreate hlive.1
        exact ⟨reserved, b, hown⟩
    | @evolved c c' hc hev =>
      intro d hd hlive
      have hid : c'.id ∈ rows.map (·.id) :=
        List.mem_map.mpr ⟨c, hc, hev.sameIdentity.id.symm⟩
      rcases (Keyed.mem_put hid).mp hd with rfl | ⟨hd, -⟩
      · obtain ⟨reserved, b, hown⟩ := h.own c hc (hev.sameNetwork.liveOnKVM hlive)
        exact ⟨reserved, b, hev.sameNetwork.ownNetwork hown⟩
      · exact h.own d hd hlive
  · refine hstep.pairwise h.ids h.apart ?_ ?_ ?_
    · intro adm req c hi hcreate d hd hdlive hclive n o hn ho
      simp only [Cluster.liveOnKVM, Bool.and_eq_true, beq_iff_eq] at hclive
      obtain ⟨reserved, b, hown, hfree⟩ := ownNetwork_of_createCluster hcreate hclive.1
      obtain rfl : b.net = o := Option.some.inj (hown.parse.symm.trans ho)
      exact (hfree n (mem_usedNets hd hdlive hn)).symm
    · intro c hc c' d hev hd hne hapart hclive hdlive n o hn ho
      rw [hev.sameNetwork.networkCIDR] at hn
      exact hapart (hev.sameNetwork.liveOnKVM hclive) hdlive n o hn ho
    · intro c hc c' d hev hd hne hapart hdlive hclive n o hn ho
      rw [hev.sameNetwork.networkCIDR] at ho
      exact hapart hdlive (hev.sameNetwork.liveOnKVM hclive) n o hn ho

end Steps

/-! ### The result -/

/-- **Networks stay apart.** After any sequence of calls and ticks, the networks of the live KVM
clusters are pairwise disjoint and clear of every reserved range, and the gateway, the VIP and the
load balancer's address of each are three different hosts of its network. -/
theorem Installation.networks_apart {ω : Type} (S : Installation ω) (w : ω)
    (is : List EstateInput) :
    (((S.run w is).rows.filter Cluster.liveOnKVM).Pairwise NetworksApart) ∧
    ∀ c ∈ (S.run w is).rows.filter Cluster.liveOnKVM, ∃ reserved n base v l,
      Netpool.reservedNets S.networks.pool = .ok reserved ∧
      parseCIDR c.networkCIDR = some n ∧ (∀ r ∈ reserved, n.Disjoint r) ∧
      to4 n.ip = some base ∧ Netpool.gateway c.networkCIDR = .ok (dotted (base + 1)) ∧
      Netpool.vip c.networkCIDR = .ok (dotted v) ∧ (c.ha = true → c.apiVIP = dotted v) ∧
      c.loadBalancerIP = dotted l ∧ n.Host (base + 1) ∧ n.Host v ∧ n.Host l ∧
      base + 1 ≠ v ∧ base + 1 ≠ l ∧ v ≠ l := by
  have hinv : NetworksInv S (S.run w is).rows := by
    refine run_preserves (I := fun s : Estate ω => NetworksInv S s.rows) ?_ ?_ is
    · exact fun s i h => h.step (rowsStep S s i)
    · exact ⟨List.nodup_nil, by simp, List.Pairwise.nil⟩
  refine ⟨?_, fun c hc => ?_⟩
  · refine List.pairwise_filter.mpr (hinv.apart.imp fun hapart hc hd => hapart hc hd)
  · obtain ⟨hmem, hlive⟩ := List.mem_filter.mp hc
    obtain ⟨reserved, b, hown⟩ := hinv.own c hmem hlive
    obtain ⟨v, l, hgateway, hvip, hlb, hhosts⟩ := Netpool.hosts_of_block hown.one_le hown.le_max
    rw [← hown.text] at hgateway hvip hlb
    refine ⟨reserved, b.net, b.base, v, l, hown.configured, hown.parse, hown.clear, b.to4_net,
      hgateway, hvip, fun hha => ?_, ?_, hhosts⟩
    · exact Except.ok.inj ((hown.vip hha).symm.trans hvip)
    · exact Except.ok.inj (hown.loadBalancer.symm.trans hlb)

end KaaS
