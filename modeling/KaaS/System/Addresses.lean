import KaaS.System.Networks
import Mathlib.Data.List.GetD

/-!
# Addresses on a shared network are different

The addresses recorded on the live clusters of a shared-network provider are decided at three
places: under DHCP the request names them, in static mode they are allocated, and a pool edit
allocates some more. Each place compares **texts** with the texts in use. An IPv4 address has
further texts in the IPv6 form, and a request may use them: two clusters are then given one
address (`two_texts_of_one_address`).

Dotted decimal has one text per address. Where requests and the configured gateway use no colon,
all recorded addresses are **pairwise different** hosts of the network and none is the gateway
(`Installation.addresses_distinct`).
-/

namespace KaaS

open Text Guard Inet TransitionSystem

/-! ### Texts of hosts -/

/-- The dotted decimal text of a host of the shared network, and not that of the gateway. -/
def SharedNetSettings.HostText (s : SharedNetSettings) (ip : String) : Prop :=
  ∃ n, parseCIDR s.netCIDR = some n ∧ ∃ v < 2 ^ 32, n.Host v ∧ ip = dotted v ∧ ip ≠ s.netGateway

theorem SharedNetSettings.HostText.ne_empty {s : SharedNetSettings} {ip : String}
    (h : s.HostText ip) : ip ≠ "" := by
  obtain ⟨-, -, v, -, -, rfl, -⟩ := h
  exact dotted_ne_empty v

section Texts

variable {s : SharedNetSettings} {used out : List String} {k : ℕ}

private theorem hostText_of_allocateStatic
    (h : Netpool.allocateStatic s.netRange s.netCIDR s.netGateway used k = .ok out) :
    out.length = k ∧ out.Nodup ∧ ∀ ip ∈ out, s.HostText ip ∧ ip ∉ used := by
  obtain ⟨hlen, hnodup, n, hn, hout⟩ := Netpool.hosts_of_allocateStatic h
  refine ⟨hlen, hnodup, fun ip hip => ?_⟩
  obtain ⟨⟨v, hv, hhost, htext⟩, hfree, hgateway⟩ := hout ip hip
  exact ⟨⟨n, hn, v, hv, hhost, htext, hgateway⟩, hfree⟩

private theorem hostText_of_validateSharedHostIP {field requested : String}
    (hcolon : ':' ∉ requested.toList)
    (h : validateSharedHostIP s field (trimSpace requested) used = .ok ()) :
    s.HostText (trimSpace requested) ∧ trimSpace requested ∉ used := by
  simp only [validateSharedHostIP, bind_eq_ok, refuseIf_eq_ok, not_or, Bool.not_eq_false] at h
  obtain ⟨ok, hok, -, ⟨rfl, hgateway⟩, hfree⟩ := h
  obtain ⟨n, v, hn, hip, -, hhost⟩ := Netpool.host_of_containsIP hok
  rw [trimSpace_trimSpace] at hip
  obtain ⟨v', hlt, hv, htext⟩ := eq_dotted_of_parseIP (fun hmem => hcolon (mem_trimSpace hmem)) hip
  obtain rfl := ofV4_inj.mp hv
  exact ⟨⟨n, hn, v, hlt, hhost, htext, hgateway⟩, hfree⟩

end Texts

/-! ### A new cluster -/

private abbrev values (m : AList fun _ : String => String) : List String := m.entries.map (·.2)

/-- **What is recorded on a row** of the provider: different texts of hosts, one for each machine
in static mode. -/
structure Recorded (s : SharedNetSettings) (c : Cluster) : Prop where
  mode : c.ipMode = s.netMode
  pools : PoolNames c.nodePools
  named : c.ipMode = "static" → ∀ name ∈ nodeVMNames c, (c.staticIPs.lookup name).isSome
  nodup : c.addresses.Nodup
  hosts : ∀ ip ∈ c.addresses, s.HostText ip

section Create

variable {s : SharedNetSettings} {c : Cluster} {net : Addressing} {used : List String}

private theorem map_snd_zip_eq_take {α β : Type} (l : List α) (l' : List β) :
    (l.zip l').map Prod.snd = l'.take l.length := by
  induction l generalizing l' with
  | nil => rfl
  | cons a l ih => cases l' <;> simp [ih]

private theorem perm_values_foldl {l : List (String × String)} (hkeys : (l.map Prod.fst).Nodup) :
    (values (l.foldl (fun m p => m.insert p.1 p.2) ∅)).Perm (l.map Prod.snd) := by
  have hnew : ∀ p ∈ l, p.1 ∉ (∅ : AList fun _ : String => String) :=
    fun _ _ => AList.notMem_empty _
  refine (AList.perm_entries_foldl_insert hkeys hnew).trans ?_
  rw [AList.empty_entries, List.map_nil, List.append_nil]

private theorem values_assignAddresses {names ips : List String} (hnames : names.Nodup)
    (hlen : names.length ≤ ips.length) :
    (values (assignAddresses names ips)).Perm (ips.take names.length) := by
  have hkeys : ((names.zip ips).map Prod.fst).Nodup := by
    rw [List.map_fst_zip hlen]
    exact hnames
  rw [← map_snd_zip_eq_take]
  exact perm_values_foldl hkeys

private theorem lookup_assignAddresses {names ips : List String}
    (hlen : names.length ≤ ips.length) {name : String} (hname : name ∈ names) :
    ((assignAddresses names ips).lookup name).isSome := by
  refine AList.lookup_isSome.mpr ((AList.mem_foldl_insert).mpr (.inl ?_))
  rw [List.map_fst_zip hlen]
  exact hname

/-- In static mode, one address goes to each machine, the next to the load balancer, and the one
after that to the VIP. -/
private theorem perm_fixed {ips : List String} {k : ℕ} {ha : Bool}
    (hlen : ips.length = k + 1 + if ha then 1 else 0) (hne : ∀ ip ∈ ips, ip ≠ "") :
    ([if ha then ips.getD (k + 1) "" else "", ips.getD k ""].filter (· != "")).Perm
      (ips.drop k) := by
  have hmem (i : ℕ) (hi : i < ips.length) : ips.getD i "" ≠ "" := by
    rw [List.getD_eq_getElem _ _ hi]
    exact hne _ (List.getElem_mem hi)
  have hdrop : ips.drop k = ips.getD k "" :: ips.drop (k + 1) := by
    have hk : k < ips.length := by omega
    rw [List.drop_eq_getElem_cons hk, List.getD_eq_getElem _ _ hk]
  have hk := hmem k (by omega)
  cases ha with
  | false =>
    simp only [Bool.false_eq_true, if_false] at hlen ⊢
    rw [hdrop, List.drop_eq_nil_of_le (by omega)]
    simp only [List.filter_cons, bne_self_eq_false, Bool.false_eq_true, if_false, bne_iff_ne,
      ne_eq, hk, not_false_eq_true, if_true, List.filter_nil]
    exact List.Perm.refl _
  | true =>
    simp only [if_true] at hlen ⊢
    have hdrop' : ips.drop (k + 1) = [ips.getD (k + 1) ""] := by
      have hk' : k + 1 < ips.length := by omega
      rw [List.drop_eq_getElem_cons hk', List.getD_eq_getElem _ _ hk',
        List.drop_eq_nil_of_le (by omega)]
    have hk' := hmem (k + 1) (by omega)
    rw [hdrop, hdrop']
    simp only [List.filter_cons, bne_iff_ne, ne_eq, hk, hk', not_false_eq_true, if_true,
      List.filter_nil]
    exact List.Perm.swap _ _ _

/-- The texts a new cluster is given. -/
private def texts (net : Addressing) : List String :=
  values net.staticIPs ++ [net.apiVIP, net.loadBalancerIP].filter (· != "")

private theorem texts_of_admitDHCP {vip lb : String} {given : String × String}
    (hvip : ':' ∉ vip.toList) (hlb : ':' ∉ lb.toList)
    (h : admitDHCP s c vip lb used = .ok given) :
    ([given.2, given.1].filter (· != "")).Nodup ∧
      ∀ ip ∈ [given.2, given.1].filter (· != ""), s.HostText ip ∧ ip ∉ used := by
  simp only [admitDHCP, bind_eq_ok] at h
  obtain ⟨-, -, ⟨⟩, hvalid, h⟩ := h
  obtain ⟨hhost, hfree⟩ := hostText_of_validateSharedHostIP hlb hvalid
  have hne := hhost.ne_empty
  split at h
  · simp only [bind_eq_ok, pure_eq_ok] at h
    obtain ⟨-, -, ⟨⟩, hvalid', rfl⟩ := h
    obtain ⟨hhost', hfree'⟩ := hostText_of_validateSharedHostIP hvip hvalid'
    rw [List.mem_cons, not_or] at hfree'
    have hboth : [trimSpace vip, trimSpace lb].filter (· != "") =
        [trimSpace vip, trimSpace lb] := by
      simp [hne, hhost'.ne_empty]
    rw [hboth]
    exact ⟨List.nodup_cons.mpr ⟨by simpa using hfree'.1, List.nodup_singleton _⟩,
      List.forall_mem_cons.mpr ⟨⟨hhost', hfree'.2⟩, List.forall_mem_singleton.mpr ⟨hhost, hfree⟩⟩⟩
  · rw [pure_eq_ok] at h
    subst h
    have hone : ["", trimSpace lb].filter (· != "") = [trimSpace lb] := by simp [hne]
    rw [hone]
    exact ⟨List.nodup_singleton _, List.forall_mem_singleton.mpr ⟨hhost, hfree⟩⟩

private theorem texts_of_admitSharedNetwork {vip lb : String} {others : List Cluster}
    (hpools : PoolNames c.nodePools) (hvip : ':' ∉ vip.toList) (hlb : ':' ∉ lb.toList)
    (h : admitSharedNetwork s c vip lb others = .ok net) :
    net.ipMode = s.netMode ∧
      (net.ipMode = "static" → ∀ name ∈ nodeVMNames c, (net.staticIPs.lookup name).isSome) ∧
      (texts net).Nodup ∧ ∀ ip ∈ texts net, s.HostText ip ∧ ip ∉ usedAddresses others := by
  unfold admitSharedNetwork at h
  split at h
  · rename_i hmode
    simp only [bind_eq_ok, pure_eq_ok] at h
    obtain ⟨given, hgiven, rfl⟩ := h
    refine ⟨rfl, fun hstatic => ?_, texts_of_admitDHCP hvip hlb hgiven⟩
    exact absurd (hmode.symm.trans hstatic) (by decide)
  · split at h
    · simp only [bind_eq_ok, pure_eq_ok] at h
      obtain ⟨ips, hips, rfl⟩ := h
      obtain ⟨hlen, hnodup, hhosts⟩ := hostText_of_allocateStatic hips
      have hcount : (nodeVMNames c).length ≤ ips.length := by omega
      have hvalues := values_assignAddresses (nodup_nodeVMNames hpools) hcount
      have hfixed := perm_fixed hlen fun ip hip => (hhosts ip hip).1.ne_empty
      have hperm := hvalues.append hfixed
      rw [List.take_append_drop] at hperm
      exact ⟨rfl, fun _ name hname => lookup_assignAddresses (by omega) hname,
        hperm.nodup_iff.mpr hnodup, fun ip hip => hhosts ip (hperm.mem_iff.mp hip)⟩
    · simp only [throw_eq_ok] at h

/-- **A new cluster on a shared network** is recorded with texts that were not in use. -/
theorem recorded_of_admitSharedNetwork {vip lb apps : String} {others : List Cluster}
    (hpools : PoolNames c.nodePools) (hvip : ':' ∉ vip.toList) (hlb : ':' ∉ lb.toList)
    (h : admitSharedNetwork s c vip lb others = .ok net) :
    Recorded s (c.addressed { net with appsDomain := apps }) ∧
      ∀ ip ∈ (c.addressed { net with appsDomain := apps }).addresses,
        ip ∉ usedAddresses others := by
  obtain ⟨hmode, hnamed, hnodup, htexts⟩ := texts_of_admitSharedNetwork hpools hvip hlb h
  exact ⟨⟨hmode, hpools, hnamed, hnodup, fun ip hip => (htexts ip hip).1⟩,
    fun ip hip => (htexts ip hip).2⟩

end Create

/-! ### Allocation for the machines of a cluster -/

section Scale

variable {adm : Admission} {c : Cluster} {ips : AList fun _ : String => String}

/-- The desired machines that have an address, with it. -/
private def keptAddresses (c : Cluster) : List (String × String) :=
  (nodeVMNames c).filterMap fun n => (c.staticIPs.lookup n).map fun ip => (n, ip)

private def unaddressed (c : Cluster) : List String :=
  (nodeVMNames c).filter fun n => (c.staticIPs.lookup n).isNone

private theorem mem_keptAddresses {p : String × String} :
    p ∈ keptAddresses c ↔ p.1 ∈ nodeVMNames c ∧ c.staticIPs.lookup p.1 = some p.2 := by
  simp only [keptAddresses, List.mem_filterMap, Option.map_eq_some_iff]
  constructor
  · rintro ⟨n, hn, ip, hip, rfl⟩
    exact ⟨hn, hip⟩
  · rintro ⟨hn, hip⟩
    exact ⟨p.1, hn, p.2, hip, rfl⟩

/-- **What an edit of the pools leaves**: the addresses of the machines that stay, and allocated
ones for the others. -/
private theorem scaleSharedStaticIPs_ok (h : scaleSharedStaticIPs adm c = .ok ips) :
    (adm.sharedNet = true → c.ipMode ≠ "static") ∧ ips = c.staticIPs ∨
    c.ipMode = "static" ∧ ∃ fresh, (unaddressed c = [] ∧ fresh = [] ∨
        adm.allocateStatic (adm.usedIPs ++ [c.apiVIP, c.loadBalancerIP].filter (· != "") ++
          (keptAddresses c).map (·.2)) (unaddressed c).length = .ok fresh) ∧
      ips = (keptAddresses c ++ (unaddressed c).zip fresh).foldl
        (fun m p => m.insert p.1 p.2) ∅ := by
  unfold scaleSharedStaticIPs at h
  split at h
  · rename_i hcond
    rw [pure_eq_ok] at h
    refine .inl ⟨fun hshared => ?_, h.symm⟩
    simpa [hshared] using hcond
  · rename_i hcond
    have hstatic : adm.sharedNet = true ∧ c.ipMode = "static" := by simpa using hcond
    refine .inr ⟨hstatic.2, ?_⟩
    simp only at h
    split at h
    · rename_i hnone
      simp only [bind_eq_ok, pure_eq_ok] at h
      obtain ⟨_, rfl, rfl⟩ := h
      exact ⟨[], .inl ⟨hnone, rfl⟩, rfl⟩
    · simp only [bind_eq_ok, pure_eq_ok] at h
      obtain ⟨fresh, hfresh, rfl⟩ := h
      exact ⟨fresh, .inr hfresh, rfl⟩

/-- **A machine that stays keeps its address.** -/
theorem lookup_of_scaleSharedStaticIPs (h : scaleSharedStaticIPs adm c = .ok ips)
    {name ip : String} (hname : name ∈ nodeVMNames c) (hip : c.staticIPs.lookup name = some ip) :
    ips.lookup name = some ip := by
  rcases scaleSharedStaticIPs_ok h with ⟨-, rfl⟩ | ⟨-, fresh, -, rfl⟩
  · exact hip
  · have hkept : (name, ip) ∈ keptAddresses c ++ (unaddressed c).zip fresh :=
      List.mem_append_left _ (mem_keptAddresses.mpr ⟨hname, hip⟩)
    refine @AList.lookup_foldl_insert String _ _ _ Prod.fst Prod.snd _ _ hkept
      (fun p hp hkey => ?_) ∅
    rcases List.mem_append.mp hp with hp | hp
    · have hlookup := (mem_keptAddresses.mp hp).2
      rw [hkey, hip] at hlookup
      exact (Option.some.inj hlookup).symm
    · -- the others have no address
      have hnone := (List.mem_filter.mp (List.of_mem_zip hp).1).2
      rw [hkey, hip] at hnone
      simp at hnone

private theorem values_mem_of_lookup {m : AList fun _ : String => String} {name ip : String}
    (h : m.lookup name = some ip) : ip ∈ values m :=
  List.mem_map.mpr ⟨⟨name, ip⟩, AList.mem_lookup_iff.mp h, rfl⟩

private theorem nodup_keptAddresses (hnames : (nodeVMNames c).Nodup)
    (hvalues : (values c.staticIPs).Nodup) : ((keptAddresses c).map (·.2)).Nodup := by
  have heq : (keptAddresses c).map (·.2) = (nodeVMNames c).filterMap c.staticIPs.lookup := by
    rw [keptAddresses, List.map_filterMap]
    refine List.filterMap_congr fun n _ => ?_
    cases c.staticIPs.lookup n <;> rfl
  rw [heq]
  refine hnames.filterMap fun n n' ip hn hn' => ?_
  have hentries := List.inj_on_of_nodup_map hvalues (AList.mem_lookup_iff.mp hn)
    (AList.mem_lookup_iff.mp hn') rfl
  exact (Sigma.mk.inj_iff.mp hentries).1

private theorem nodup_keys (hnames : (nodeVMNames c).Nodup) {fresh : List String}
    (hlen : fresh.length = (unaddressed c).length) :
    ((keptAddresses c ++ (unaddressed c).zip fresh).map Prod.fst).Nodup := by
  have hkept : (keptAddresses c).map Prod.fst =
      (nodeVMNames c).filter fun n => (c.staticIPs.lookup n).isSome := by
    rw [keptAddresses, List.map_filterMap, ← List.filterMap_eq_filter]
    refine List.filterMap_congr fun n _ => ?_
    cases hn : c.staticIPs.lookup n <;> simp [Option.guard, hn]
  rw [List.map_append, List.map_fst_zip hlen.ge, hkept]
  refine List.nodup_append.mpr ⟨hnames.filter _, hnames.filter _, ?_⟩
  rintro n hn n' hn' rfl
  have hsome := (List.mem_filter.mp hn).2
  have hnone := (List.mem_filter.mp hn').2
  rw [Option.isNone_iff_eq_none] at hnone
  simp [hnone] at hsome

private theorem values_of_scale (hnames : (nodeVMNames c).Nodup) {fresh : List String}
    (hlen : fresh.length = (unaddressed c).length) :
    (values ((keptAddresses c ++ (unaddressed c).zip fresh).foldl
      (fun m p => m.insert p.1 p.2) ∅)).Perm ((keptAddresses c).map (·.2) ++ fresh) := by
  have hperm := perm_values_foldl (nodup_keys hnames hlen)
  rwa [List.map_append, map_snd_zip_eq_take, List.take_of_length_le hlen.le] at hperm

private theorem lookup_isSome_of_scale {fresh : List String}
    (hlen : fresh.length = (unaddressed c).length) {name : String} (hname : name ∈ nodeVMNames c) :
    (((keptAddresses c ++ (unaddressed c).zip fresh).foldl
      (fun m p => m.insert p.1 p.2) (∅ : AList fun _ : String => String)).lookup name).isSome := by
  refine AList.lookup_isSome.mpr ((AList.mem_foldl_insert).mpr (.inl ?_))
  rw [List.map_append, List.map_fst_zip hlen.ge, List.mem_append]
  cases hip : c.staticIPs.lookup name with
  | some ip => exact .inl (List.mem_map.mpr ⟨(name, ip), mem_keptAddresses.mpr ⟨hname, hip⟩, rfl⟩)
  | none => exact .inr (List.mem_filter.mpr ⟨hname, by simp [hip]⟩)

end Scale

/-! ### What an edit leaves -/

section Edit

variable {ω : Type} {S : Installation ω} {rows : List Cluster} {s : SharedNetSettings}
  {adm : Admission} {m : Mutation} {c c' : Cluster}

private theorem edit_keeps (h : Edit S.platform.app c m c') :
    c'.ipMode = c.ipMode ∧ c'.apiVIP = c.apiVIP ∧ c'.loadBalancerIP = c.loadBalancerIP ∧
      nodeVMNames (c.candidate c') = nodeVMNames c' := by
  cases h <;> exact ⟨rfl, rfl, rfl, rfl⟩

/-- The addresses of the other live clusters of the provider. -/
private abbrev othersAddresses (rows : List Cluster) (c : Cluster) : List String :=
  usedAddresses ((clustersOnProvider rows c.infraProvider).filter (·.id != c.id))

private theorem fresh_of_editing {fresh used : List String} {k : ℕ}
    (hs : S.networks.sharedNet c.infraProvider = some s)
    (h : (S.editing rows c adm).allocateStatic used k = .ok fresh) :
    fresh.length = k ∧ fresh.Nodup ∧ ∀ ip ∈ fresh, s.HostText ip ∧ ip ∉ used := by
  simp only [Installation.editing, NetworkSettings.editing, hs] at h
  exact hostText_of_allocateStatic h

private theorem nodup_scaled {kept fresh fixed old : List String} (hold : (old ++ fixed).Nodup)
    (hkept : kept.Nodup) (hsub : ∀ ip ∈ kept, ip ∈ old) (hfresh : fresh.Nodup)
    (hfree : ∀ ip ∈ fresh, ip ∉ fixed ++ kept) : (kept ++ fresh ++ fixed).Nodup := by
  obtain ⟨-, hfixed, hapart⟩ := List.nodup_append.mp hold
  refine List.nodup_append.mpr ⟨List.nodup_append.mpr ⟨hkept, hfresh, ?_⟩, hfixed, ?_⟩
  · rintro ip hip _ hip' rfl
    exact hfree ip hip' (List.mem_append_right _ hip)
  · rintro ip hip _ hip' rfl
    rcases List.mem_append.mp hip with hip | hip
    · exact hapart ip (hsub ip hip) ip hip' rfl
    · exact hfree ip hip (List.mem_append_left _ hip')

/-- **An edit of the pools** keeps the row recorded; a text it adds is not in use by others. -/
private theorem recorded_of_scale (hrec : Recorded s c) (hpools : PoolNames c'.nodePools)
    (hs : S.networks.sharedNet c.infraProvider = some s)
    (hedit : Edit S.platform.app c m c')
    (hips : scaleSharedStaticIPs (S.editing rows c adm) (c.candidate c') = .ok c'.staticIPs) :
    Recorded s c' ∧ ∀ ip ∈ c'.addresses, ip ∈ c.addresses ∨ ip ∉ othersAddresses rows c := by
  obtain ⟨hmode, hvip, hlb, hvm⟩ := edit_keeps hedit
  have haddresses : c'.addresses = values c'.staticIPs ++
      [c.apiVIP, c.loadBalancerIP].filter (· != "") := by
    rw [Cluster.addresses, hvip, hlb]
  rcases scaleSharedStaticIPs_ok hips with ⟨hdhcp, hsame⟩ | ⟨-, fresh, hfresh, hnew⟩
  · have hshared : (S.editing rows c adm).sharedNet = true := by
      simp [Installation.editing, NetworkSettings.editing, hs]
    have hsame : c'.addresses = c.addresses := by rw [haddresses, hsame]; rfl
    refine ⟨⟨hmode.trans hrec.mode, hpools, fun hstatic => ?_, hsame ▸ hrec.nodup,
      hsame ▸ hrec.hosts⟩, fun ip hip => .inl (hsame ▸ hip)⟩
    exact absurd (hmode.symm.trans hstatic) (hdhcp hshared)
  · have hcnames : (nodeVMNames (c.candidate c')).Nodup := hvm ▸ nodup_nodeVMNames hpools
    obtain ⟨hlen, hnodup, hfree⟩ : fresh.length = (unaddressed (c.candidate c')).length ∧
        fresh.Nodup ∧ ∀ ip ∈ fresh, s.HostText ip ∧
          ip ∉ othersAddresses rows c ++ [c.apiVIP, c.loadBalancerIP].filter (· != "") ++
            (keptAddresses (c.candidate c')).map (·.2) := by
      rcases hfresh with ⟨hnone, rfl⟩ | hfresh
      · exact ⟨by rw [hnone], List.nodup_nil, by simp⟩
      · exact fresh_of_editing hs hfresh
    have hkept : ∀ ip ∈ (keptAddresses (c.candidate c')).map (·.2), ip ∈ values c.staticIPs := by
      intro ip hip
      obtain ⟨p, hp, rfl⟩ := List.mem_map.mp hip
      exact values_mem_of_lookup (mem_keptAddresses.mp hp).2
    have hperm : c'.addresses.Perm ((keptAddresses (c.candidate c')).map (·.2) ++ fresh ++
        [c.apiVIP, c.loadBalancerIP].filter (· != "")) := by
      rw [haddresses, hnew]
      exact (values_of_scale hcnames hlen).append_right _
    have hcases : ∀ ip ∈ c'.addresses, ip ∈ c.addresses ∨
        s.HostText ip ∧ ip ∉ othersAddresses rows c := by
      intro ip hip
      rcases List.mem_append.mp (hperm.mem_iff.mp hip) with hip | hip
      · rcases List.mem_append.mp hip with hip | hip
        · exact .inl (List.mem_append_left _ (hkept ip hip))
        · obtain ⟨hhost, hunused⟩ := hfree ip hip
          exact .inr ⟨hhost, fun hused => hunused
            (List.mem_append_left _ (List.mem_append_left _ hused))⟩
      · exact .inl (List.mem_append_right _ hip)
    refine ⟨⟨hmode.trans hrec.mode, hpools, fun _ name hname => ?_, ?_, fun ip hip => ?_⟩,
      fun ip hip => (hcases ip hip).imp_right (·.2)⟩
    · rw [hnew]
      exact lookup_isSome_of_scale hlen (hvm ▸ hname)
    · refine hperm.nodup_iff.mpr (nodup_scaled hrec.nodup ?_ hkept hnodup fun ip hip hused => ?_)
      · exact nodup_keptAddresses hcnames (List.nodup_append.mp hrec.nodup).1
      · refine (hfree ip hip).2 ?_
        rw [List.append_assoc]
        exact List.mem_append_right _ hused
    · exact (hcases ip hip).elim (hrec.hosts ip) (·.1)

private theorem Recorded.of_same (hrec : Recorded s c) (hedit : Edit S.platform.app c m c')
    (hpools : c'.nodePools = c.nodePools) (hips : c'.staticIPs = c.staticIPs) :
    Recorded s c' ∧ c'.addresses = c.addresses := by
  obtain ⟨hmode, hvip, hlb, hnames⟩ := edit_keeps hedit
  have haddresses : c'.addresses = c.addresses := by
    rw [Cluster.addresses, hvip, hlb, hips]
    rfl
  have hvm : nodeVMNames c' = nodeVMNames c := by
    rw [← hnames, Cluster.candidate, hpools]
    rfl
  refine ⟨⟨hmode.trans hrec.mode, hpools ▸ hrec.pools, fun hstatic => ?_, haddresses ▸ hrec.nodup,
    haddresses ▸ hrec.hosts⟩, haddresses⟩
  rw [hvm, hips]
  exact hrec.named (hmode.symm.trans hstatic)

/-- **An accepted mutation** keeps the row recorded; a text it adds is not in use by others. -/
private theorem Recorded.edited (hrec : Recorded s c)
    (hs : S.networks.sharedNet c.infraProvider = some s)
    (h : S.platform.app.apply (S.editing rows c adm) m c = .ok (some c')) :
    Recorded s c' ∧ ∀ ip ∈ c'.addresses, ip ∈ c.addresses ∨ ip ∉ othersAddresses rows c := by
  have hedit := edit_of_apply h
  have hsame (hpools : c'.nodePools = c.nodePools) (hips : c'.staticIPs = c.staticIPs) :
      Recorded s c' ∧ ∀ ip ∈ c'.addresses, ip ∈ c.addresses ∨ ip ∉ othersAddresses rows c := by
    obtain ⟨hrec', haddresses⟩ := hrec.of_same hedit hpools hips
    exact ⟨hrec', fun ip hip => .inl (haddresses ▸ hip)⟩
  cases charge_of_apply h with
  | nothing hpools hips hdisks => exact hsame hpools hips
  | pools hadm howner hcapacity hips =>
    exact recorded_of_scale hrec (hedit.poolNames hrec.pools) hs hedit hips
  | disks hpools hips howner hcapacity => exact hsame hpools hips

private theorem Recorded.keeps (hrec : Recorded s c)
    (h : S.platform.app.apply (S.editing rows c adm) m c = .ok (some c')) {name : String}
    (hname : name ∈ nodeVMNames c) (hname' : name ∈ nodeVMNames c') :
    c'.staticIPs.lookup name = c.staticIPs.lookup name := by
  obtain ⟨-, -, -, hnames⟩ := edit_keeps (edit_of_apply h)
  cases charge_of_apply h with
  | nothing hpools hips hdisks => rw [hips]
  | disks hpools hips howner hcapacity => rw [hips]
  | pools hadm howner hcapacity hips =>
    cases hip : c.staticIPs.lookup name with
    | some ip =>
      have hcandidate : name ∈ nodeVMNames (c.candidate c') := hnames ▸ hname'
      exact lookup_of_scaleSharedStaticIPs hips hcandidate hip
    | none =>
      -- in static mode the machine has an address, and otherwise none is given
      rcases scaleSharedStaticIPs_ok hips with ⟨-, hsame⟩ | ⟨hstatic, -⟩
      · rw [hsame]
        exact hip
      · have hsome := hrec.named hstatic name hname
        simp [hip] at hsome

end Edit

/-! ### All rows -/

section Rows

variable {ω : Type} {S : Installation ω} {p : String} {s : SharedNetSettings}
  {rows : List Cluster} {c c' : Cluster}

def Cluster.liveOn (p : String) (c : Cluster) : Bool :=
  c.infraProvider == p && c.deletedAt.isNone

/-- The addresses recorded on the live clusters of the provider. -/
def recordedOn (rows : List Cluster) (p : String) : List String :=
  usedAddresses (clustersOnProvider rows p)

private theorem mem_recordedOn {ip : String} {d : Cluster} (hd : d ∈ rows)
    (hlive : d.liveOn p = true) (hip : ip ∈ d.addresses) : ip ∈ recordedOn rows p := by
  simp only [Cluster.liveOn, Bool.and_eq_true] at hlive
  exact List.mem_flatMap.mpr ⟨d, List.mem_filter.mpr ⟨List.mem_filter.mpr ⟨hd, hlive.1⟩,
    hlive.2⟩, hip⟩

private theorem mem_othersAddresses {ip : String} {d : Cluster} (hd : d ∈ rows)
    (hlive : d.liveOn p = true) (hc : c.infraProvider = p) (hne : d.id ≠ c.id)
    (hip : ip ∈ d.addresses) : ip ∈ othersAddresses rows c := by
  simp only [Cluster.liveOn, Bool.and_eq_true] at hlive
  refine List.mem_flatMap.mpr ⟨d, List.mem_filter.mpr ⟨List.mem_filter.mpr ⟨List.mem_filter.mpr
    ⟨hd, hc ▸ hlive.1⟩, ?_⟩, hlive.2⟩, hip⟩
  simpa using hne

private theorem StaysAsked.recorded (h : StaysAsked c c') (hrec : Recorded s c) :
    Recorded s c' ∧ c'.addresses = c.addresses := by
  have haddresses : c'.addresses = c.addresses := h.eq fun _ => rfl
  have hmode : c'.ipMode = c.ipMode := h.eq fun _ => rfl
  have hips : c'.staticIPs = c.staticIPs := h.eq fun _ => rfl
  refine ⟨⟨hmode.trans hrec.mode, h.sameDesire.nodePools ▸ hrec.pools, fun hstatic => ?_,
    haddresses ▸ hrec.nodup, haddresses ▸ hrec.hosts⟩, haddresses⟩
  rw [h.sameDesire.nodeVMNames, hips]
  exact hrec.named (hmode.symm.trans hstatic)

/-- **Whatever becomes of a row**, it stays recorded; a text that is added is not in use by
others. -/
private theorem Evolves.recorded (h : Evolves S rows c c') (hrec : Recorded s c)
    (hs : S.networks.sharedNet c.infraProvider = some s) :
    Recorded s c' ∧ ∀ ip ∈ c'.addresses, ip ∈ c.addresses ∨ ip ∉ othersAddresses rows c := by
  cases h with
  | edited h => exact hrec.edited hs h
  | marked => exact ⟨⟨hrec.mode, hrec.pools, hrec.named, hrec.nodup, hrec.hosts⟩, fun _ => .inl⟩
  | ticked h =>
    obtain ⟨hrec', haddresses⟩ := h.staysAsked.recorded hrec
    exact ⟨hrec', fun ip hip => .inl (haddresses ▸ hip)⟩

private theorem Evolves.liveOn (h : Evolves S rows c c') (hlive : c'.liveOn p = true) :
    c.liveOn p = true := by
  simp only [Cluster.liveOn, Bool.and_eq_true, beq_iff_eq, Option.isNone_iff_eq_none] at *
  exact ⟨h.sameNetwork.provider.symm.trans hlive.1, h.sameNetwork.live hlive.2⟩

/-- The request names addresses without a colon. -/
def EstateInput.Dotted : EstateInput → Prop
  | .create _ req => ':' ∉ req.apiVIP.toList ∧ ':' ∉ req.loadBalancerIP.toList
  | _ => True

instance : (i : EstateInput) → Decidable i.Dotted
  | .create _ req => inferInstanceAs (Decidable (':' ∉ req.apiVIP.toList ∧ _))
  | .call .. | .mark _ | .tick .. => inferInstanceAs (Decidable True)

private theorem recorded_of_createCluster {adm : CreateAdmission} {req : CreateRequest}
    (hs : S.networks.sharedNet p = some s) (hdotted : (EstateInput.create adm req).Dotted)
    (h : S.platform.app.createCluster (S.creating rows req adm) req = .ok c)
    (hp : c.infraProvider = p) :
    Recorded s c ∧ ∀ ip ∈ c.addresses, ip ∉ recordedOn rows p := by
  obtain ⟨c₀, net, hnet, rfl, -, -, -, hpools⟩ := addressed_of_createCluster h
  have hp₀ : c₀.infraProvider = p := hp
  simp only [Installation.creating, NetworkSettings.creating, NetworkSettings.addressing, hp₀, hs,
    bind_eq_ok, pure_eq_ok] at hnet
  obtain ⟨net₀, ⟨-, -, hadmit⟩, given, -, rfl⟩ := hnet
  exact recorded_of_admitSharedNetwork hpools hdotted.1 hdotted.2 hadmit

structure AddressesInv (p : String) (s : SharedNetSettings) (rows : List Cluster) : Prop where
  ids : (rows.map (·.id)).Nodup
  recorded : ∀ c ∈ rows, c.infraProvider = p → Recorded s c
  apart : rows.Pairwise fun c d => c.liveOn p = true → d.liveOn p = true →
    ∀ ip ∈ c.addresses, ip ∉ d.addresses

theorem AddressesInv.step (h : AddressesInv p s rows) (hs : S.networks.sharedNet p = some s)
    {i : EstateInput} (hi : i.Dotted) {rows' : List Cluster} (hstep : RowsStep S rows i rows') :
    AddressesInv p s rows' := by
  -- a row that has become another shares no text with a third
  have hevolved {c c' d : Cluster} (hc : c ∈ rows) (hev : Evolves S rows c c') (hd : d ∈ rows)
      (hne : d ≠ c) (hclive : c'.liveOn p = true) (hdlive : d.liveOn p = true)
      (hapart : ∀ ip ∈ c.addresses, ip ∉ d.addresses) : ∀ ip ∈ c'.addresses, ip ∉ d.addresses := by
    intro ip hip hmem
    have hp : c.infraProvider = p := by
      have hlive := hev.liveOn hclive
      simp only [Cluster.liveOn, Bool.and_eq_true, beq_iff_eq] at hlive
      exact hlive.1
    rcases (hev.recorded (h.recorded c hc hp) (hp ▸ hs)).2 ip hip with hip | hfree
    · exact hapart ip hip hmem
    · refine hfree (mem_othersAddresses hd hdlive hp (fun hid => hne ?_) hmem)
      exact List.inj_on_of_nodup_map h.ids hd hc hid
  refine ⟨hstep.nodup_ids h.ids, ?_, ?_⟩
  · cases hstep with
    | same => exact h.recorded
    | created heq hid hcreate =>
      intro d hd hp
      rcases List.mem_append.mp hd with hd | hd
      · exact h.recorded d hd hp
      · obtain rfl := List.mem_singleton.mp hd
        exact (recorded_of_createCluster hs (heq ▸ hi) hcreate hp).1
    | @evolved c c' hc hev =>
      intro d hd hp
      have hid : c'.id ∈ rows.map (·.id) :=
        List.mem_map.mpr ⟨c, hc, hev.sameIdentity.id.symm⟩
      rcases (Keyed.mem_put hid).mp hd with rfl | ⟨hd, -⟩
      · have hpc : c.infraProvider = p := hev.sameNetwork.provider.symm.trans hp
        exact (hev.recorded (h.recorded c hc hpc) (hpc ▸ hs)).1
      · exact h.recorded d hd hp
  · refine hstep.pairwise h.ids h.apart ?_ ?_ ?_
    · intro adm req c heq hcreate d hd hdlive hclive ip hip hip'
      simp only [Cluster.liveOn, Bool.and_eq_true, beq_iff_eq] at hclive
      exact (recorded_of_createCluster hs (heq ▸ hi) hcreate hclive.1).2 ip hip'
        (mem_recordedOn hd hdlive hip)
    · intro c hc c' d hev hd hne hapart hclive hdlive
      exact hevolved hc hev hd hne hclive hdlive (hapart (hev.liveOn hclive) hdlive)
    · intro c hc c' d hev hd hne hapart hdlive hclive ip hip hip'
      refine hevolved hc hev hd hne hclive hdlive (fun ip hip hip' => ?_) ip hip' hip
      exact hapart hdlive (hev.liveOn hclive) ip hip' hip

private theorem AddressesInv.recordedOn_cases (h : AddressesInv p s rows) :
    (recordedOn rows p).Nodup ∧ ∀ ip ∈ recordedOn rows p, s.HostText ip := by
  have hrow : ∀ c ∈ (clustersOnProvider rows p).filter (fun c => c.deletedAt.isNone),
      c ∈ rows ∧ c.infraProvider = p := by
    intro c hc
    obtain ⟨hmem, hp⟩ := List.mem_filter.mp (List.mem_filter.mp hc).1
    exact ⟨hmem, by simpa using hp⟩
  refine ⟨List.nodup_flatMap.mpr ⟨fun c hc => ?_, ?_⟩, fun ip hip => ?_⟩
  · exact (h.recorded c (hrow c hc).1 (hrow c hc).2).nodup
  · rw [clustersOnProvider, List.filter_filter]
    refine List.pairwise_filter.mpr (h.apart.imp fun hapart hc hd ip hip hip' => ?_)
    simp only [Bool.and_eq_true] at hc hd
    exact hapart (by simp [Cluster.liveOn, hc]) (by simp [Cluster.liveOn, hd]) ip hip hip'
  · obtain ⟨c, hc, hip⟩ := List.mem_flatMap.mp hip
    exact (h.recorded c (hrow c hc).1 (hrow c hc).2).hosts ip hip

end Rows

/-! ### The result -/

private theorem SharedNetSettings.HostText.parse {s : SharedNetSettings} {ip : String}
    (hgateway : ':' ∉ s.netGateway.toList) (h : s.HostText ip) :
    ∃ n v, parseCIDR s.netCIDR = some n ∧ parseIP ip = some (ofV4 v) ∧ n.Host v ∧
      parseIP s.netGateway ≠ some (ofV4 v) := by
  obtain ⟨n, hn, v, hv, hhost, rfl, hne⟩ := h
  refine ⟨n, v, hn, parseIP_dotted hv, hhost, fun hsame => hne ?_⟩
  obtain ⟨v', -, heq, htext⟩ := eq_dotted_of_parseIP hgateway hsame
  rw [htext, ofV4_inj.mp heq]

private theorem parseIP_inj {s : SharedNetSettings} {ip ip' : String} (h : s.HostText ip)
    (h' : s.HostText ip') (heq : parseIP ip = parseIP ip') : ip = ip' := by
  obtain ⟨-, -, v, hv, -, rfl, -⟩ := h
  obtain ⟨-, -, v', hv', -, rfl, -⟩ := h'
  rw [parseIP_dotted hv, parseIP_dotted hv'] at heq
  rw [ofV4_inj.mp (Option.some.inj heq)]

/-- **Addresses are different.** Where neither a request nor the configured gateway uses the IPv6
form, the addresses recorded on the live clusters of a shared-network provider are pairwise
different hosts of its network, none of them the gateway; and a machine that an edit leaves
desired keeps its address. -/
theorem Installation.addresses_distinct {ω : Type} (S : Installation ω) (w : ω) {p : String}
    {s : SharedNetSettings} (hs : S.networks.sharedNet p = some s)
    (hgateway : ':' ∉ s.netGateway.toList) {is : List EstateInput} (his : ∀ i ∈ is, i.Dotted) :
    ((recordedOn (S.run w is).rows p).map parseIP).Nodup ∧
    (∀ ip ∈ recordedOn (S.run w is).rows p, ∃ n v, parseCIDR s.netCIDR = some n ∧
      parseIP ip = some (ofV4 v) ∧ n.Host v ∧ parseIP s.netGateway ≠ some (ofV4 v)) ∧
    ∀ c ∈ (S.run w is).rows, c.infraProvider = p → ∀ adm m c',
      S.platform.app.apply (S.editing (S.run w is).rows c adm) m c = .ok (some c') →
      ∀ name ∈ nodeVMNames c, name ∈ nodeVMNames c' →
        c'.staticIPs.lookup name = c.staticIPs.lookup name := by
  have hinv : AddressesInv p s (S.run w is).rows := by
    refine run_invariant (I := fun s' : Estate ω => AddressesInv p s s'.rows)
      (fun s' i h hi => h.step hs hi (rowsStep S s' i)) ?_ (along_of_forall his _)
    exact ⟨List.nodup_nil, by simp, List.Pairwise.nil⟩
  obtain ⟨hnodup, hhosts⟩ := hinv.recordedOn_cases
  refine ⟨hnodup.map_on fun ip hip ip' hip' => parseIP_inj (hhosts ip hip) (hhosts ip' hip'),
    fun ip hip => (hhosts ip hip).parse hgateway,
    fun c hc hp adm m c' happly name hname hname' => ?_⟩
  exact (hinv.recorded c hc hp).keeps happly hname hname'

/-- vSphere with one network of this mode. -/
private def sharedInstallation (mode : String) : Installation Unit where
  platform := rollingPlatform
  infraProviders := [providerVSphere]
  networks :=
    { vsphere := some
        { network := "lan", netMode := mode, netCIDR := "10.0.0.0/24", netGateway := "10.0.0.1",
          netDNS := "10.0.0.2", netRange := "10.0.0.1-10.0.0.20" } }
  effect := fun _ _ w => w

private def defaultPool (workers : Int) : List NodePool :=
  [{ name := "default", size := "small", desiredWorkers := workers }]

/-- Two clusters in static mode, the first of them scaled. -/
private def twoStaticClusters : List EstateInput :=
  [.create { id := "a" } { name := "a", ha := true },
    .create { id := "b" } { name := "b", nodePools := defaultPool 1 },
    .call "a" {} (.updateCluster { nodePools := some (defaultPool 2) })]

theorem addresses_distinct_twoStaticClusters :
    ((recordedOn ((sharedInstallation "static").run () twoStaticClusters).rows
        providerVSphere).map parseIP).Nodup ∧
      (recordedOn ((sharedInstallation "static").run () twoStaticClusters).rows
        providerVSphere).length = 10 :=
  ⟨((sharedInstallation "static").addresses_distinct () rfl (by decide) (by decide +kernel)).1,
    by decide +kernel⟩

/-- **Two texts of one address.** Under DHCP the second request names the address of the first in
the IPv6 form: it is accepted, and both clusters have the address. -/
theorem two_texts_of_one_address :
    let rows := ((sharedInstallation "dhcp").run () [
      .create { id := "a" } { name := "a", loadBalancerIP := "10.0.0.5" },
      .create { id := "b" } { name := "b", loadBalancerIP := "::ffff:10.0.0.5" }]).rows
    rows.map (fun c => (c.liveOn providerVSphere, c.loadBalancerIP)) =
        [(true, "10.0.0.5"), (true, "::ffff:10.0.0.5")] ∧
      ¬((recordedOn rows providerVSphere).map parseIP).Nodup := by
  decide +kernel

end KaaS
