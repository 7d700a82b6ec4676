import KaaS.Library.Effect
import KaaS.Library.Inet
import KaaS.Library.Run
import KaaS.Reconcile.Nodes

/-!
# Addresses on record

On a shared subnet the addresses of a cluster are put on record in NetBox. The provisioner of such a
cluster is wrapped: once the machines are there, their addresses, the VIP and the load balancer's
are registered, **by address**, in the record there is or in a new one; once they are gone, every
record with the cluster's **marker** is deleted. A marker is a piece of the description, next to the
platform's tag.

So registering only adds. A record of an address that a cluster no longer has keeps the marker until
the cluster is gone, and a record of another system is taken over by a registration, and then
deleted like one of the platform's own. Where neither is in the way the records of a cluster are the
addresses it reports (`NetBox.records_exact`).
-/

namespace KaaS

open Effect Text

/-! ### The records -/

structure IPAddressRecord where
  id : Nat
  address : String
  dnsName : String := ""
  description : String := ""
  role : String := ""
  /-- It has the platform's tag. -/
  tagged : Bool := false
  deriving DecidableEq

/-- The records, whether the platform's tag is defined, and the next free id. -/
structure NetBox where
  records : List IPAddressRecord := []
  tag : Bool := false
  next : Nat := 1
  deriving DecidableEq

structure IPRecord where
  address : String
  dnsName : String
  description : String
  role : String := ""
  deriving DecidableEq

def clusterMarker (clusterID : String) : String := "kaas:" ++ clusterID

def recordDescription (clusterName clusterID : String) : String :=
  clusterMarker clusterID ++ (" cluster=" ++ clusterName)

/-- The record has the tag and the marker, as the filter of NetBox reads them: the marker stands
anywhere in the description, in any case. -/
def IPAddressRecord.carries (clusterID : String) (r : IPAddressRecord) : Bool :=
  r.tagged && contains r.description.toLower (clusterMarker clusterID).toLower

namespace NetBox

def marked (N : NetBox) (clusterID : String) : List String :=
  (N.records.filter (·.carries clusterID)).map (·.address)

def defineTag (N : NetBox) : NetBox := { N with tag := true }

def findByAddress (N : NetBox) (address : String) : Option IPAddressRecord :=
  N.records.find? (·.address == address)

def create (r : IPRecord) (N : NetBox) : NetBox :=
  { N with
    records := N.records ++ [⟨N.next, r.address, r.dnsName, r.description, r.role, true⟩]
    next := N.next + 1 }

/-- Overwrite a record; a role that is not given stays. -/
def patch (id : Nat) (r : IPRecord) (N : NetBox) : NetBox :=
  { N with records := N.records.map fun x =>
      if x.id = id then
        { x with address := r.address, dnsName := r.dnsName, description := r.description,
                 role := if r.role = "" then x.role else r.role, tagged := true }
      else x }

def delete (id : Nat) (N : NetBox) : NetBox :=
  { N with records := N.records.filter (·.id != id) }

/-- Ids are unique and used up in order, and nothing has a tag that is not defined. -/
structure WellFormed (N : NetBox) : Prop where
  nodup : (N.records.map (·.id)).Nodup
  fresh : ∀ r ∈ N.records, r.id < N.next
  tag : ∀ r ∈ N.records, r.tagged = true → N.tag = true

instance (N : NetBox) : Decidable N.WellFormed :=
  decidable_of_iff ((N.records.map (·.id)).Nodup ∧ (∀ r ∈ N.records, r.id < N.next) ∧
    ∀ r ∈ N.records, r.tagged = true → N.tag = true)
    ⟨fun h => ⟨h.1, h.2.1, h.2.2⟩, fun h => ⟨h.1, h.2, h.3⟩⟩

end NetBox

/-! ### The client -/

/-- How the requests of one registration end. -/
structure IPAnswers where
  tags : Option String := none
  createTag : Outcome := .answered
  find : Option String := none
  write : Outcome := .answered

/-- How the requests of one release end: the look at the tag, and by round the page and the
deletions. -/
structure ReleaseAnswers where
  tags : Option String := none
  page : Nat → Option String := fun _ => none
  delete : Nat → Nat → Outcome := fun _ _ => .answered

abbrev NetBoxCall := EStateM String NetBox

def ensureTag (o : IPAnswers) : NetBoxCall Unit := do
  attempt o.tags
  let N ← get
  if N.tag then pure () else request o.createTag NetBox.defineTag

def ensureIP (o : IPAnswers) (r : IPRecord) : NetBoxCall Unit := do
  ensureTag o
  attempt o.find
  let N ← get
  match N.findByAddress r.address with
  | none => request o.write (NetBox.create r)
  | some existing => request o.write (NetBox.patch existing.id r)

def netBoxPageSize : Nat := 200

/-- Delete what has the marker, page by page and from the start each time. A round deletes what it
was shown, so `fuel` above the number of records is enough. -/
def deleteRounds (o : ReleaseAnswers) (clusterID : String) : Nat → NetBoxCall Unit
  | 0 => throw "netbox: too many rounds"
  | fuel + 1 => do
    attempt (o.page fuel)
    let N ← get
    let found := N.records.filter (·.carries clusterID)
    (found.take netBoxPageSize).forM fun r => request (o.delete fuel r.id) (NetBox.delete r.id)
    if found.length ≤ netBoxPageSize then pure () else deleteRounds o clusterID fuel

def deleteCluster (o : ReleaseAnswers) (clusterID : String) : NetBoxCall Unit := do
  attempt o.tags
  let N ← get
  if !N.tag then pure () else deleteRounds o clusterID (N.records.length + 1)

/-! ### The provisioner -/

def prefixLen (cidr : String) : Except String String :=
  match Inet.parseCIDR (trimSpace cidr) with
  | none => .error ("netbox: cluster network " ++ quote cidr ++ ": invalid CIDR address")
  | some n => .ok (toString n.ones)

/-- What is registered of a cluster: the machines whose address is known, the VIP and the load
balancer's address. -/
def registrations (clusterID : String) (net : NetworkSpec) (nodes : List ProvisionedNode)
    (ones : String) : List IPRecord :=
  let desc := recordDescription net.clusterName clusterID
  (nodes.filter (·.ip != "")).map (fun n => ⟨n.ip ++ "/" ++ ones, n.vmName, desc, ""⟩) ++
    (if net.vip = "" then []
      else [⟨net.vip ++ "/" ++ ones, net.clusterName ++ "-cp-vip", desc, "vip"⟩]) ++
    (if net.loadBalancerIP = "" then []
      else [⟨net.loadBalancerIP ++ "/" ++ ones, net.clusterName ++ "-gateway-lb", desc, "vip"⟩])

def reportedAddresses (net : NetworkSpec) (nodes : List ProvisionedNode) : List String :=
  match prefixLen net.cidr with
  | .error _ => []
  | .ok ones =>
    ((nodes.map (·.ip) ++ [net.vip, net.loadBalancerIP]).filter (· != "")).map
      (· ++ "/" ++ ones)

/-- `EnsureNodes` of the wrapped provisioner, which may fail; `nodes` is what it returns. -/
def ensureNodesNetBox (inner : Option String) (o : Nat → IPAnswers) (clusterID : String)
    (net : NetworkSpec) (nodes : List ProvisionedNode) : NetBoxCall Unit := do
  attempt inner
  match prefixLen net.cidr with
  | .error e => throw e
  | .ok ones =>
    (registrations clusterID net nodes ones).zipIdx.forM fun p => ensureIP (o p.2) p.1

def destroyClusterNetBox (inner : Option String) (o : ReleaseAnswers) (clusterID : String) :
    NetBoxCall Unit := do
  attempt inner
  deleteCluster o clusterID

inductive NetBoxInput where
  | ensureNodes (inner : Option String) (o : Nat → IPAnswers) (clusterID : String)
      (net : NetworkSpec) (nodes : List ProvisionedNode)
  | destroyCluster (inner : Option String) (o : ReleaseAnswers) (clusterID : String)

def NetBoxInput.call : NetBoxInput → NetBoxCall Unit
  | .ensureNodes inner o clusterID net nodes => ensureNodesNetBox inner o clusterID net nodes
  | .destroyCluster inner o clusterID => destroyClusterNetBox inner o clusterID

/-- NetBox after a call, however it ends. -/
def NetBox.step (N : NetBox) (i : NetBoxInput) : NetBox := final i.call N

/-- The call registers no address that is already on record in `N`, and releases no cluster whose
marker is. -/
def NetBoxInput.Clear (N : NetBox) : NetBoxInput → Prop
  | .ensureNodes _ _ _ net nodes => ∀ x ∈ N.records, x.address ∉ reportedAddresses net nodes
  | .destroyCluster _ _ clusterID => ∀ x ∈ N.records, x.carries clusterID = false

instance (N : NetBox) (i : NetBoxInput) : Decidable (i.Clear N) := by
  cases i <;> unfold NetBoxInput.Clear <;> infer_instance

/-! ### One registration -/

def IPAddressRecord.Says (x : IPAddressRecord) (r : IPRecord) : Prop :=
  x.address = r.address ∧ x.description = r.description ∧ x.tagged = true

namespace NetBox

/-- Into the record there is, or a new one. -/
def upsert (r : IPRecord) (N : NetBox) : NetBox :=
  match N.findByAddress r.address with
  | none => N.create r
  | some existing => N.patch existing.id r

theorem defineTag_of_tag {N : NetBox} (h : N.tag = true) : N.defineTag = N := by
  cases N
  cases h
  rfl

theorem WellFormed.defineTag {N : NetBox} (h : N.WellFormed) : N.defineTag.WellFormed :=
  ⟨h.nodup, h.fresh, fun _ _ _ => rfl⟩

section Upsert

variable {N : NetBox} {r : IPRecord} {x : IPAddressRecord}

theorem findByAddress_some (h : N.findByAddress r.address = some x) :
    x ∈ N.records ∧ x.address = r.address :=
  ⟨List.mem_of_find?_eq_some h, by simpa using List.find?_some h⟩

theorem mem_of_mem_upsert (h : x ∈ (N.upsert r).records) : x ∈ N.records ∨ x.Says r := by
  unfold upsert at h
  split at h
  · rcases List.mem_append.mp h with hold | hnew
    · exact .inl hold
    · rw [List.mem_singleton.mp hnew]
      exact .inr ⟨rfl, rfl, rfl⟩
  · obtain ⟨y, hy, hxy⟩ := List.mem_map.mp h
    split at hxy
    · rw [← hxy]
      exact .inr ⟨rfl, rfl, rfl⟩
    · exact .inl (hxy ▸ hy)

theorem mem_upsert_of_ne (hN : N.WellFormed) (hx : x ∈ N.records) (hne : x.address ≠ r.address) :
    x ∈ (N.upsert r).records := by
  unfold upsert
  split
  · exact List.mem_append_left _ hx
  · rename_i existing hfind
    obtain ⟨hexisting, haddress⟩ := findByAddress_some hfind
    have hid : x.id ≠ existing.id := by
      intro hid
      rw [List.inj_on_of_nodup_map hN.nodup hx hexisting hid] at hne
      exact hne haddress
    exact List.mem_map.mpr ⟨x, hx, if_neg hid⟩

theorem exists_says_upsert (N : NetBox) (r : IPRecord) : ∃ x ∈ (N.upsert r).records, x.Says r := by
  unfold upsert
  split
  · exact ⟨_, List.mem_append_right _ (List.mem_singleton_self _), rfl, rfl, rfl⟩
  · rename_i existing hfind
    refine ⟨_, List.mem_map.mpr ⟨existing, (findByAddress_some hfind).1, if_pos rfl⟩, ?_⟩
    exact ⟨rfl, rfl, rfl⟩

theorem WellFormed.upsert (hN : N.WellFormed) (htag : N.tag = true) (r : IPRecord) :
    (N.upsert r).WellFormed := by
  unfold NetBox.upsert
  split
  · refine ⟨?_, ?_, fun _ _ _ => htag⟩
    · simp only [create, List.map_append, List.map_cons, List.map_nil]
      refine List.nodup_append.mpr ⟨hN.nodup, List.nodup_singleton _, ?_⟩
      rintro _ hid _ hnew rfl
      obtain ⟨y, hy, hyid⟩ := List.mem_map.mp hid
      have := hN.fresh y hy
      have := List.mem_singleton.mp hnew
      omega
    · intro y hy
      rcases List.mem_append.mp hy with hold | hnew
      · exact Nat.lt_succ_of_lt (hN.fresh y hold)
      · rw [List.mem_singleton.mp hnew]
        exact Nat.lt_succ_self _
  · rename_i existing _
    have hids : (fun y : IPAddressRecord => y.id) ∘ (fun y => if y.id = existing.id then
        { y with address := r.address, dnsName := r.dnsName, description := r.description,
                 role := if r.role = "" then y.role else r.role, tagged := true }
        else y) = fun y => y.id := by
      funext y
      simp only [Function.comp]
      split <;> rfl
    refine ⟨?_, ?_, fun _ _ _ => htag⟩
    · simp only [patch, List.map_map]
      rw [hids]
      exact hN.nodup
    · intro y hy
      obtain ⟨z, hz, rfl⟩ := List.mem_map.mp hy
      have := hN.fresh z hz
      split
      · exact this
      · exact this

end Upsert

end NetBox

section Registration

variable {N : NetBox} {r : IPRecord} {o : IPAnswers} {Q : Unit → NetBox → Prop}
  {E : String → NetBox → Prop}

/-- **One registration** defines the tag and writes the record; where it fails it may have done
none, one or both. -/
theorem wp_ensureIP (hdone : Q () (N.defineTag.upsert r)) (hnone : ∀ e, E e N)
    (htag : ∀ e, E e N.defineTag) (hwritten : ∀ e, E e (N.defineTag.upsert r)) :
    wp (ensureIP o r) Q E N := by
  unfold ensureIP ensureTag
  simp only [wp_bind, wp_get]
  have hwrite : wp (attempt o.find : NetBoxCall Unit) (fun _ N => wp
      (match N.findByAddress r.address with
        | none => request o.write (NetBox.create r)
        | some existing => request o.write (NetBox.patch existing.id r) : NetBoxCall Unit) Q E N) E
      N.defineTag := by
    refine wp_attempt (fun _ => ?_) fun e _ => htag e
    simp only [NetBox.upsert] at hdone hwritten
    cases hfind : N.defineTag.findByAddress r.address with
    | none =>
      rw [hfind] at hdone
      simp only [hfind] at hwritten
      exact wp_request (fun _ => hdone) (fun e _ => hwritten e) fun e _ => htag e
    | some existing =>
      rw [hfind] at hdone
      simp only [hfind] at hwritten
      exact wp_request (fun _ => hdone) (fun e _ => hwritten e) fun e _ => htag e
  refine wp_attempt (fun _ => ?_) fun e _ => hnone e
  rw [wp_ite]
  refine ⟨fun hN => ?_,
    fun _ => wp_request (fun _ => hwrite) (fun e _ => htag e) fun e _ => hnone e⟩
  rw [NetBox.defineTag_of_tag hN] at hwrite
  exact hwrite

end Registration

/-! ### What a cluster has on record -/

section Markers

variable {clusterID : String} {net : NetworkSpec} {nodes : List ProvisionedNode} {ones : String}

theorem IPAddressRecord.Says.carries {x : IPAddressRecord} {r : IPRecord} (h : x.Says r)
    {clusterName : String} (hr : r.description = recordDescription clusterName clusterID) :
    x.carries clusterID = true := by
  obtain ⟨-, hdesc, htagged⟩ := h
  rw [IPAddressRecord.carries, htagged, hdesc, hr, Bool.true_and, recordDescription, toLower_append]
  exact contains_append_left _ _

theorem description_of_mem_registrations {r : IPRecord}
    (h : r ∈ registrations clusterID net nodes ones) :
    r.description = recordDescription net.clusterName clusterID := by
  simp only [registrations, List.mem_append, List.mem_map] at h
  rcases h with (⟨n, -, rfl⟩ | h) | h
  · rfl
  all_goals
    split at h
    · simp at h
    · rw [List.mem_singleton.mp h]

theorem address_registrations (clusterID : String) (nodes : List ProvisionedNode)
    (h : prefixLen net.cidr = .ok ones) :
    (registrations clusterID net nodes ones).map (·.address) = reportedAddresses net nodes := by
  have hnodes : ((nodes.filter (·.ip != "")).map fun n =>
      (⟨n.ip ++ "/" ++ ones, n.vmName, recordDescription net.clusterName clusterID, ""⟩ :
        IPRecord)).map (·.address) =
      ((nodes.map (·.ip)).filter (· != "")).map (· ++ "/" ++ ones) := by
    rw [List.map_map, List.filter_map, List.map_map]
    rfl
  simp only [registrations, reportedAddresses, h, List.map_append, List.filter_append, hnodes,
    List.append_assoc]
  refine (List.append_right_inj _).mpr ?_
  by_cases hvip : net.vip = "" <;> by_cases hlb : net.loadBalancerIP = "" <;> simp [hvip, hlb]

end Markers

/-- **A registration address by address**: what holds of the addresses done so far, and of NetBox
wherever a request fails. -/
theorem wp_registerAll {o : Nat → IPAnswers} {l : List IPRecord} {I : List IPRecord → NetBox → Prop}
    {E : NetBox → Prop} (hround : ∀ done r rest N, l = done ++ r :: rest → I done N →
      I (done ++ [r]) (N.defineTag.upsert r) ∧ E N ∧ E N.defineTag ∧ E (N.defineTag.upsert r))
    {N : NetBox} (h : I [] N) :
    wp (l.zipIdx.forM fun p => ensureIP (o p.2) p.1) (fun _ => I l) (fun _ => E) N := by
  have hloop := wp_forM (f := fun p : IPRecord × Nat => ensureIP (o p.2) p.1)
    (E := fun _ => E) (l := l.zipIdx) (fun done N => I (done.map (·.1)) N)
    (fun done p rest N hl hI => ?_) (s := N) h
  · simpa only [List.zipIdx_map_fst] using hloop
  · have hsplit : l = done.map (·.1) ++ p.1 :: rest.map (·.1) := by
      rw [← List.zipIdx_map_fst 0 l, hl, List.map_append, List.map_cons]
    obtain ⟨hdone, hnone, htag, hwritten⟩ := hround _ _ _ N hsplit hI
    refine wp_ensureIP ?_ (fun _ => hnone) (fun _ => htag) fun _ => hwritten
    simpa only [List.map_append, List.map_cons, List.map_nil] using hdone

section Exact

variable {clusterID : String} {net : NetworkSpec} {nodes : List ProvisionedNode}
  {inner : Option String} {o : Nat → IPAnswers} {N : NetBox}

theorem NetBox.mem_marked {a : String} :
    a ∈ N.marked clusterID ↔ ∃ x ∈ N.records, x.carries clusterID = true ∧ x.address = a := by
  simp [NetBox.marked, and_assoc]

theorem NetBox.marked_eq_nil :
    N.marked clusterID = [] ↔ ∀ x ∈ N.records, x.carries clusterID = false := by
  simp [NetBox.marked]

/-- **After a registration** the cluster has on record what it reports, if it had nothing else on
record before. -/
theorem marked_of_ensureNodes (hN : N.WellFormed)
    (hstale : ∀ a ∈ N.marked clusterID, a ∈ reportedAddresses net nodes) :
    wp (ensureNodesNetBox inner o clusterID net nodes)
      (fun _ N' => ∀ a, a ∈ N'.marked clusterID ↔ a ∈ reportedAddresses net nodes)
      (fun _ _ => True) N := by
  unfold ensureNodesNetBox
  rw [wp_bind]
  refine wp_attempt (fun _ => ?_) fun _ _ => trivial
  cases hones : prefixLen net.cidr with
  | error e => exact trivial
  | ok ones =>
    have haddresses := address_registrations clusterID nodes hones
    have hloop := wp_registerAll (o := o) (l := registrations clusterID net nodes ones) (N := N)
      (I := fun done N => N.WellFormed ∧ (∀ r ∈ done, r.address ∈ N.marked clusterID) ∧
        ∀ a ∈ N.marked clusterID, a ∈ reportedAddresses net nodes)
      (E := fun _ => True) (fun done r rest N hl hI => ?_) ⟨hN, by simp, hstale⟩
    · refine wp_mono hloop (fun _ N' hN' a => ⟨hN'.2.2 a, fun ha => ?_⟩) fun _ _ => id
      rw [← haddresses] at ha
      obtain ⟨r, hr, rfl⟩ := List.mem_map.mp ha
      exact hN'.2.1 r hr
    · obtain ⟨hwf, hdone, hmarked⟩ := hI
      have hmem : r ∈ registrations clusterID net nodes ones := by
        rw [hl]
        simp
      have hdesc := description_of_mem_registrations hmem
      have hown : r.address ∈ (N.defineTag.upsert r).marked clusterID := by
        obtain ⟨x, hx, hrecord⟩ := N.defineTag.exists_says_upsert r
        exact NetBox.mem_marked.mpr ⟨x, hx, hrecord.carries hdesc, hrecord.1⟩
      refine ⟨⟨hwf.defineTag.upsert rfl r, fun r' hr' => ?_, fun a ha => ?_⟩,
        trivial, trivial, trivial⟩
      · rcases List.mem_append.mp hr' with hr' | hr'
        · by_cases hsame : r'.address = r.address
          · rw [hsame]
            exact hown
          · obtain ⟨x, hx, hcarries, haddress⟩ := NetBox.mem_marked.mp (hdone r' hr')
            have hstays := NetBox.mem_upsert_of_ne hwf.defineTag hx (haddress ▸ hsame)
            exact NetBox.mem_marked.mpr ⟨x, hstays, hcarries, haddress⟩
        · rw [List.mem_singleton.mp hr']
          exact hown
      · obtain ⟨x, hx, hcarries, rfl⟩ := NetBox.mem_marked.mp ha
        rcases NetBox.mem_of_mem_upsert hx with hold | hrecord
        · exact hmarked _ (NetBox.mem_marked.mpr ⟨x, hold, hcarries, rfl⟩)
        · rw [hrecord.1, ← haddresses]
          exact List.mem_map_of_mem hmem

/-- **Records of other addresses stay**, however a registration ends. -/
theorem kept_of_ensureNodes {N₀ : NetBox} (hN : N.WellFormed)
    (hclear : ∀ x ∈ N₀.records, x.address ∉ reportedAddresses net nodes)
    (hkept : ∀ x ∈ N₀.records, x ∈ N.records) :
    wp (ensureNodesNetBox inner o clusterID net nodes)
      (fun _ N' => N'.WellFormed ∧ ∀ x ∈ N₀.records, x ∈ N'.records)
      (fun _ N' => N'.WellFormed ∧ ∀ x ∈ N₀.records, x ∈ N'.records) N := by
  unfold ensureNodesNetBox
  rw [wp_bind]
  refine wp_attempt (fun _ => ?_) fun _ _ => ⟨hN, hkept⟩
  cases hones : prefixLen net.cidr with
  | error e => exact ⟨hN, hkept⟩
  | ok ones =>
    refine wp_registerAll (I := fun _ N => N.WellFormed ∧ ∀ x ∈ N₀.records, x ∈ N.records)
      (fun done r rest N hl ⟨hwf, hkept⟩ => ?_) ⟨hN, hkept⟩
    have hne : ∀ x ∈ N₀.records, x.address ≠ r.address := by
      intro x hx heq
      refine hclear x hx ?_
      rw [heq, ← address_registrations clusterID nodes hones, hl]
      simp
    have hafter : (N.defineTag.upsert r).WellFormed ∧
        ∀ x ∈ N₀.records, x ∈ (N.defineTag.upsert r).records :=
      ⟨hwf.defineTag.upsert rfl r,
        fun x hx => NetBox.mem_upsert_of_ne hwf.defineTag (hkept x hx) (hne x hx)⟩
    exact ⟨hafter, ⟨hwf, hkept⟩, ⟨hwf.defineTag, hkept⟩, hafter⟩

end Exact

/-! ### A release -/

/-- From `N` to `N'` only records with the marker went. -/
structure NetBox.Releases (clusterID : String) (N N' : NetBox) : Prop where
  sublist : N'.records.Sublist N.records
  tag : N'.tag = N.tag
  next : N'.next = N.next
  kept : ∀ x ∈ N.records, x.carries clusterID = false → x ∈ N'.records

namespace NetBox.Releases

variable {clusterID : String} {N N' N'' : NetBox}

protected theorem refl : N.Releases clusterID N :=
  ⟨List.Sublist.refl _, rfl, rfl, fun _ hx _ => hx⟩

protected theorem trans (h : N.Releases clusterID N') (h' : N'.Releases clusterID N'') :
    N.Releases clusterID N'' :=
  ⟨h'.sublist.trans h.sublist, h'.tag.trans h.tag, h'.next.trans h.next,
    fun x hx hfree => h'.kept x (h.kept x hx hfree) hfree⟩

theorem wellFormed (h : N.Releases clusterID N') (hN : N.WellFormed) : N'.WellFormed :=
  ⟨hN.nodup.sublist (h.sublist.map _), fun x hx => h.next ▸ hN.fresh x (h.sublist.mem hx),
    fun x hx hx' => h.tag ▸ hN.tag x (h.sublist.mem hx) hx'⟩

theorem delete (hN : N.WellFormed) {x : IPAddressRecord} (hx : x ∈ N.records)
    (hcarries : x.carries clusterID = true) : N.Releases clusterID (N.delete x.id) := by
  refine ⟨List.filter_sublist, rfl, rfl, fun y hy hfree => List.mem_filter.mpr ⟨hy, ?_⟩⟩
  have hne : y.id ≠ x.id := by
    intro hid
    rw [List.inj_on_of_nodup_map hN.nodup hy hx hid, hcarries] at hfree
    exact Bool.noConfusion hfree
  simpa using hne

end NetBox.Releases

section Release

variable {clusterID : String} {inner : Option String} {o : ReleaseAnswers} {N : NetBox}

theorem wp_deletePage (hN : N.WellFormed) (fuel : Nat) {page : List IPAddressRecord}
    (hpage : page.Sublist (N.records.filter (·.carries clusterID))) :
    wp (page.forM fun r => request (o.delete fuel r.id) (NetBox.delete r.id) : NetBoxCall Unit)
      (fun _ N' => N.Releases clusterID N' ∧ ∀ x ∈ page, x ∉ N'.records)
      (fun _ N' => N.Releases clusterID N') N := by
  have hshown : ∀ x ∈ page, x ∈ N.records ∧ x.carries clusterID = true :=
    fun x hx => List.mem_filter.mp (hpage.mem hx)
  have hids : (page.map (·.id)).Nodup :=
    hN.nodup.sublist ((hpage.trans List.filter_sublist).map _)
  -- the part of the page that is still to be deleted is still there
  refine wp_mono (wp_forM (E := fun _ N' => N.Releases clusterID N') (l := page)
    (fun done N' => N.Releases clusterID N' ∧ (∀ x ∈ done, x ∉ N'.records) ∧
      ∀ x ∈ page, x ∉ done → x ∈ N'.records)
    (fun done r rest N' hl hI => ?_) ⟨.refl, by simp, fun x hx _ => (hshown x hx).1⟩)
    (fun _ N' h => ⟨h.1, h.2.1⟩) fun _ _ => id
  obtain ⟨hreleases, hgone, hthere⟩ := hI
  have hr : r ∈ page := by
    rw [hl]
    simp
  have hfresh : r ∉ done := by
    rw [hl, List.map_append, List.map_cons] at hids
    intro hmem
    exact (List.nodup_append.mp hids).2.2 _ (List.mem_map_of_mem hmem) _ List.mem_cons_self rfl
  have hdelete := NetBox.Releases.delete (hreleases.wellFormed hN) (hthere r hr hfresh)
    (hshown r hr).2
  refine wp_request (fun _ => ⟨hreleases.trans hdelete, fun x hx hmem => ?_, fun x hx hnot => ?_⟩)
    (fun _ _ => hreleases.trans hdelete) fun _ _ => hreleases
  · rcases List.mem_append.mp hx with hx | hx
    · exact hgone x hx (hdelete.sublist.mem hmem)
    · rw [List.mem_singleton.mp hx] at hmem
      simpa using (List.mem_filter.mp hmem).2
  · simp only [List.mem_append, List.mem_singleton, not_or] at hnot
    refine List.mem_filter.mpr ⟨hthere x hx hnot.1, ?_⟩
    have hne : x.id ≠ r.id := fun hid => hnot.2 (List.inj_on_of_nodup_map hids hx hr hid)
    simpa using hne

/-- **The rounds of a release**: if they end well, no record has the marker. -/
theorem wp_deleteRounds (fuel : Nat) (hN : N.WellFormed) :
    wp (deleteRounds o clusterID fuel)
      (fun _ N' => N.Releases clusterID N' ∧ ∀ x ∈ N'.records, x.carries clusterID = false)
      (fun _ N' => N.Releases clusterID N') N := by
  induction fuel generalizing N with
  | zero => exact .refl
  | succ fuel ih =>
    simp only [deleteRounds, wp_bind, wp_get]
    refine wp_attempt (fun _ => ?_) fun _ _ => .refl
    refine wp_mono (wp_deletePage hN fuel (List.take_sublist _ _)) (fun _ N' hpage => ?_)
      fun _ _ => id
    obtain ⟨hreleases, hgone⟩ := hpage
    rw [wp_ite]
    refine ⟨fun hlast => ⟨hreleases, fun x hx => ?_⟩, fun _ => ?_⟩
    · by_contra hcarries
      rw [List.take_of_length_le hlast] at hgone
      refine hgone x (List.mem_filter.mpr ⟨hreleases.sublist.mem hx, ?_⟩) hx
      exact Bool.not_eq_false _ ▸ hcarries
    · exact wp_mono (ih (hreleases.wellFormed hN)) (fun _ N'' h => ⟨hreleases.trans h.1, h.2⟩)
        fun _ _ h => hreleases.trans h

private theorem length_lt_of_page {N' : NetBox} {page : List IPAddressRecord}
    (hpage : page.Sublist (N.records.filter (·.carries clusterID))) (hne : page ≠ [])
    (hreleases : N.Releases clusterID N') (hgone : ∀ x ∈ page, x ∉ N'.records) :
    N'.records.length < N.records.length := by
  obtain ⟨x, hx⟩ := List.exists_mem_of_ne_nil page hne
  refine lt_of_le_of_ne hreleases.sublist.length_le fun hlength => hgone x hx ?_
  rw [hreleases.sublist.eq_of_length hlength]
  exact List.mem_of_mem_filter (hpage.mem hx)

/-- **The rounds end by themselves** where every request is answered: each but the last leaves fewer
records. -/
theorem deleteRounds_returns (fuel : Nat) (hN : N.WellFormed) (hfuel : N.records.length < fuel) :
    wp (deleteRounds {} clusterID fuel) (fun _ _ => True) (fun _ _ => False) N := by
  induction fuel generalizing N with
  | zero => omega
  | succ fuel ih =>
    simp only [deleteRounds, wp_bind, wp_get]
    refine wp_attempt (fun _ => ?_) fun _ h => by simp at h
    have hshown := List.take_sublist netBoxPageSize (N.records.filter (·.carries clusterID))
    have hanswered := wp_forM (E := fun _ _ => False)
      (f := fun r : IPAddressRecord => request ((({} : ReleaseAnswers).delete fuel r.id))
        (NetBox.delete r.id))
      (l := (N.records.filter (·.carries clusterID)).take netBoxPageSize) (s := N)
      (fun _ _ => True) (fun _ _ _ _ _ _ => trivial) trivial
    refine wp_mono (wp_and (wp_deletePage (o := {}) hN fuel hshown) hanswered)
      (fun _ N' hpage => ?_) fun _ _ h => h.2
    obtain ⟨⟨hreleases, hgone⟩, -⟩ := hpage
    rw [wp_ite]
    refine ⟨fun _ => trivial, fun hmore => ih (hreleases.wellFormed hN) ?_⟩
    have hne : (N.records.filter (·.carries clusterID)).take netBoxPageSize ≠ [] := by
      intro hnil
      have := congrArg List.length hnil
      simp only [List.length_take, List.length_nil, netBoxPageSize] at this hmore
      omega
    have := length_lt_of_page hshown hne hreleases hgone
    omega

/-- **After a release** no record has the marker, and however it ends nothing else is gone. -/
theorem wp_destroyCluster (hN : N.WellFormed) :
    wp (destroyClusterNetBox inner o clusterID)
      (fun _ N' => N.Releases clusterID N' ∧ ∀ x ∈ N'.records, x.carries clusterID = false)
      (fun _ N' => N.Releases clusterID N') N := by
  simp only [destroyClusterNetBox, deleteCluster, wp_bind, wp_get]
  refine wp_attempt (fun _ => ?_) fun _ _ => .refl
  refine wp_attempt (fun _ => ?_) fun _ _ => .refl
  rw [wp_ite]
  refine ⟨fun htag => ⟨.refl, fun x hx => ?_⟩, fun _ => wp_deleteRounds _ hN⟩
  -- without the tag no record has it, so none has the marker
  rw [IPAddressRecord.carries, Bool.and_eq_false_iff]
  refine .inl (Bool.eq_false_iff.mpr fun htagged => ?_)
  rw [hN.tag x hx htagged] at htag
  exact Bool.noConfusion htag

theorem destroyCluster_returns (hN : N.WellFormed) :
    wp (destroyClusterNetBox none {} clusterID) (fun _ N' => N'.marked clusterID = [])
      (fun _ _ => False) N := by
  have hends : wp (destroyClusterNetBox none {} clusterID) (fun _ _ => True) (fun _ _ => False)
      N := by
    simp only [destroyClusterNetBox, deleteCluster, wp_bind, wp_get]
    refine wp_attempt (fun _ => wp_attempt (fun _ => ?_) fun _ h => by simp at h)
      fun _ h => by simp at h
    rw [wp_ite]
    exact ⟨fun _ => trivial, fun _ => deleteRounds_returns _ hN (Nat.lt_succ_self _)⟩
  refine wp_mono (wp_and (wp_destroyCluster hN) hends) (fun _ N' h => ?_) fun _ _ h => h.2
  exact NetBox.marked_eq_nil.mpr h.1.2

theorem destroyCluster_returns_tagged :
    ∃ N : NetBox, N = ⟨[⟨1, "10.0.0.12/24", "", "kaas:c1", "", true⟩], true, 2⟩ ∧
      wp (destroyClusterNetBox none {} "c1") (fun _ N => N.marked "c1" = []) (fun _ _ => False)
        N := by
  obtain ⟨N, hN⟩ : ∃ N : NetBox, N = ⟨[⟨1, "10.0.0.12/24", "", "kaas:c1", "", true⟩], true, 2⟩ :=
    ⟨_, rfl⟩
  exact ⟨N, hN, destroyCluster_returns (hN ▸ by decide)⟩

end Release

/-! ### Whole runs -/

namespace NetBox

variable {N₀ : NetBox} {calls : List NetBoxInput}

theorem run_wellFormed (hN₀ : N₀.WellFormed) (calls : List NetBoxInput) :
    (TransitionSystem.run NetBox.step N₀ calls).WellFormed := by
  refine TransitionSystem.run_preserves (fun N i hN => ?_) hN₀ calls
  cases i with
  | ensureNodes inner o clusterID net nodes =>
    have hnone : ∀ x ∈ ({} : NetBox).records, x ∈ N.records := by simp
    exact final_of_wp (m := ensureNodesNetBox inner o clusterID net nodes)
      (wp_mono (kept_of_ensureNodes hN (by simp) hnone) (fun _ _ h => h.1) fun _ _ h => h.1)
  | destroyCluster inner o clusterID =>
    exact final_of_wp (wp_mono (wp_destroyCluster hN)
      (fun _ _ h => h.1.wellFormed hN) fun _ _ h => h.wellFormed hN)

theorem kept_of_run (hN₀ : N₀.WellFormed) (hcalls : ∀ call ∈ calls, call.Clear N₀) :
    ∀ x ∈ N₀.records, x ∈ (TransitionSystem.run NetBox.step N₀ calls).records := by
  refine (TransitionSystem.run_invariant (C := fun _ (i : NetBoxInput) => i.Clear N₀)
    (I := fun N : NetBox => N.WellFormed ∧ ∀ x ∈ N₀.records, x ∈ N.records) (fun N i hN hi => ?_)
    ⟨hN₀, fun _ => id⟩ (TransitionSystem.along_of_forall hcalls N₀)).2
  cases i with
  | ensureNodes inner o clusterID net nodes =>
    exact final_of_wp (m := ensureNodesNetBox inner o clusterID net nodes)
      (kept_of_ensureNodes hN.1 hi hN.2)
  | destroyCluster inner o clusterID =>
    have hkeeps : ∀ N', N.Releases clusterID N' →
        N'.WellFormed ∧ ∀ x ∈ N₀.records, x ∈ N'.records :=
      fun N' h => ⟨h.wellFormed hN.1, fun x hx => h.kept x (hN.2 x hx) (hi x hx)⟩
    exact final_of_wp (wp_mono (wp_destroyCluster hN.1) (fun _ N' h => hkeeps N' h.1)
      fun _ => hkeeps)

/-- **The records are the addresses.** After every run from any content a registration leaves on
record what the cluster reports, if the cluster reports everything that is on record for it; a
release leaves nothing; and what was on record before stays, if the calls of the run kept clear of
it. -/
theorem records_exact (N₀ : NetBox) (hN₀ : N₀.WellFormed) (calls : List NetBoxInput) :
    (∀ inner o clusterID net nodes N,
      (∀ a ∈ (TransitionSystem.run NetBox.step N₀ calls).marked clusterID,
        a ∈ reportedAddresses net nodes) →
      ensureNodesNetBox inner o clusterID net nodes (TransitionSystem.run NetBox.step N₀ calls) =
        .ok () N →
      ∀ a, a ∈ N.marked clusterID ↔ a ∈ reportedAddresses net nodes) ∧
    (∀ inner o clusterID N,
      destroyClusterNetBox inner o clusterID (TransitionSystem.run NetBox.step N₀ calls) =
        .ok () N →
      N.marked clusterID = []) ∧
    ((∀ call ∈ calls, call.Clear N₀) →
      ∀ x ∈ N₀.records, x ∈ (TransitionSystem.run NetBox.step N₀ calls).records) := by
  have hN := run_wellFormed hN₀ calls
  refine ⟨fun inner o clusterID net nodes N hstale hok => ?_, fun inner o clusterID N hok => ?_,
    kept_of_run hN₀⟩
  · exact of_wp_ok (marked_of_ensureNodes hN hstale) hok
  · exact marked_eq_nil.mpr (of_wp_ok (wp_destroyCluster hN) hok).2

end NetBox

/-- A cluster `c1` on a shared subnet. -/
def demoNetwork : NetworkSpec := { cidr := "10.0.0.0/24", vip := "10.0.0.5", clusterName := "demo" }

def demoMachines (ips : List String) : List ProvisionedNode :=
  ips.map fun ip => { vmName := "demo-" ++ ip, ip := ip }

/-- Its machines at these addresses, registered without a failure. -/
def demoRegistration (ips : List String) : NetBoxInput :=
  .ensureNodes none (fun _ => {}) "c1" demoNetwork (demoMachines ips)

/-- NetBox with a record of another system. -/
def demoNetBox : NetBox where
  records := [{ id := 1, address := "10.0.0.11/24", dnsName := "printer" }]
  next := 2

/-- The records of a cluster that grows, next to another system's. -/
theorem NetBox.records_exact_growing :
    demoNetBox.WellFormed ∧
    (TransitionSystem.run NetBox.step demoNetBox
      [demoRegistration ["10.0.0.12"]]).marked "c1" = ["10.0.0.12/24", "10.0.0.5/24"] ∧
    (∃ N, ensureNodesNetBox none (fun _ => {}) "c1" demoNetwork
        (demoMachines ["10.0.0.12", "10.0.0.13"])
        (TransitionSystem.run NetBox.step demoNetBox [demoRegistration ["10.0.0.12"]]) = .ok () N ∧
      ∀ a, a ∈ N.marked "c1" ↔
        a ∈ reportedAddresses demoNetwork (demoMachines ["10.0.0.12", "10.0.0.13"])) ∧
    ∀ x ∈ demoNetBox.records, x ∈ (TransitionSystem.run NetBox.step demoNetBox
      [demoRegistration ["10.0.0.12"]]).records := by
  obtain ⟨hexact, -, hkept⟩ :=
    NetBox.records_exact demoNetBox (by decide) [demoRegistration ["10.0.0.12"]]
  obtain ⟨N, hok⟩ : ∃ N, ensureNodesNetBox none (fun _ => {}) "c1" demoNetwork
      (demoMachines ["10.0.0.12", "10.0.0.13"])
      (TransitionSystem.run NetBox.step demoNetBox [demoRegistration ["10.0.0.12"]]) = .ok () N :=
    ⟨_, eq_ok_of_returns (by decide +kernel)⟩
  refine ⟨by decide, by decide +kernel, ⟨N, hok, ?_⟩, hkept (by decide +kernel)⟩
  refine hexact _ _ _ _ _ N ?_ hok
  decide +kernel

/-- **A machine goes, its record stays; another system's record is taken over and then deleted.** -/
theorem NetBox.stale_and_foreign_records :
    demoNetBox.WellFormed ∧
    "10.0.0.13/24" ∈ (TransitionSystem.run NetBox.step demoNetBox
      [demoRegistration ["10.0.0.12", "10.0.0.13"], demoRegistration ["10.0.0.12"]]).marked "c1" ∧
    "10.0.0.13/24" ∉ reportedAddresses demoNetwork (demoMachines ["10.0.0.12"]) ∧
    (TransitionSystem.run NetBox.step demoNetBox
      [demoRegistration ["10.0.0.11"], .destroyCluster none {} "c1"]).records = [] := by
  decide +kernel

end KaaS
