import KaaS.Provision.VSphere
import KaaS.System.Asking
import KaaS.System.Disks

/-!
# Disks keep their SCSI slots

On vSphere and on Proxmox an extra disk is attached at the SCSI slot its index in the name-ordered
list of its machine gives. In one apply the disks of a machine have different slots. From one apply
to the next a disk that stays should stay where it is (`SlotsKept`), but its index is the **number
of disks with smaller names**: a disk added under a smaller name, or released from one, moves all
those after it on that machine.

Where disks come and go at the end of the order (`InNameOrder`), ranks do not change: not by an
edit, not by a change of pools, which drops the disks of a machine all together, and not by a tick.
So every disk keeps its slot (`slots_kept`).
-/

namespace KaaS

open Guard Optimistic Proxmox

/-! ### The slots of a row -/

/-- How many disks of its machine come before a disk by name. -/
def diskRank (disks : List NodeDisk) (k : String × String) : ℕ :=
  (disks.filter (·.vmName == k.1)).countP (·.name < k.2)

/-- The disks of a row on the desired machines, each with the slot its index gives. -/
def diskSlots (c : Cluster) : List ((String × String) × ℕ) :=
  (desiredNodes c).flatMap fun n => (disksFor c n.vmName).zipIdx.map fun (d, i) => (d.key, i + 1)

section Row

variable {c c' : Cluster} {workers : List String} {disks : List NodeDisk} {k : String × String}
  {p q : (String × String) × ℕ} {specs : List NodeSpec}

theorem scsiSlots_nodeSpecs (c : Cluster) :
    scsiSlots ((nodeSpecs c).map tfvNode) = diskSlots c := by
  rw [scsiSlots, nodeSpecs, List.map_map, List.flatMap_map, diskSlots]
  refine List.flatMap_congr fun n _ => ?_
  simp only [Function.comp_apply, tfvNode, extraDisks_nodeSpec, List.zipIdx_map, List.map_map]
  refine List.map_congr_left fun x hx => ?_
  have hvm := (mem_disksFor.mp (List.mem_of_getElem? (List.mem_zipIdx_iff_getElem?.mp hx))).2
  simp [NodeDisk.key, hvm]

private theorem scsiSlots_of_map_bare (h : specs.map (·.bare) = (nodeSpecs c).map (·.bare)) :
    scsiSlots (specs.map tfvNode) = diskSlots c := by
  rw [← scsiSlots_nodeSpecs, scsiSlots, scsiSlots, List.flatMap_map, List.flatMap_map,
    List.flatMap_def, List.flatMap_def]
  exact congrArg _ (map_eq_of_map_bare _ (fun _ => rfl) h)

private theorem getElem?_of_mem_diskSlots (h : p ∈ diskSlots c) :
    ∃ d i, (disksFor c p.1.1)[i]? = some d ∧ p = (d.key, i + 1) := by
  obtain ⟨n, -, hp⟩ := List.mem_flatMap.mp h
  obtain ⟨⟨d, i⟩, hd, rfl⟩ := List.mem_map.mp hp
  have hget := List.mk_mem_zipIdx_iff_getElem?.mp hd
  have hvm := (mem_disksFor.mp (List.mem_of_getElem? hget)).2
  refine ⟨d, i, ?_, rfl⟩
  rw [← hvm] at hget
  exact hget

private theorem strict_disksFor (h : (c.nodeDisks.map (·.key)).Nodup) (vm : String) :
    (disksFor c vm).Pairwise fun a b => a.name < b.name := by
  have hsorted : (disksFor c vm).Pairwise fun a b => a.name ≤ b.name := by
    have : Std.Total fun a b : NodeDisk => a.name ≤ b.name :=
      ⟨fun a b => String.le_total a.name b.name⟩
    have : IsTrans NodeDisk fun a b => a.name ≤ b.name := ⟨fun _ _ _ => String.le_trans⟩
    exact List.pairwise_insertionSort _ _
  have hkeys : (disksFor c vm).Pairwise fun a b => a.key ≠ b.key := by
    refine List.pairwise_map.mp (((List.perm_insertionSort _ _).map _).nodup_iff.mpr ?_)
    exact (List.filter_sublist.map _).nodup h
  refine (hsorted.and hkeys).imp_of_mem fun {a b} ha hb hab => lt_of_le_of_ne hab.1 fun hname => ?_
  refine hab.2 (Prod.ext ?_ hname)
  exact (mem_disksFor.mp ha).2.trans (mem_disksFor.mp hb).2.symm

private theorem index_eq_rank (h : (c.nodeDisks.map (·.key)).Nodup) {vm : String} {d : NodeDisk}
    {i : ℕ} (hd : (disksFor c vm)[i]? = some d) : i = diskRank c.nodeDisks d.key := by
  have hvm := (mem_disksFor.mp (List.mem_of_getElem? hd)).2
  have hindex := Slots.position_eq_countP (strict_disksFor h vm) (fun a => lt_irrefl a.name)
    (fun a b => lt_asymm) hd
  rw [hindex, disksFor, (List.perm_insertionSort _ _).countP_eq, diskRank, NodeDisk.key, hvm]

theorem mem_diskSlots (h : ValidDisks (workerNames c) c.nodeDisks) :
    p ∈ diskSlots c ↔
      p.1 ∈ c.nodeDisks.map (·.key) ∧ p.2 = diskRank c.nodeDisks p.1 + 1 := by
  have hkeys := (diskKeys_of_validateNodeDisks (validateNodeDisks_iff.mpr h)).nodup
  constructor
  · intro hp
    obtain ⟨d, i, hd, rfl⟩ := getElem?_of_mem_diskSlots hp
    refine ⟨List.mem_map_of_mem (mem_disksFor.mp (List.mem_of_getElem? hd)).1, ?_⟩
    rw [← index_eq_rank hkeys hd]
  · obtain ⟨k, slot⟩ := p
    rintro ⟨hk, hslot⟩
    obtain ⟨d, hd, rfl⟩ := List.mem_map.mp hk
    obtain rfl : slot = diskRank c.nodeDisks d.key + 1 := hslot
    obtain ⟨n, hn, hvm⟩ := List.mem_map.mp (h.on_worker d hd)
    obtain ⟨i, hi⟩ := List.mem_iff_getElem?.mp (mem_disksFor.mpr ⟨hd, rfl⟩)
    refine List.mem_flatMap.mpr ⟨n, (List.mem_filter.mp hn).1, ?_⟩
    rw [← index_eq_rank hkeys hi, hvm]
    exact List.mem_map.mpr ⟨(d, i), List.mk_mem_zipIdx_iff_getElem?.mpr hi, rfl⟩

private theorem nodup_text_diskSlots (h : ValidDisks (workerNames c) c.nodeDisks)
    (hnames : (nodeVMNames c).Nodup) :
    ((diskSlots c).map fun p => p.1.1 ++ "/" ++ p.1.2).Nodup := by
  have htexts : (diskSlots c).map (fun p => p.1.1 ++ "/" ++ p.1.2) =
      (desiredNodes c).flatMap fun n => (disksFor c n.vmName).map (·.diskText) := by
    rw [diskSlots, List.map_flatMap]
    refine List.flatMap_congr fun n _ => ?_
    rw [List.map_map]
    conv_rhs => rw [← List.zipIdx_map_fst 0 (disksFor c n.vmName), List.map_map]
    rfl
  rw [htexts, List.nodup_flatMap]
  constructor
  · intro n _
    refine ((List.perm_insertionSort _ _).map _).nodup_iff.mpr ?_
    exact (List.filter_sublist.map _).nodup h.names
  · refine (List.pairwise_map.mp hnames).imp fun {n n'} hne => ?_
    intro text ht ht'
    obtain ⟨d, hd, rfl⟩ := List.mem_map.mp ht
    obtain ⟨d', hd', htext⟩ := List.mem_map.mp ht'
    obtain ⟨hd, hvm⟩ := mem_disksFor.mp hd
    obtain ⟨hd', hvm'⟩ := mem_disksFor.mp hd'
    obtain rfl := List.inj_on_of_nodup_map h.names hd' hd htext
    exact hne (hvm.symm.trans hvm')

end Row

/-! ### The slots of an apply -/

/-- What the operator configured for the two backends. -/
structure Backends where
  vsphere : VSphere.Config := {}
  proxmox : Proxmox.Config := {}

variable (b : Backends)

/-- Where a call for machines attaches disks, if it comes to an apply on a backend that numbers
them. -/
def attached (row : Cluster) (e : Event) : Option (List ((String × String) × ℕ)) :=
  match e.call with
  | .ensureNodes net specs =>
    if row.infraProvider = providerVSphere then
      (VSphere.ensureVars b.vsphere row.id net specs).toOption.map fun v =>
        VSphere.attachments v.nodes
    else if row.infraProvider = providerProxmox then
      (Proxmox.ensureVars b.proxmox row.id net specs).toOption.map fun v =>
        Proxmox.attachments v.nodes
    else none
  | _ => none

def appliedSlots : Entry Cluster Event → Option (List ((String × String) × ℕ))
  | .did row e => attached b row e
  | .stored _ _ | .written _ _ => none

def latestSlots : History → List ((String × String) × ℕ)
  | [] => []
  | e :: log => (appliedSlots b e).getD (latestSlots log)

def WantsDisk (c : Cluster) (k : String × String) : Prop :=
  ∃ d ∈ c.nodeDisks, d.key = k ∧ d.phase ≠ .removing

instance (c : Cluster) (k : String × String) : Decidable (WantsDisk c k) :=
  inferInstanceAs (Decidable (∃ d ∈ c.nodeDisks, _))

/-- The row an entry leaves, if it changes the row. -/
def rowLeft : Entry Cluster Event → Option Cluster
  | .did _ _ => none
  | .stored _ new | .written _ new => some new

/-- Every row since the latest apply wants the disk. -/
def WantedSince (k : String × String) : History → Prop
  | [] => True
  | e :: log =>
    (appliedSlots b e).isSome ∨ (∀ c ∈ rowLeft e, WantsDisk c k) ∧ WantedSince k log

instance WantedSince.decidable (k : String × String) :
    ∀ log : History, Decidable (WantedSince b k log)
  | [] => inferInstanceAs (Decidable True)
  | e :: log =>
    haveI := WantedSince.decidable k log
    inferInstanceAs (Decidable ((appliedSlots b e).isSome ∨ (∀ c ∈ rowLeft e, WantsDisk c k) ∧
      WantedSince b k log))

/-- **Disks keep their slots** in an apply: one that was attached at the latest apply, and wanted
ever since, is attached at the same slot. -/
def SlotsKept : Entry Cluster Event → History → Prop
  | .did row e, log => ∀ slots ∈ attached b row e, ∀ p ∈ latestSlots b log,
    WantsDisk row p.1 → WantedSince b p.1 log → p ∈ slots
  | _, _ => True

instance : ∀ (e : Entry Cluster Event) (log : History), Decidable (SlotsKept b e log)
  | .did row e, _ => inferInstanceAs (Decidable (∀ slots ∈ attached b row e, _))
  | .stored _ _, _ | .written _ _, _ => inferInstanceAs (Decidable True)

/-- **Disks of one machine are at different slots** in an apply, and each at one. -/
def SlotsApart : Entry Cluster Event → History → Prop
  | .did row e, _ => ∀ slots ∈ attached b row e, ∀ p ∈ slots, ∀ q ∈ slots, p.1.1 = q.1.1 →
    (p.2 = q.2 ↔ p.1 = q.1)
  | _, _ => True

/-! ### The condition -/

/-- Of the disks of a machine those to be removed come last by name. -/
def RemovesLast (c : Cluster) : Prop :=
  ∀ d ∈ c.nodeDisks, d.phase = .removing → ∀ e ∈ c.nodeDisks, e.vmName = d.vmName →
    d.name < e.name → e.phase = .removing

instance (c : Cluster) : Decidable (RemovesLast c) :=
  inferInstanceAs (Decidable (∀ d ∈ c.nodeDisks, _))

/-- **Disks come and go in the order of names**: a disk is added under a name after those of all
disks of its machine, and when an update runs the disks to be removed are the last ones. -/
def InNameOrder (s : State Cluster Event) : Input Env (Admission × Mutation) → Prop
  | .write (_, .addNodeDisk req) =>
    ∀ d ∈ s.row.nodeDisks, d.vmName = req.vmName → d.name < req.name
  | .tick _ => s.copy = none → s.row.phase = .updating → RemovesLast s.row
  | _ => True

instance (s : State Cluster Event) (i) : Decidable (InNameOrder s i) := by
  rcases i with _ | _ | _ | ⟨_, _ | _ | _ | _ | _ | _⟩ <;> unfold InNameOrder <;> infer_instance

/-! ### Ranks do not change -/

section Ranks

variable {b} {a : App} {adm : Admission} {m : Mutation} {r : Reconciler} {c c' : Cluster}
  {k : String × String}

private theorem diskRank_congr {disks disks' : List NodeDisk}
    (h : disks'.map (·.key) = disks.map (·.key)) (k : String × String) :
    diskRank disks' k = diskRank disks k := by
  have hrank (l : List NodeDisk) :
      diskRank l k = ((l.map (·.key)).filter (·.1 == k.1)).countP (·.2 < k.2) := by
    rw [diskRank, List.filter_map, List.countP_map]
    rfl
  rw [hrank, h, ← hrank]

private theorem diskRank_released (h : RemovesLast c)
    (hk : k ∈ (c.nodeDisks.filter (·.phase != DiskPhase.removing)).map (·.key)) :
    diskRank (c.nodeDisks.filter (·.phase != DiskPhase.removing)) k = diskRank c.nodeDisks k := by
  obtain ⟨e, he, rfl⟩ := List.mem_map.mp hk
  obtain ⟨he, hstays⟩ := List.mem_filter.mp he
  rw [diskRank, diskRank, List.filter_filter, List.countP_filter, List.countP_filter]
  refine List.countP_congr fun d hd => ?_
  have hphase : d.vmName = e.vmName → d.name < e.name → d.phase ≠ .removing := by
    intro hvm hname hremoving
    exact absurd (h d hd hremoving e he hvm.symm hname) (by simpa using hstays)
  simp only [NodeDisk.key, Bool.and_eq_true, beq_iff_eq, bne_iff_ne]
  constructor
  · rintro ⟨hname, hvm, -⟩
    exact ⟨hname, hvm⟩
  · rintro ⟨hname, hvm⟩
    exact ⟨hname, hvm, hphase hvm (of_decide_eq_true hname)⟩

private theorem diskRank_asksRow (h : c.phase = .updating → RemovesLast c)
    (hk : k ∈ (asksRow c).nodeDisks.map (·.key)) :
    diskRank (asksRow c).nodeDisks k = diskRank c.nodeDisks k := by
  by_cases hphase : c.phase = .updating
  · rw [asksRow, if_pos hphase] at hk ⊢
    exact diskRank_released (h hphase) hk
  · rw [asksRow_eq hphase]

private theorem Observed.map_key {old new : List NodeDisk} (h : Observed old new) :
    new.map (·.key) = old.map (·.key) := by
  obtain ⟨f, hf, rfl⟩ := h
  rw [List.map_map]
  exact List.map_congr_left fun d _ => hf.key d

private theorem TickStep.diskRank_eq {evs : List Event} (h : TickStep r c (some c') evs)
    (hlast : c.phase = .updating → RemovesLast c) (hk : k ∈ c'.nodeDisks.map (·.key)) :
    diskRank c'.nodeDisks k = diskRank c.nodeDisks k := by
  rcases h.observed with hall | ⟨hphase, hleft⟩
  · exact diskRank_congr hall.map_key k
  · rw [diskRank_congr hleft.map_key]
    exact diskRank_released (hlast hphase) (hleft.map_key ▸ hk)

/-- **By a mutation**: of a disk that both rows have. -/
private theorem diskRank_apply (hdisks : WellDisked c) (happly : a.apply adm m c = .ok (some c'))
    (hlast : ∀ req, m = .addNodeDisk req → ∀ d ∈ c.nodeDisks, d.vmName = req.vmName →
      d.name < req.name)
    (hk : k ∈ c.nodeDisks.map (·.key)) (hk' : k ∈ c'.nodeDisks.map (·.key)) :
    diskRank c'.nodeDisks k = diskRank c.nodeDisks k := by
  have hdisks' := hdisks.edit happly
  obtain ⟨d, hd, rfl⟩ := List.mem_map.mp hk
  cases edit_of_apply happly with
  | update addons hphase haddons hpools =>
    cases hpools with
    | keep => rfl
    | change ips hreq hwant =>
      obtain ⟨d', hd', hkey⟩ := List.mem_map.mp hk'
      have hstays := (List.filter_sublist.map _).subset (hdisks'.valid.on_worker d' hd')
      rw [(Prod.mk.inj hkey).1] at hstays
      rw [diskRank, diskRank, NodeDisk.key, hdisks.filter_disksAfterPools a.md5 hd hstays]
  | @addDisk req disk hphase hnew hkey =>
    have hout : ¬(disk.vmName = d.vmName ∧ disk.name < d.name) := by
      rintro ⟨hvm, hname⟩
      have hvm' : d.vmName = req.vmName := hvm.symm.trans (Prod.mk.inj hkey).1
      have hname' : disk.name = req.name := (Prod.mk.inj hkey).2
      exact lt_asymm hname (hname' ▸ hlast req rfl d hd hvm')
    rw [diskRank, diskRank, List.filter_append, List.countP_append, Nat.add_eq_left,
      List.countP_eq_zero]
    intro e he hname
    obtain ⟨he, hvm⟩ := List.mem_filter.mp he
    obtain rfl := List.mem_singleton.mp he
    exact hout ⟨by simpa [NodeDisk.key] using hvm, by simpa [NodeDisk.key] using hname⟩
  | removeDisk i hphase hi =>
    refine diskRank_congr (Keyed.map_modify_eq ?_ c.nodeDisks i) _
    exact fun _ => rfl
  | promote | values | delete => rfl

end Ranks

/-! ### Applies of a tick -/

section Applies

variable {b} {row c' : Cluster} {e : Event} {evs : List Event} {log : History}

private theorem asksRow_sublist (c : Cluster) : (asksRow c).nodeDisks.Sublist c.nodeDisks := by
  unfold asksRow
  split
  · exact List.filter_sublist
  · exact .refl _

private theorem mem_asksRow {c : Cluster} {d : NodeDisk} (hd : d ∈ c.nodeDisks)
    (hphase : d.phase ≠ .removing) : d ∈ (asksRow c).nodeDisks := by
  unfold asksRow
  split
  · exact List.mem_filter.mpr ⟨hd, by simpa using hphase⟩
  · exact hd

private theorem WellDisked.validDisks_asksRow (h : WellDisked row) :
    ValidDisks (workerNames (asksRow row)) (asksRow row).nodeDisks := by
  have hworkers : workerNames (asksRow row) = workerNames row := by
    unfold asksRow
    split <;> rfl
  rw [hworkers]
  exact h.valid.sublist (asksRow_sublist row)

/-- **Both backends attach the disks of the row** at the slots of their indexes. -/
private theorem mem_of_attached (hdisks : WellDisked row)
    (hasks : ∀ specs ∈ e.asked, specs.map (·.bare) = (nodeSpecs (asksRow row)).map (·.bare))
    {slots : List ((String × String) × ℕ)} (h : slots ∈ attached b row e)
    (p : (String × String) × ℕ) : p ∈ slots ↔ p ∈ diskSlots (asksRow row) := by
  obtain ⟨call, ok⟩ := e
  cases call with
  | ensureNodes net specs =>
    have hslots := scsiSlots_of_map_bare (hasks specs rfl)
    simp only [attached] at h
    split at h
    · obtain ⟨v, hv, rfl⟩ := Option.mem_map.mp h
      have hnames : (nodeVMNames (asksRow row)).Nodup := by
        rw [nodeVMNames_asksRow]
        exact nodup_nodeVMNames (poolNames_of_validateNodePools hdisks.pools)
      rw [VSphere.nodes_of_ensureVars (toOption_eq_some.mp hv), VSphere.mem_attachments, hslots]
      rw [hslots]
      exact nodup_text_diskSlots hdisks.validDisks_asksRow hnames
    · split at h
      · obtain ⟨v, hv, rfl⟩ := Option.mem_map.mp h
        rw [nodes_of_ensureVars (toOption_eq_some.mp hv), Proxmox.attachments_eq, hslots]
      · cases h
  | _ => cases h

private theorem slotsApart_did (hdisks : WellDisked row)
    (hasks : ∀ specs ∈ e.asked, specs.map (·.bare) = (nodeSpecs (asksRow row)).map (·.bare))
    (log : History) : SlotsApart b (.did row e) log := by
  intro slots hslots p hp q hq hvm
  rw [mem_of_attached hdisks hasks hslots] at hp hq
  constructor
  · intro hslot
    obtain ⟨d, i, hd, rfl⟩ := getElem?_of_mem_diskSlots hp
    obtain ⟨d', j, hd', rfl⟩ := getElem?_of_mem_diskSlots hq
    obtain rfl : i = j := Nat.succ.inj hslot
    rw [hvm, hd'] at hd
    rw [Option.some.inj hd]
  · intro hkey
    have hvalid := hdisks.validDisks_asksRow
    rw [((mem_diskSlots hvalid).mp hp).2, ((mem_diskSlots hvalid).mp hq).2, hkey]

/-- **The invariant**: a disk attached at the latest apply, and wanted since, is in the row and its
slot is its rank there. -/
def SlotsTracked (b : Backends) (row : Cluster) (log : History) : Prop :=
  ∀ p ∈ latestSlots b log, WantedSince b p.1 log →
    p.1 ∈ row.nodeDisks.map (·.key) ∧ p.2 = diskRank row.nodeDisks p.1 + 1

namespace SlotsTracked

theorem did (h : SlotsTracked b row log) (hdisks : WellDisked row)
    (hlast : row.phase = .updating → RemovesLast row)
    (hasks : ∀ specs ∈ e.asked, specs.map (·.bare) = (nodeSpecs (asksRow row)).map (·.bare)) :
    SlotsKept b (.did row e) log ∧ SlotsTracked b row (.did row e :: log) := by
  have hvalid := hdisks.validDisks_asksRow
  constructor
  · rintro slots hslots p hp ⟨d, hd, hkey, hphase⟩ hsince
    have hmem : p.1 ∈ (asksRow row).nodeDisks.map (·.key) :=
      List.mem_map.mpr ⟨d, mem_asksRow hd hphase, hkey⟩
    rw [mem_of_attached hdisks hasks hslots, mem_diskSlots hvalid, diskRank_asksRow hlast hmem]
    exact ⟨hmem, (h p hp hsince).2⟩
  · intro p hp hsince
    cases hatt : attached b row e with
    | none =>
      simp only [latestSlots, WantedSince, appliedSlots, hatt, rowLeft] at hp hsince
      exact h p hp (by simpa using hsince)
    | some slots =>
      simp only [latestSlots, appliedSlots, hatt, Option.getD_some] at hp
      rw [mem_of_attached hdisks hasks hatt, mem_diskSlots hvalid] at hp
      obtain ⟨hmem, hslot⟩ := hp
      rw [diskRank_asksRow hlast hmem] at hslot
      exact ⟨((asksRow_sublist row).map _).subset hmem, hslot⟩

theorem push (h : SlotsTracked b row log) (hdisks : WellDisked row)
    (hlast : row.phase = .updating → RemovesLast row)
    (hasks : ∀ e ∈ evs, ∀ specs ∈ e.asked,
      specs.map (·.bare) = (nodeSpecs (asksRow row)).map (·.bare))
    (hlog : Each (SlotsKept b) log) :
    Each (SlotsKept b) (push row evs log) ∧ SlotsTracked b row (push row evs log) := by
  induction evs generalizing log with
  | nil => exact ⟨hlog, h⟩
  | cons e evs ih =>
    obtain ⟨hkept, htracked⟩ := h.did hdisks hlast (hasks e List.mem_cons_self)
    exact ih htracked (fun e' he' => hasks e' (List.mem_cons_of_mem e he')) ⟨hkept, hlog⟩

theorem left (h : SlotsTracked b row log) {entry : Entry Cluster Event}
    (hleft : rowLeft entry = some c')
    (hrank : ∀ k ∈ row.nodeDisks.map (·.key), k ∈ c'.nodeDisks.map (·.key) →
      diskRank c'.nodeDisks k = diskRank row.nodeDisks k) :
    SlotsTracked b c' (entry :: log) := by
  intro p hp hsince
  have hnone : appliedSlots b entry = none := by
    cases entry <;> simp_all [rowLeft, appliedSlots]
  simp only [latestSlots, WantedSince, hnone, hleft, Option.getD_none, Option.isSome_none,
    Bool.false_eq_true, false_or, Option.mem_some_iff, forall_eq'] at hp hsince
  obtain ⟨⟨d, hd, hkey, -⟩, hsince⟩ := hsince
  obtain ⟨hold, hslot⟩ := h p hp hsince
  have hnew : p.1 ∈ c'.nodeDisks.map (·.key) := List.mem_map.mpr ⟨d, hd, hkey⟩
  exact ⟨hnew, by rw [hrank p.1 hold hnew, hslot]⟩

end SlotsTracked

end Applies

/-! ### Runs -/

private theorem slotsApart_run (P : Platform) {c : Cluster} (hc : WellDisked c)
    (is : Platform.Inputs) : Each (SlotsApart b) (P.run c is).log := by
  have hinv : WellDisked (P.run c is).row ∧ Each (SlotsApart b) (P.run c is).log := by
    refine Platform.run_invariant_apply (C := fun _ _ => True)
      (fun row log => WellDisked row ∧ Each (SlotsApart b) log) ?_ ?_ ⟨hc, trivial⟩
      (TransitionSystem.along_of_forall (fun _ _ => trivial) _)
    · rintro s ρ res evs ⟨hdisks, hlog⟩ - - hstep
      have hpush : Each (SlotsApart b) (push s.row evs s.log) :=
        each_push (fun e he log => slotsApart_did hdisks (hstep.map_bare_asked e he) log) hlog
      refine ⟨⟨hdisks, hpush⟩, ?_⟩
      rintro c' rfl
      exact ⟨hdisks.tick hstep, trivial, hpush⟩
    · rintro s k c' ⟨hdisks, hlog⟩ - happly
      exact ⟨hdisks.edit happly, trivial, hlog⟩
  exact hinv.2

/-- **The slots of disks** in every run of a cluster: one apply tells the disks of a machine apart,
and where disks come and go in the order of names every disk keeps its slot. -/
theorem slots_kept (b : Backends) (P : Platform) (adm : CreateAdmission) (req : CreateRequest)
    (c : Cluster) (hc : P.app.createCluster adm req = .ok c) (is : Platform.Inputs) :
    Each (SlotsApart b) (P.run c is).log ∧
    (P.Along InNameOrder c is → Each (SlotsKept b) (P.run c is).log) := by
  refine ⟨slotsApart_run b P (WellDisked.create hc) is, fun horder => ?_⟩
  have hinv : WellDisked (P.run c is).row ∧ SlotsTracked b (P.run c is).row (P.run c is).log ∧
      Each (SlotsKept b) (P.run c is).log := by
    refine Platform.run_invariant_apply
      (fun row log => WellDisked row ∧ SlotsTracked b row log ∧ Each (SlotsKept b) log) ?_ ?_
      ⟨WellDisked.create hc, by simp [SlotsTracked, latestSlots], trivial⟩ horder
    · rintro s ρ res evs ⟨hdisks, htracked, hlog⟩ hidle hlast hstep
      have hlast := hlast hidle
      obtain ⟨hkept, htracked⟩ := htracked.push hdisks hlast hstep.map_bare_asked hlog
      refine ⟨⟨hdisks, htracked, hkept⟩, ?_⟩
      rintro c' rfl
      refine ⟨hdisks.tick hstep, htracked.left rfl fun k _ => ?_, trivial, hkept⟩
      exact hstep.diskRank_eq hlast
    · rintro s ⟨adm', m⟩ c' ⟨hdisks, htracked, hlog⟩ horder happly
      refine ⟨hdisks.edit happly, htracked.left rfl fun k => ?_, trivial, hlog⟩
      refine diskRank_apply hdisks happly fun req hreq => ?_
      subst hreq
      exact horder
  exact hinv.2.2

/-- What a deployment on this provider, with a network of its own, admits. -/
private def onProvider (provider : String) : CreateAdmission where
  id := "1"
  ownerID := "alice"
  infraProviders := [provider]
  addressing := fun _ => .ok { networkName := "lan", ipMode := "dhcp" }

/-- A cluster with one worker, which has its platform disk. -/
private def storageRow (provider : String) : Cluster :=
  (((addonPlatform ["longhorn"]).app.createCluster (onProvider provider)
    (pooledRequest [smallPool "a" 1])).toOption).getD {}

private theorem createCluster_storageRow {provider : String}
    (h : ((addonPlatform ["longhorn"]).app.createCluster (onProvider provider)
      (pooledRequest [smallPool "a" 1])).toOption.isSome = true) :
    (addonPlatform ["longhorn"]).app.createCluster (onProvider provider)
      (pooledRequest [smallPool "a" 1]) = .ok (storageRow provider) :=
  eq_ok_getD h {}

/-- The worker gets a disk of this name, and an update attaches it. -/
private def attachRun (name : String) : Platform.Inputs :=
  bringUpRun ++
    submit (.addNodeDisk { vmName := "demo-a-0", name := name, sizeGB := 10 }) ++ pass {} ++ pass {}

/-- A disk is added after the platform's, and removed. -/
private def attachDetachRun : Platform.Inputs :=
  attachRun "temp" ++ submit (.removeNodeDisk "demo-a-0" "temp") ++ pass {} ++ pass {}

theorem slots_kept_attachDetach :
    latestSlots {} ((addonPlatform ["longhorn"]).run (storageRow providerVSphere)
      (attachRun "temp")).log = [(("demo-a-0", "temp"), 2), (("demo-a-0", "storage"), 1)] ∧
    latestSlots {} ((addonPlatform ["longhorn"]).run (storageRow providerVSphere)
      attachDetachRun).log = [(("demo-a-0", "storage"), 1)] ∧
    Each (SlotsKept {}) ((addonPlatform ["longhorn"]).run (storageRow providerVSphere)
      attachDetachRun).log :=
  ⟨by decide +kernel, by decide +kernel,
    (slots_kept {} (addonPlatform ["longhorn"]) (onProvider providerVSphere)
      (pooledRequest [smallPool "a" 1]) (storageRow providerVSphere)
      (createCluster_storageRow (by decide +kernel)) attachDetachRun).2 (by decide +kernel)⟩

/-- **A disk moves**: one added under a smaller name takes the slot of the platform's disk, on
either backend. -/
theorem slot_moved :
    ((addonPlatform ["longhorn"]).app.createCluster (onProvider providerVSphere)
        (pooledRequest [smallPool "a" 1]) = .ok (storageRow providerVSphere) ∧
      latestSlots {} ((addonPlatform ["longhorn"]).run (storageRow providerVSphere)
        bringUpRun).log = [(("demo-a-0", "storage"), 1)] ∧
      latestSlots {} ((addonPlatform ["longhorn"]).run (storageRow providerVSphere)
        (attachRun "data")).log = [(("demo-a-0", "storage"), 2), (("demo-a-0", "data"), 1)] ∧
      ¬Each (SlotsKept {}) ((addonPlatform ["longhorn"]).run (storageRow providerVSphere)
        (attachRun "data")).log) ∧
    (addonPlatform ["longhorn"]).app.createCluster (onProvider providerProxmox)
        (pooledRequest [smallPool "a" 1]) = .ok (storageRow providerProxmox) ∧
      ¬Each (SlotsKept {}) ((addonPlatform ["longhorn"]).run (storageRow providerProxmox)
        (attachRun "data")).log := by
  refine ⟨⟨createCluster_storageRow (by decide +kernel), ?_, ?_, ?_⟩,
    createCluster_storageRow (by decide +kernel), ?_⟩
  · decide +kernel
  · decide +kernel
  · decide +kernel
  · decide +kernel

end KaaS
