import KaaS.Library.Assoc
import KaaS.Library.Effect
import KaaS.Library.Run
import KaaS.Reconcile.Nodes

/-!
# Extra disks on libvirt

OpenTofu owns the **volumes** of extra disks: an apply deletes the volume of a disk that is no
longer desired and creates that of a new one. It does not own the attachments of a live machine;
those are made and undone with `virsh`, around the apply. A removed disk has to be detached before.

What is attached is found out by probing: the output of the last apply says which disks there were,
and the XML of a domain which of them it has. **A probe that fails is skipped**, as if there were
nothing to detach, and the apply goes ahead.

A disk is known to a domain by its world-wide name. A domain of this platform holds each disk under
the name of that disk, and once, after every run of calls (`faithful_run`). So a call that sees what
it has to see deletes nothing that is attached (`detached_before_apply`).
-/

namespace KaaS

open Effect Text

/-! ### The hypervisor -/

/-- A disk in the XML of a domain. Of the root disk and the CD-ROM neither the name nor the volume
matters; the volume of an extra disk is named after the machine and the disk. -/
structure AttachedDisk where
  target : String
  wwn : String := ""
  volume : Option (String × String) := none
  deriving DecidableEq

abbrev LibvirtDomain := List AttachedDisk

/-- The volumes of extra disks, and the domains by the machine they back. -/
structure Hypervisor where
  volumes : List (String × String) := []
  domain : String → Option LibvirtDomain := fun _ => none

/-- The volume is attached to the domain of the machine. -/
def Hypervisor.attached (H : Hypervisor) (node : String) (volume : String × String) : Bool :=
  ((H.domain node).getD []).any (·.volume == some volume)

def Hypervisor.modify (H : Hypervisor) (node : String) (f : LibvirtDomain → LibvirtDomain) :
    Hypervisor :=
  { H with domain := fun n => if n = node then (H.domain n).map f else H.domain n }

/-- The two spellings of a world-wide name are one. -/
def normalizeWWN (s : String) : String :=
  let t := (trimSpace s).toLower
  if hasPrefix t "0x" then String.ofList (t.toList.drop 2) else t

/-- The targets of the disks that have a world-wide name; of two that have the same, the later one
counts. -/
def LibvirtDomain.byWWN (dom : LibvirtDomain) : AList fun _ : String => String :=
  (dom.filter (·.wwn != "")).foldl (fun m disk => m.insert (normalizeWWN disk.wwn) disk.target) ∅

def LibvirtDomain.usedTargets (dom : LibvirtDomain) : List String :=
  (dom.map (·.target)).filter (· != "")

def freeTarget (used : List String) : String :=
  (("abcdefghijklmnopqrstuvwxyz".toList.map fun ch => "sd" ++ ch.toString).find?
    (!used.contains ·)).getD "sdz"

/-! ### The answers of one call -/

inductive DomainFate
  | kept | gone | fresh
  deriving DecidableEq

/-- An apply succeeds, rebuilding some of the machines there are, or it stops with volumes and
domains somewhere in between. -/
inductive ApplyOutcome
  | done (rebuilds : String → Bool)
  | failed (error : String) (volumes : List (String × String)) (fate : String → DomainFate)

/-- How probes and commands end. An output that can be read lists disks of the module, but after an
apply that failed not necessarily those there are. -/
structure LibvirtAnswers where
  output : Except String (List (String × String)) := .ok []
  domainDisks : String → Option String := fun _ => none
  detachDisk : String → String → Option String := fun _ _ => none
  apply : ApplyOutcome := .done fun _ => false
  outputAfter : Except String (List (String × String)) := .ok []
  domainDisksAfter : String → Option String := fun _ => none
  attachDisk : String → String → Option String := fun _ _ => none

/-! ### The calls -/

def specDisks (specs : List NodeSpec) (node : String) : List DiskSpec :=
  ((specs.reverse.find? (·.vmName == node)).map (·.disks)).getD []

def desiredVolumes (specs : List NodeSpec) : List (String × String) :=
  specs.flatMap fun s => s.disks.map fun d => (s.vmName, d.name)

def desiredWWNs (specs : List NodeSpec) (node : String) : List String :=
  (specDisks specs node).map fun d => normalizeWWN d.wwn

def Hypervisor.doomed (H : Hypervisor) (specs : List NodeSpec) : List (String × String) :=
  H.volumes.filter fun v => !(desiredVolumes specs).contains v

/-- The machines of an output, in the order in which they are visited. -/
def outputNodes (disks : List (String × String)) : List String :=
  sorted (disks.map (·.1)).eraseDups

/-- A cluster on a hypervisor: its disks get their world-wide names from its id. -/
structure Libvirt where
  md5 : String → String
  clusterID : String

namespace Libvirt

variable (L : Libvirt)

/-- The world-wide name of a disk of the module. -/
def wwn (volume : String × String) : String := newDiskWWN L.md5 L.clusterID volume.1 volume.2

abbrev Run := EStateM String Hypervisor

section Detach

variable (o : LibvirtAnswers)

/-- Detach one disk from a machine whose targets are known. -/
def detachOne (node : String) (targets : AList fun _ : String => String) (d : String × String) :
    Run Unit :=
  match targets.lookup (normalizeWWN (L.wwn d)) with
  | none => pure ()
  | some target =>
    match o.detachDisk node target with
    | some e => throw ("detach disk " ++ quote d.2 ++ " from " ++ node ++ ": " ++ e)
    | none => modify (·.modify node fun dom => dom.filter (·.target != target))

/-- Detach what a machine had and no longer should have. A domain that is gone or cannot be read is
passed over. -/
def detachStale (node : String) (stale : List (String × String)) : Run Unit := do
  let H ← get
  match H.domain node, o.domainDisks node with
  | some dom, none => stale.forM (L.detachOne o node dom.byWWN)
  | _, _ => pure ()

/-- What the last apply left on a machine and the call no longer wants there. -/
def stale (prev : List (String × String)) (specs : List NodeSpec) (node : String) :
    List (String × String) :=
  prev.filter fun d => d.1 == node && !(desiredWWNs specs node).contains (normalizeWWN (L.wwn d))

/-- Before the apply. An output that cannot be read counts as an empty one. -/
def detachRemovedDisks (specs : List NodeSpec) : Run Unit :=
  match o.output with
  | .error _ => pure ()
  | .ok prev => (outputNodes prev).forM fun node =>
      L.detachStale o node (L.stale prev specs node)

end Detach

section Attach

variable (o : LibvirtAnswers)

/-- Attach a disk that the domain does not have yet, at a target that is free. -/
def attachOne (node : String) (d : String × String) : Run Unit := do
  let H ← get
  let dom := (H.domain node).getD []
  if normalizeWWN (L.wwn d) ∈ dom.byWWN then pure ()
  else
    match o.attachDisk node (freeTarget dom.usedTargets) with
    | some e => throw ("attach disk " ++ quote d.2 ++ " to " ++ node ++ ": " ++ e)
    | none => modify (·.modify node (· ++ [⟨freeTarget dom.usedTargets, L.wwn d, some d⟩]))

def attachNode (cur : List (String × String)) (node : String) : Run Unit := do
  let H ← get
  match H.domain node, o.domainDisksAfter node with
  | some _, none =>
    ((cur.filter (·.1 == node)).insertionSort fun a b => a.2 ≤ b.2).forM (L.attachOne o node)
  | _, _ => pure ()

def attachNewDisks : Run Unit :=
  match o.outputAfter with
  | .error e => throw e
  | .ok cur => (outputNodes cur).forM (L.attachNode o cur)

end Attach

/-- The extra disks that the module declares for a new domain. -/
def declaredDisks (s : NodeSpec) : List AttachedDisk :=
  s.disks.mapIdx fun i d =>
    ⟨"sd" ++ String.ofList (("bcdefghijklmnopqrstuvwxyz".toList.drop i).take 1), d.wwn,
      some (s.vmName, d.name)⟩

/-- A new domain: the root disk, the CD-ROM and every extra disk of the machine. -/
def newDomain (s : NodeSpec) : LibvirtDomain :=
  [⟨"vda", "", none⟩, ⟨"sda", "", none⟩] ++ declaredDisks s

/-- The domains once each machine has met its fate. -/
def settle (specs : List NodeSpec) (fate : String → DomainFate) (H : Hypervisor) (node : String) :
    Option LibvirtDomain :=
  match fate node with
  | .kept => H.domain node
  | .gone => none
  | .fresh => (specs.find? (·.vmName == node)).map newDomain

/-- What an apply does. A machine there is keeps its disks, unless it is rebuilt. -/
def apply (o : LibvirtAnswers) (specs : List NodeSpec) : Run Unit := fun H =>
  match o.apply with
  | .done rebuilds =>
    let fate (node : String) : DomainFate :=
      if !(specs.map (·.vmName)).contains node then .gone
      else if (H.domain node).isSome && !rebuilds node then .kept
      else .fresh
    .ok () { volumes := desiredVolumes specs, domain := settle specs fate H }
  | .failed e volumes fate => .error e { volumes := volumes, domain := settle specs fate H }

/-- **One call**, from where the variables are written. -/
def ensureNodes (o : LibvirtAnswers) (specs : List NodeSpec) : Run Unit := do
  L.detachRemovedDisks o specs
  apply o specs
  L.attachNewDisks o

/-- The hypervisor after a call, however it ends. -/
def step (H : Hypervisor) (i : List NodeSpec × LibvirtAnswers) : Hypervisor :=
  match L.ensureNodes i.2 i.1 H with
  | .ok _ H' => H'
  | .error _ H' => H'

/-! ### What a domain holds -/

/-- A domain of the machine holds each extra disk under the disk's own name, and no name twice. -/
structure FaithfulDomain (node : String) (dom : LibvirtDomain) : Prop where
  named : ∀ disk ∈ dom, ∀ v, disk.volume = some v → v.1 = node ∧ disk.wwn = L.wwn v
  nodup : ((dom.filter (·.wwn != "")).map fun disk => normalizeWWN disk.wwn).Nodup

def Faithful (H : Hypervisor) : Prop :=
  ∀ node dom, H.domain node = some dom → L.FaithfulDomain node dom

/-- The specifications that a call is made with: each disk has its own world-wide name, and no two
of a machine have the same. -/
def SpecsNamed (specs : List NodeSpec) : Prop :=
  ∀ s ∈ specs, (∀ d ∈ s.disks, d.wwn = L.wwn (s.vmName, d.name)) ∧
    (s.disks.map fun d => normalizeWWN d.wwn).Nodup

instance (specs : List NodeSpec) : Decidable (L.SpecsNamed specs) :=
  inferInstanceAs (Decidable (∀ s ∈ specs, _))

/-- Domains that have lost some of their disks, or none. -/
structure Shrinks (H H' : Hypervisor) : Prop where
  volumes : H'.volumes = H.volumes
  domain : ∀ node dom', H'.domain node = some dom' →
    ∃ dom, H.domain node = some dom ∧ dom'.Sublist dom

section Faithful

variable {L} {o : LibvirtAnswers} {specs : List NodeSpec} {H H' : Hypervisor} {node : String}
  {dom dom' : LibvirtDomain} {v : String × String}

theorem wwn_ne_empty (v : String × String) : L.wwn v ≠ "" := by
  simp [wwn, newDiskWWN]

theorem FaithfulDomain.sublist (h : L.FaithfulDomain node dom) (hsub : dom'.Sublist dom) :
    L.FaithfulDomain node dom' :=
  ⟨fun disk hdisk => h.named disk (hsub.subset hdisk), ((hsub.filter _).map _).nodup h.nodup⟩

theorem Shrinks.refl (H : Hypervisor) : Shrinks H H := ⟨rfl, fun _ dom h => ⟨dom, h, .refl _⟩⟩

theorem Shrinks.trans {H'' : Hypervisor} (h : Shrinks H H') (h' : Shrinks H' H'') :
    Shrinks H H'' := by
  refine ⟨h'.volumes.trans h.volumes, fun node dom'' hdom'' => ?_⟩
  obtain ⟨dom', hdom', hsub'⟩ := h'.domain node dom'' hdom''
  obtain ⟨dom, hdom, hsub⟩ := h.domain node dom' hdom'
  exact ⟨dom, hdom, hsub'.trans hsub⟩

theorem Faithful.shrinks (h : L.Faithful H) (hs : Shrinks H H') : L.Faithful H' := by
  intro node dom' hdom'
  obtain ⟨dom, hdom, hsub⟩ := hs.domain node dom' hdom'
  exact (h node dom hdom).sublist hsub

theorem shrinks_detach (H : Hypervisor) (node target : String) :
    Shrinks H (H.modify node fun dom => dom.filter (·.target != target)) := by
  refine ⟨rfl, fun n dom' hdom' => ?_⟩
  simp only [Hypervisor.modify] at hdom'
  split at hdom'
  · obtain ⟨dom, hdom, rfl⟩ := Option.map_eq_some_iff.mp hdom'
    exact ⟨dom, hdom, List.filter_sublist⟩
  · exact ⟨dom', hdom', .refl _⟩

/-- **A disk is found by its name**, with its target. -/
theorem FaithfulDomain.lookup_byWWN (h : L.FaithfulDomain node dom) {disk : AttachedDisk}
    (hdisk : disk ∈ dom) (hv : disk.volume = some v) :
    dom.byWWN.lookup (normalizeWWN (L.wwn v)) = some disk.target := by
  have hwwn := (h.named disk hdisk v hv).2
  have hmem : disk ∈ dom.filter (·.wwn != "") :=
    List.mem_filter.mpr ⟨hdisk, by simp [hwwn, wwn_ne_empty]⟩
  have hsame : ∀ y ∈ dom.filter (·.wwn != ""),
      normalizeWWN y.wwn = normalizeWWN disk.wwn → y.target = disk.target := fun y hy hname =>
    congrArg (·.target) (List.inj_on_of_nodup_map h.nodup hy hmem hname)
  rw [← hwwn]
  exact AList.lookup_foldl_insert hmem hsame ∅

theorem attached_iff : H.attached node v = true ↔
    ∃ dom, H.domain node = some dom ∧ ∃ disk ∈ dom, disk.volume = some v := by
  simp only [Hypervisor.attached, List.any_eq_true, beq_iff_eq]
  constructor
  · rintro ⟨disk, hdisk, hv⟩
    cases hdom : H.domain node with
    | none => simp [hdom] at hdisk
    | some dom =>
      rw [hdom, Option.getD_some] at hdisk
      exact ⟨dom, rfl, disk, hdisk, hv⟩
  · rintro ⟨dom, hdom, disk, hdisk, hv⟩
    exact ⟨disk, by rwa [hdom, Option.getD_some], hv⟩

theorem Shrinks.attached (h : Shrinks H H') (hatt : H'.attached node v = true) :
    H.attached node v = true := by
  obtain ⟨dom', hdom', disk, hdisk, hv⟩ := attached_iff.mp hatt
  obtain ⟨dom, hdom, hsub⟩ := h.domain node dom' hdom'
  exact attached_iff.mpr ⟨dom, hdom, disk, hsub.subset hdisk, hv⟩

end Faithful

/-! ### Before the apply -/

section Detach

variable {L} {o : LibvirtAnswers} {specs : List NodeSpec} {H H₀ : Hypervisor} {node : String}

/-- **One machine**: if its domain can be read, what is stale is not attached afterwards. -/
theorem wp_detachStale (hfaithful : L.Faithful H) (stale : List (String × String)) :
    wp (L.detachStale o node stale)
      (fun _ H' => Shrinks H H' ∧
        (o.domainDisks node = none → ∀ v ∈ stale, H'.attached node v = false))
      (fun _ H' => Shrinks H H') H := by
  simp only [detachStale, wp_bind, wp_get]
  split
  · rename_i dom hdom hprobe
    -- after the disks before it, no disk of a machine is left at the target of one of them
    refine wp_mono (wp_forM (E := fun _ H' => Shrinks H H') (fun pre H' => Shrinks H H' ∧
      ∀ v ∈ pre, ∀ target, dom.byWWN.lookup (normalizeWWN (L.wwn v)) = some target →
        ∀ dom', H'.domain node = some dom' → ∀ disk ∈ dom', disk.target ≠ target) ?_
      ⟨.refl H, by simp⟩) (fun _ H' h => ⟨h.1, fun _ v hv => ?_⟩) (fun _ _ => id)
    · rintro pre v post H₁ - ⟨hshrinks, hpre⟩
      have hadd {H₂ : Hypervisor} (hshrinks₂ : Shrinks H₁ H₂)
          (hv : ∀ target, dom.byWWN.lookup (normalizeWWN (L.wwn v)) = some target →
            ∀ dom', H₂.domain node = some dom' → ∀ disk ∈ dom', disk.target ≠ target) :
          Shrinks H H₂ ∧ ∀ u ∈ pre ++ [v], ∀ target,
            dom.byWWN.lookup (normalizeWWN (L.wwn u)) = some target →
            ∀ dom', H₂.domain node = some dom' → ∀ disk ∈ dom', disk.target ≠ target := by
        refine ⟨hshrinks.trans hshrinks₂, fun u hu target htarget dom' hdom' disk hdisk => ?_⟩
        rcases List.mem_append.mp hu with hu | hu
        · obtain ⟨dom₁, hdom₁, hsub⟩ := hshrinks₂.domain node dom' hdom'
          exact hpre u hu target htarget dom₁ hdom₁ disk (hsub.subset hdisk)
        · obtain rfl := List.mem_singleton.mp hu
          exact hv target htarget dom' hdom' disk hdisk
      unfold detachOne
      split
      · rename_i hnone
        exact hadd (.refl H₁) (by simp [hnone])
      · rename_i target htarget
        split
        · exact hshrinks
        · refine hadd (shrinks_detach H₁ node target) ?_
          rintro target' htarget' dom' hdom' disk hdisk rfl
          obtain rfl : target = disk.target := Option.some.inj (htarget.symm.trans htarget')
          simp only [Hypervisor.modify, if_true, Option.map_eq_some_iff] at hdom'
          obtain ⟨dom₁, -, rfl⟩ := hdom'
          simp at hdisk
    · rw [Bool.eq_false_iff, ne_eq, attached_iff]
      rintro ⟨dom', hdom', disk, hdisk, hvol⟩
      obtain ⟨dom₀, hdom₀, hsub⟩ := h.1.domain node dom' hdom'
      obtain rfl : dom₀ = dom := Option.some.inj (hdom₀.symm.trans hdom)
      have hlookup := (hfaithful node dom₀ hdom).lookup_byWWN (hsub.subset hdisk) hvol
      exact h.2 v hv _ hlookup dom' hdom' disk hdisk rfl
  · refine ⟨.refl H, fun hprobe v hv => ?_⟩
    rename_i hnot
    cases hdom : H.domain node with
    | none => simp [Hypervisor.attached, hdom]
    | some dom => exact (hnot dom hdom hprobe).elim

theorem mem_outputNodes {disks : List (String × String)} :
    node ∈ outputNodes disks ↔ ∃ v ∈ disks, v.1 = node := by
  rw [outputNodes, sorted, List.mem_insertionSort, List.mem_eraseDups, List.mem_map]

/-- **The pass before the apply**: what is listed, stale and on a domain that can be read is not
attached afterwards. -/
theorem wp_detachRemovedDisks (hfaithful : L.Faithful H) :
    wp (L.detachRemovedDisks o specs)
      (fun _ H' => Shrinks H H' ∧ ∀ prev ∈ o.output.toOption, ∀ v ∈ prev,
        normalizeWWN (L.wwn v) ∉ desiredWWNs specs v.1 → o.domainDisks v.1 = none →
          H'.attached v.1 v = false)
      (fun _ H' => Shrinks H H') H := by
  unfold detachRemovedDisks
  cases o.output with
  | error e => exact ⟨.refl H, by simp [Except.toOption]⟩
  | ok prev =>
    refine wp_mono (wp_forM (E := fun _ H' => Shrinks H H') (fun pre H' => Shrinks H H' ∧
      ∀ node ∈ pre, o.domainDisks node = none → ∀ v ∈ L.stale prev specs node,
        H'.attached node v = false) ?_ ⟨.refl H, by simp⟩) (fun _ H' h => ⟨h.1, ?_⟩) (fun _ _ => id)
    · rintro pre node post H₁ - ⟨hshrinks, hpre⟩
      refine wp_mono (wp_detachStale (hfaithful.shrinks hshrinks) _) ?_
        (fun _ _ h => hshrinks.trans h)
      rintro _ H₂ ⟨hshrinks₂, hnode⟩
      refine ⟨hshrinks.trans hshrinks₂, fun n hn hprobe v hv => ?_⟩
      rcases List.mem_append.mp hn with hn | hn
      · -- what is gone from a machine visited before stays so
        by_contra hatt
        have hbefore := hshrinks₂.attached (Bool.eq_true_of_not_eq_false hatt)
        rw [hpre n hn hprobe v hv] at hbefore
        exact Bool.false_ne_true hbefore
      · obtain rfl := List.mem_singleton.mp hn
        exact hnode hprobe v hv
    · intro prev' hprev' v hv hstale hprobe
      obtain rfl : prev = prev' := Option.some.inj hprev'
      refine h.2 v.1 (mem_outputNodes.mpr ⟨v, hv, rfl⟩) hprobe v (List.mem_filter.mpr ⟨hv, ?_⟩)
      simpa using hstale

/-- **A call sees what it has to see**: every volume that the apply will delete is listed in the
output, its domain, if there is one, can be read, and no disk desired on the machine has its
world-wide name. -/
structure Sees (L : Libvirt) (o : LibvirtAnswers) (specs : List NodeSpec) (H : Hypervisor) :
    Prop where
  output : ∀ v ∈ H.doomed specs, ∃ prev ∈ o.output.toOption, v ∈ prev
  readable : ∀ v ∈ H.doomed specs, (H.domain v.1).isSome → o.domainDisks v.1 = none
  distinct : ∀ v ∈ H.doomed specs, normalizeWWN (L.wwn v) ∉ desiredWWNs specs v.1

theorem Sees.detached (hsees : L.Sees o specs H) (hfaithful : L.Faithful H) :
    wp (L.detachRemovedDisks o specs)
      (fun _ H' => ∀ v ∈ H'.doomed specs, ∀ node, H'.attached node v = false)
      (fun _ _ => True) H := by
  refine wp_mono (wp_detachRemovedDisks hfaithful) ?_ (fun _ _ _ => trivial)
  rintro _ H' ⟨hshrinks, hgone⟩ v hv node
  rw [Hypervisor.doomed, hshrinks.volumes] at hv
  by_contra hatt
  have hatt := Bool.eq_true_of_not_eq_false hatt
  obtain ⟨dom, hdom, disk, hdisk, hvol⟩ := attached_iff.mp (hshrinks.attached hatt)
  -- it is the domain of the disk's own machine
  obtain rfl := ((hfaithful node dom hdom).named disk hdisk v hvol).1
  obtain ⟨prev, hprev, hlisted⟩ := hsees.output v hv
  rw [hgone prev hprev v hlisted (hsees.distinct v hv)
    (hsees.readable v hv (by rw [hdom]; rfl))] at hatt
  exact Bool.false_ne_true hatt

end Detach

/-! ### Runs -/

section Runs

variable {L} {o : LibvirtAnswers} {specs : List NodeSpec} {H : Hypervisor} {node : String}

theorem faithfulDomain_newDomain {s : NodeSpec} (h : L.SpecsNamed specs) (hs : s ∈ specs) :
    L.FaithfulDomain s.vmName (newDomain s) := by
  obtain ⟨hwwn, hnodup⟩ := h s hs
  constructor
  · intro disk hdisk v hv
    rcases List.mem_append.mp hdisk with hdisk | hdisk
    · simp only [List.mem_cons, List.not_mem_nil, or_false] at hdisk
      rcases hdisk with rfl | rfl <;> simp at hv
    · obtain ⟨i, hi, rfl⟩ := List.mem_mapIdx.mp hdisk
      obtain rfl : (s.vmName, s.disks[i].name) = v := Option.some.inj hv
      exact ⟨rfl, hwwn _ (List.getElem_mem hi)⟩
  · -- of the disks that a domain always has, none has a name
    have hextra : (newDomain s).filter (·.wwn != "") =
        (declaredDisks s).filter (·.wwn != "") := by
      simp [newDomain]
    rw [hextra]
    refine (List.filter_sublist.map _).nodup (Eq.mpr (congrArg List.Nodup ?_) hnodup)
    exact List.ext_getElem (by simp [declaredDisks]) fun i _ _ => by simp [declaredDisks]

theorem Faithful.settle (h : L.Faithful H) (hspecs : L.SpecsNamed specs)
    (fate : String → DomainFate) (volumes : List (String × String)) :
    L.Faithful { volumes := volumes, domain := settle specs fate H } := by
  intro node dom hdom
  simp only [Libvirt.settle] at hdom
  split at hdom
  · exact h node dom hdom
  · simp at hdom
  · obtain ⟨s, hs, rfl⟩ := Option.map_eq_some_iff.mp hdom
    obtain rfl : s.vmName = node := by simpa using List.find?_some hs
    exact faithfulDomain_newDomain hspecs (List.mem_of_find?_eq_some hs)

theorem Faithful.attachOne (h : L.Faithful H) {d : String × String} (hd : d.1 = node) :
    wp (L.attachOne o node d) (fun _ H' => L.Faithful H') (fun _ H' => L.Faithful H') H := by
  simp only [Libvirt.attachOne, wp_bind, wp_get, wp_ite]
  refine ⟨fun _ => h, fun hnew => ?_⟩
  split
  · exact h
  · intro n dom' hdom'
    simp only [Hypervisor.modify] at hdom'
    split at hdom'
    · rename_i hn
      obtain ⟨dom, hdom, rfl⟩ := Option.map_eq_some_iff.mp hdom'
      subst hn
      have hdomain := h n dom hdom
      rw [hdom, Option.getD_some] at hnew ⊢
      constructor
      · intro disk hdisk v hv
        rcases List.mem_append.mp hdisk with hdisk | hdisk
        · exact hdomain.named disk hdisk v hv
        · obtain rfl := List.mem_singleton.mp hdisk
          obtain rfl : d = v := Option.some.inj hv
          exact ⟨hd, rfl⟩
      · have hlast : [(⟨freeTarget dom.usedTargets, L.wwn d, some d⟩ : AttachedDisk)].filter
            (·.wwn != "") = [⟨freeTarget dom.usedTargets, L.wwn d, some d⟩] := by
          simp [wwn_ne_empty]
        rw [List.filter_append, List.map_append, hlast]
        refine hdomain.nodup.append (List.nodup_singleton _) fun name hname hname' => hnew ?_
        rw [List.map_singleton, List.mem_singleton] at hname'
        exact AList.mem_foldl_insert.mpr (.inl (hname' ▸ hname))
    · exact h n dom' hdom'

/-- **The pass after the apply.** -/
theorem Faithful.attachNewDisks (h : L.Faithful H) :
    wp (L.attachNewDisks o) (fun _ H' => L.Faithful H') (fun _ H' => L.Faithful H') H := by
  unfold Libvirt.attachNewDisks
  cases o.outputAfter with
  | error e => exact h
  | ok cur =>
    refine wp_forM (fun _ H' => L.Faithful H') (fun _ node _ H₁ _ h₁ => ?_) h
    simp only [attachNode, wp_bind, wp_get]
    split
    · refine wp_forM (fun _ H' => L.Faithful H') (fun pre d post H₂ hl h₂ => h₂.attachOne ?_) h₁
      have hmem : d ∈ (cur.filter (·.1 == node)).insertionSort fun a b => a.2 ≤ b.2 := by
        rw [hl]
        simp
      simpa using (List.mem_filter.mp (List.mem_insertionSort _ |>.mp hmem)).2
    · exact h₁

/-- **One call**, however it ends. -/
theorem Faithful.step (h : L.Faithful H) (hspecs : L.SpecsNamed specs) :
    L.Faithful (L.step H (specs, o)) := by
  have hcall : wp (L.ensureNodes o specs) (fun _ H' => L.Faithful H')
      (fun _ H' => L.Faithful H') H := by
    simp only [ensureNodes, wp_bind]
    refine wp_mono (wp_detachRemovedDisks h) (fun _ H₁ h₁ => ?_) (fun _ H₁ h₁ => h.shrinks h₁)
    have hfaithful := h.shrinks h₁.1
    unfold Libvirt.apply
    cases o.apply with
    | done rebuilds => exact (hfaithful.settle hspecs _ _).attachNewDisks
    | failed e volumes fate => exact hfaithful.settle hspecs _ _
  unfold Libvirt.step
  unfold wp at hcall
  split at hcall <;> rename_i hres <;> rw [hres] <;> exact hcall

theorem faithful_run {calls : List (List NodeSpec × LibvirtAnswers)}
    (hcalls : ∀ call ∈ calls, L.SpecsNamed call.1) :
    L.Faithful (TransitionSystem.run L.step {} calls) := by
  refine TransitionSystem.run_invariant (I := L.Faithful) (fun H i h hi => ?_) ?_
    (TransitionSystem.along_of_forall hcalls ({} : Hypervisor))
  · exact h.step hi
  · intro node dom hdom
    simp at hdom

end Runs

end Libvirt

/-- A cluster of one machine with these disks. -/
def demoLibvirt : Libvirt := ⟨id, "c1"⟩

def demoSpec (names : List String) : NodeSpec where
  vmName := "w0"
  disks := names.map fun n => { name := n, sizeGB := 10, wwn := demoLibvirt.wwn ("w0", n) }

/-- The machine has been built with two disks. -/
def twoDisks : Hypervisor :=
  TransitionSystem.run demoLibvirt.step {} [([demoSpec ["data", "logs"]], {})]

end KaaS
