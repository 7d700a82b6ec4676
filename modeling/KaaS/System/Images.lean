import KaaS.System.Drains

/-!
# Updates rebuild nothing that runs

A backend rebuilds a machine when it is asked for it with another image or another root disk
than it was last given. An update asks for every machine on the image of the cluster's own
versions, so it rebuilds nothing **as long as that is the image the machines run**
(`KeepsRunning`). A hop that upgrades Kubernetes in place changes the versions and no machine.

`applied` is what a backend may have been given last, a failed call included: it may have
been carried out in part. In every run that avoids in-place hops and pools re-added under a
name whose machines have another root disk, no update rebuilds a machine
(`keepsRunning_of_avoids`).
-/

namespace KaaS

open Optimistic

/-! ### The property -/

/-- The machines as they may have been applied last: exactly as asked for by a call that
succeeded, and as before or as asked for by one that failed. -/
def applied : History → List NodeSpec
  | [] => []
  | .did _ e :: log =>
    match e.asked, e.ok with
    | some specs, true => specs
    | some specs, false => specs ++ applied log
    | none, _ => applied log
  | .stored _ _ :: log | .written _ _ :: log => applied log

/-- Asking for `s` rebuilds the machine applied as `p`. -/
def NodeSpec.rebuilds (s p : NodeSpec) : Bool := s.image != p.image || s.diskGB != p.diskGB

/-- **An update leaves running machines alone**: it passes the image recorded for each node,
and nothing that makes the backend rebuild a machine. -/
def KeepsRunning : Entry Cluster Event → History → Prop
  | .did c e, log => c.phase = .updating → ∀ specs ∈ e.asked, ∀ s ∈ specs,
    (∀ n ∈ c.nodes, n.vmName = s.vmName → s.image = n.image) ∧
    ∀ p ∈ applied log, p.vmName = s.vmName → s.rebuilds p = false
  | _, _ => True

instance (e : Entry Cluster Event) (log : History) : Decidable (KeepsRunning e log) :=
  match e with
  | .did .. | .stored .. | .written .. => by unfold KeepsRunning; infer_instance

/-! ### The condition -/

/-- The next hop of the cluster upgrades Kubernetes and keeps the operating system. -/
def inPlaceHop (r : Reconciler) (c : Cluster) : Bool :=
  match r.catalog.nextUpgrade c.bundle with
  | none => false
  | some hop =>
    match r.catalog.resolve c.bundle, r.catalog.resolve hop.name with
    | .ok src, .ok dst => (diffResolved src dst).k8sChanged && !(diffResolved src dst).osChanged
    | _, _ => false

/-- **What has to be avoided**: an upgrading tick at an in-place hop, and an edit that adds a
pool under the name of one whose machines are still there with another root disk. -/
def AvoidsRebuilds (r : Reconciler) (s : State Cluster Event) :
    Input Env (Admission × Mutation) → Prop
  | .tick _ => s.copy = none → s.row.phase = .upgrading → inPlaceHop r s.row = false
  | .write (_, .updateCluster req) => ∀ want ∈ req.nodePools, ∀ w ∈ want,
    w.name ∉ s.row.nodePools.map (·.name) →
    ∀ p ∈ applied s.log, p.role = .worker → p.pool = w.name → p.diskGB = w.rootDiskGB
  | _ => True

instance (r : Reconciler) (s : State Cluster Event) (i) : Decidable (AvoidsRebuilds r s i) := by
  rcases i with _ | _ | _ | ⟨_, _ | _ | _ | _ | _ | _⟩ <;> unfold AvoidsRebuilds <;> infer_instance

/-! ### What a tick asks for -/

/-- `s` is asked for by a tick on `c`: it is a desired machine, on the image of the cluster, of
one of its nodes, or of the hop. -/
structure SpecFor (r : Reconciler) (c : Cluster) (s : NodeSpec) : Prop where
  desired : ∃ t ∈ nodeSpecs c, s.vmName = t.vmName ∧ s.role = t.role ∧ s.pool = t.pool ∧
    s.diskGB = t.diskGB
  image : s.image = currentImage c ∨ (∃ n ∈ c.nodes, s.image = n.image) ∨
    c.phase = .upgrading ∧ s.image = hopImage r c

private theorem image_eq_of_mem_nodeSpecs {c : Cluster} {s : NodeSpec} (h : s ∈ nodeSpecs c) :
    s.image = currentImage c := by
  obtain ⟨d, -, rfl⟩ := List.mem_map.mp h
  rfl

private theorem specFor_of_mem_nodeSpecs {r : Reconciler} {c : Cluster} {s : NodeSpec}
    (h : s ∈ nodeSpecs c) : SpecFor r c s :=
  ⟨⟨s, h, rfl, rfl, rfl, rfl⟩, .inl (image_eq_of_mem_nodeSpecs h)⟩

private theorem specFor_of_mem_released {r : Reconciler} {c : Cluster} {wired : String}
    {s : NodeSpec} (h : s ∈ nodeSpecs (c.released wired)) : SpecFor r c s := by
  obtain ⟨d, hd, rfl⟩ := List.mem_map.mp h
  exact ⟨⟨_, List.mem_map_of_mem hd, rfl, rfl, rfl, rfl⟩, .inl rfl⟩

private theorem recordedImage_mem {nodes : List Node} {vm : String}
    (h : recordedImage nodes vm ≠ "") : ∃ n ∈ nodes, recordedImage nodes vm = n.image := by
  unfold recordedImage at h ⊢
  cases hlast : (nodes.filter (·.vmName == vm)).getLast? with
  | none => simp [hlast] at h
  | some n => exact ⟨n, (List.mem_filter.mp (List.mem_of_getLast? hlast)).1, rfl⟩

private theorem mem_rebuildSpecs {c : Cluster} {node : Node} {image : String} {s : NodeSpec}
    (h : s ∈ rebuildSpecs c node image) :
    (∃ t ∈ nodeSpecs c, s.vmName = t.vmName ∧ s.role = t.role ∧ s.pool = t.pool ∧
      s.diskGB = t.diskGB) ∧
    (s.image = image ∨ s.image = currentImage c ∨ ∃ n ∈ c.nodes, s.image = n.image) := by
  obtain ⟨t, ht, rfl⟩ := List.mem_map.mp h
  have hcurrent := image_eq_of_mem_nodeSpecs ht
  refine ⟨⟨t, ht, ?_⟩, ?_⟩
  · dsimp only
    split <;> split <;> simp
  · dsimp only
    split
    · exact .inl rfl
    · split
      · rename_i hrec
        exact .inr (.inr (recordedImage_mem hrec))
      · exact .inr (.inl hcurrent)

private theorem Replaced.specFor {r : Reconciler} {c c' : Cluster} {node : Node} {image : String}
    {ok : Bool} {evs : List Event} (h : Replaced c node image ok c' evs)
    (himage : image = currentImage c ∨ (∃ n ∈ c.nodes, image = n.image) ∨
      c.phase = .upgrading ∧ image = hopImage r c) :
    ∀ e ∈ evs, ∀ specs ∈ e.asked, ∀ s ∈ specs, SpecFor r c s := by
  have hspec (s : NodeSpec) (hs : s ∈ rebuildSpecs c node image) : SpecFor r c s := by
    obtain ⟨hdesired, rfl | hcur | hnode⟩ := mem_rebuildSpecs hs
    · exact ⟨hdesired, himage⟩
    · exact ⟨hdesired, .inl hcur⟩
    · exact ⟨hdesired, .inr (.inl hnode)⟩
  have hdrain : ∀ e ∈ drainCalls node, e.asked = none := by
    unfold drainCalls
    split <;> simp [Event.asked]
  intro e he specs hasked
  cases h with
  | notReached wired hevs =>
    rcases hevs with rfl | rfl | rfl
    · simp at he
    · simp [hdrain e he] at hasked
    · simp only [List.mem_singleton] at he
      simp [he, Event.asked] at hasked
  | ensureFailed | rebuilt =>
    rcases List.mem_append.mp he with he | he
    · simp [hdrain e he] at hasked
    · simp only [List.mem_singleton] at he
      simp only [he, Event.asked, Option.mem_def, Option.some.injEq] at hasked
      exact hasked ▸ hspec
  | mounted =>
    simp only [List.mem_append, List.mem_singleton] at he
    rcases he with (he | he) | he
    · simp [hdrain e he] at hasked
    · simp only [he, Event.asked, Option.mem_def, Option.some.injEq] at hasked
      exact hasked ▸ hspec
    · simp [he, Event.asked] at hasked

private theorem mem_of_nodeByNameOK {nodes : List Node} {name : String} {node : Node}
    (h : nodeByNameOK nodes name = some node) : node ∈ nodes :=
  List.mem_of_find?_eq_some h

private theorem repairImage_eq {c : Cluster} {node : Node} (hnode : node ∈ c.nodes) :
    repairImage c node = currentImage c ∨ ∃ n ∈ c.nodes, repairImage c node = n.image := by
  unfold repairImage
  split
  · exact .inl rfl
  · exact .inr ⟨node, hnode, rfl⟩

private theorem Repaired.specFor {r : Reconciler} {c c' : Cluster} {evs : List Event}
    (h : Repaired c c' evs) : ∀ e ∈ evs, ∀ specs ∈ e.asked, ∀ s ∈ specs, SpecFor r c s := by
  cases h with
  | untouched => simp
  | replaced hnode hact h =>
    refine h.specFor ?_
    exact (repairImage_eq (mem_of_nodeByNameOK hnode)).imp_right .inl
  | restoreFailed hnode hact | restored _ _ _ hnode hact =>
    intro e he specs hasked s hs
    simp only [List.mem_singleton] at he
    simp only [he, Event.asked, Call.ensure, Option.mem_def, Option.some.injEq] at hasked
    subst hasked
    have himage := repairImage_eq (mem_of_nodeByNameOK hnode)
    obtain ⟨hdesired, heq | hcur | hn⟩ := mem_rebuildSpecs hs
    · rw [← heq] at himage
      exact ⟨hdesired, himage.imp_right .inl⟩
    · exact ⟨hdesired, .inl hcur⟩
    · exact ⟨hdesired, .inr (.inl hn)⟩

private theorem updateDrain_asked {c : Cluster} : ∀ e ∈ updateDrain c, e.asked = none := by
  unfold updateDrain
  split <;> simp [Event.asked]

private theorem specFor_of_updateCalls {r : Reconciler} {c : Cluster} {wired : String}
    {net : NetworkSpec} {ok : Bool} {mounts : List Event} (hmounts : ∀ e ∈ mounts, e.asked = none) :
    ∀ e ∈ updateDrain c ++ [⟨.ensureNodes net (nodeSpecs (c.released wired)), ok⟩] ++ mounts,
      ∀ specs ∈ e.asked, ∀ s ∈ specs, SpecFor r c s := by
  intro e he specs hasked s hs
  simp only [List.mem_append, List.mem_singleton] at he
  rcases he with (he | he) | he
  · simp [updateDrain_asked e he] at hasked
  · simp only [he, Event.asked, Option.mem_def, Option.some.injEq] at hasked
    exact specFor_of_mem_released (hasked ▸ hs)
  · simp [hmounts e he] at hasked

private theorem UpdateFailed.specFor {r : Reconciler} {c : Cluster} {evs : List Event}
    (h : UpdateFailed c evs) : ∀ e ∈ evs, ∀ specs ∈ e.asked, ∀ s ∈ specs, SpecFor r c s := by
  cases h with
  | drainFailed => simp [Event.asked]
  | drained =>
    intro e he specs hasked
    simp [updateDrain_asked e he] at hasked
  | ensureFailed wired | ensured wired =>
    rw [← List.append_nil (_ ++ _)]
    exact specFor_of_updateCalls (by simp)
  | mountRun wired reports ok => exact specFor_of_updateCalls (by simp [Event.asked, Call.mount])

/-- **What a tick asks for.** -/
theorem TickStep.specFor {r : Reconciler} {c : Cluster} {res : Option Cluster} {evs : List Event}
    (h : TickStep r c res evs) : ∀ e ∈ evs, ∀ specs ∈ e.asked, ∀ s ∈ specs, SpecFor r c s := by
  cases h with
  | provisionFailed | provisioned =>
    intro e he specs hasked s hs
    simp only [List.mem_singleton] at he
    simp only [he, Event.asked, Call.ensure, Option.mem_def, Option.some.injEq] at hasked
    exact specFor_of_mem_nodeSpecs (hasked ▸ hs)
  | mountFailed | mounted => simp [Event.asked, Call.mount]
  | repaired hphase hr => exact hr.specFor
  | rolled hphase hhop hsrc hdst hos hleft hnode hr =>
    exact hr.specFor (.inr (.inr ⟨hphase, (hopImage_eq hhop hdst).symm⟩))
  | updateFailed hphase hevs => exact hevs.specFor
  | updated hphase wired reports =>
    exact specFor_of_updateCalls (by simp [Event.asked, Call.mount])
  | _ => simp

theorem mem_applied_push {row : Cluster} {evs : List Event} {log : History} {p : NodeSpec}
    (h : p ∈ applied (push row evs log)) :
    p ∈ applied log ∨ ∃ e ∈ evs, ∃ specs ∈ e.asked, p ∈ specs := by
  induction evs generalizing log with
  | nil => exact .inl h
  | cons e evs ih =>
    rcases ih h with h | ⟨e', he', hspecs⟩
    · cases hasked : e.asked with
      | none => exact .inl (by simpa [applied, hasked] using h)
      | some specs =>
        have hor : p ∈ specs ∨ p ∈ applied log := by
          cases hok : e.ok <;> simp [applied, hasked, hok] at h <;> tauto
        rcases hor with hp | hp
        · exact .inr ⟨e, List.mem_cons_self, specs, hasked, hp⟩
        · exact .inl hp
    · exact .inr ⟨e', List.mem_cons_of_mem e he', hspecs⟩

/-! ### The nodes a tick records -/

private theorem Replaced.nodes {c c' : Cluster} {node : Node} {image : String} {ok : Bool}
    {evs : List Event} (h : Replaced c node image ok c' evs) :
    c'.nodes = c.nodes ∨ ∃ e ∈ evs, ∃ specs ∈ e.asked, ∃ reports,
      c'.nodes = toDomainNodes specs reports := by
  cases h with
  | notReached | ensureFailed => exact .inl rfl
  | rebuilt wired ok reports hok =>
    exact .inr ⟨_, List.mem_append_right _ List.mem_cons_self, _, rfl, reports, rfl⟩
  | mounted wired ok reports hrole =>
    exact .inr ⟨_, List.mem_append_left _ (List.mem_append_right _ List.mem_cons_self), _, rfl,
      reports, rfl⟩

private theorem Repaired.nodes {c c' : Cluster} {evs : List Event} (h : Repaired c c' evs) :
    c'.nodes = c.nodes ∨ ∃ e ∈ evs, ∃ specs ∈ e.asked, ∃ reports,
      c'.nodes = toDomainNodes specs reports := by
  cases h with
  | untouched | restoreFailed => exact .inl rfl
  | replaced hnode hact h => exact h.nodes
  | restored reports => exact .inr ⟨_, List.mem_cons_self, _, rfl, reports, rfl⟩

/-- **The nodes on the row** are as they were, or those just asked for. -/
theorem TickStep.nodes {r : Reconciler} {c c' : Cluster} {evs : List Event}
    (h : TickStep r c (some c') evs) :
    c'.nodes = c.nodes ∨ ∃ e ∈ evs, ∃ specs ∈ e.asked, ∃ reports,
      c'.nodes = toDomainNodes specs reports := by
  generalize hres : some c' = res at h
  cases h with
  | failed | provisionFailed | mountFailed | updateFailed => simp at hres
  | provisioned hphase reports =>
    obtain rfl := Option.some.inj hres
    exact .inr ⟨_, List.mem_cons_self, _, rfl, reports, rfl⟩
  | broughtUp =>
    obtain rfl := Option.some.inj hres
    exact .inl (by unfold finishBringUp; split <;> rfl)
  | repaired hphase hr =>
    obtain rfl := Option.some.inj hres
    exact hr.nodes
  | rolled hphase hhop hsrc hdst hos hleft hnode hr =>
    split at hres
    · obtain rfl := Option.some.inj hres
      exact hr.nodes
    · simp at hres
  | hopped =>
    obtain rfl := Option.some.inj hres
    exact .inl (by unfold finishHop; split <;> rfl)
  | updated hphase wired reports =>
    obtain rfl := Option.some.inj hres
    refine .inr ⟨_, List.mem_append_left _ (List.mem_append_right _ List.mem_cons_self), _, rfl,
      reports, ?_⟩
    unfold finishUpdate
    split <;> rfl
  | _ =>
    obtain rfl := Option.some.inj hres
    exact .inl rfl

/-! ### Names and root disks -/

/-- A machine applied as `p` is one that `c` may ask for, and has the root disk it would then
get. -/
inductive AsDesired (c : Cluster) (p : NodeSpec) : Prop
  | controlPlane (i : Nat) (hrole : p.role = .controlPlane)
      (hname : p.vmName = vmName c.name controlPlaneInfix i)
      (hdisk : p.diskGB = (sizeOf c.size).diskGB)
  | worker (i : Nat) (hrole : p.role = .worker) (hpool : p.pool ≠ controlPlaneInfix)
      (hname : p.vmName = vmName c.name p.pool i)
      (hdisk : ∀ q ∈ c.nodePools, q.name = p.pool → p.diskGB = q.rootDiskGB)

private theorem mem_nodeSpecs {c : Cluster} {s : NodeSpec} (h : s ∈ nodeSpecs c) :
    (∃ i, s.role = .controlPlane ∧ s.vmName = vmName c.name controlPlaneInfix i ∧
      s.diskGB = (sizeOf c.size).diskGB) ∨
    ∃ q ∈ c.nodePools, ∃ i, s.role = .worker ∧ s.pool = q.name ∧
      s.vmName = vmName c.name q.name i ∧ s.diskGB = q.rootDiskGB := by
  obtain ⟨d, hd, rfl⟩ := List.mem_map.mp h
  rcases List.mem_append.mp hd with hd | hd
  · obtain ⟨i, -, rfl⟩ := List.mem_map.mp hd
    exact .inl ⟨i, rfl, rfl, rfl⟩
  · obtain ⟨q, hq, hd⟩ := List.mem_flatMap.mp hd
    obtain ⟨i, -, rfl⟩ := mem_desired.mp hd
    exact .inr ⟨q, hq, i, rfl, rfl, rfl, rfl⟩

theorem SpecFor.asDesired {r : Reconciler} {c : Cluster} {s : NodeSpec} (h : SpecFor r c s)
    (hpools : PoolNames c.nodePools) : AsDesired c s := by
  obtain ⟨t, ht, hname, hrole, hpool, hdisk⟩ := h.desired
  rcases mem_nodeSpecs ht with
    ⟨i, hrole', hname', hdisk'⟩ | ⟨q, hq, i, hrole', hpool', hname', hdisk'⟩
  · exact .controlPlane i (hrole.trans hrole') (hname.trans hname') (hdisk.trans hdisk')
  · have hsq : s.pool = q.name := hpool.trans hpool'
    refine .worker i (hrole.trans hrole') (hsq ▸ hpools.ne_infix q hq) ?_ fun q' hq' heq => ?_
    · rw [hname, hname', hsq]
    · rw [List.inj_on_of_nodup_map hpools.nodup hq' hq (heq.trans hsq)]
      exact hdisk.trans hdisk'

/-- **The root disk asked for** is that of the machine of the same name. -/
theorem SpecFor.diskGB_eq {r : Reconciler} {c : Cluster} {s p : NodeSpec} (h : SpecFor r c s)
    (hpools : PoolNames c.nodePools) (hp : AsDesired c p) (hname : p.vmName = s.vmName) :
    s.diskGB = p.diskGB := by
  obtain ⟨t, ht, hst, -, -, hdisk⟩ := h.desired
  rw [hdisk]
  rcases mem_nodeSpecs ht with ⟨i, -, hti, hdisk'⟩ | ⟨q, hq, i, -, -, hti, hdisk'⟩
  · cases hp with
    | controlPlane j _ _ hdisk'' => rw [hdisk', hdisk'']
    | worker j _ hpool hpj _ =>
      exact absurd (vmName_inj (hpj.symm.trans (hname.trans (hst.trans hti)))).1 hpool
  · cases hp with
    | controlPlane j _ hpj _ =>
      have := (vmName_inj (hpj.symm.trans (hname.trans (hst.trans hti)))).1
      exact absurd this.symm (hpools.ne_infix q hq)
    | worker j _ _ hpj hdisk'' =>
      have hpq := (vmName_inj (hpj.symm.trans (hname.trans (hst.trans hti)))).1
      rw [hdisk', hdisk'' q hq hpq.symm]

theorem AsDesired.congr {c c' : Cluster} {p : NodeSpec} (h : AsDesired c p)
    (hname' : c'.name = c.name) (hsize' : c'.size = c.size) (hpools' : c'.nodePools = c.nodePools) :
    AsDesired c' p := by
  cases h with
  | controlPlane i hrole hname hdisk =>
    exact .controlPlane i hrole (by rw [hname', hname]) (by rw [hsize', hdisk])
  | worker i hrole hpool hname hdisk =>
    exact .worker i hrole hpool (by rw [hname', hname]) (by rw [hpools']; exact hdisk)

theorem AsDesired.of_sameDesire {c c' : Cluster} {p : NodeSpec} (h : AsDesired c p)
    (hsame : SameDesire c c') : AsDesired c' p :=
  h.congr hsame.name hsame.size hsame.nodePools

/-- Under admitted pools a machine keeps its root disk, unless its pool is a new one of a name
that had gone. -/
private theorem AsDesired.of_poolsAdmitted {c : Cluster} {p : NodeSpec} {want : List NodePool}
    (h : AsDesired c p) (hwant : PoolsAdmitted c want)
    (hnew : ∀ w ∈ want, w.name ∉ c.nodePools.map (·.name) → p.role = .worker →
      p.pool = w.name → p.diskGB = w.rootDiskGB)
    {c' : Cluster} (hname' : c'.name = c.name) (hsize' : c'.size = c.size)
    (hpools' : c'.nodePools = want) : AsDesired c' p := by
  cases h with
  | controlPlane i hrole hname hdisk =>
    exact .controlPlane i hrole (by rw [hname', hname]) (by rw [hsize', hdisk])
  | worker i hrole hpool hname hdisk =>
    refine .worker i hrole hpool (by rw [hname', hname]) fun q hq heq => ?_
    rw [hpools'] at hq
    by_cases hold : q.name ∈ c.nodePools.map (·.name)
    · obtain ⟨cur, hcur, hcurname, hsize, hdiskGB⟩ := hwant.exists_old hq hold
      rw [hdisk cur hcur (hcurname.trans heq)]
      simp only [NodePool.rootDiskGB, hsize, hdiskGB]
    · exact hnew q hq hold hrole heq.symm

/-! ### The invariant -/

/-- The images of the nodes on the row and of the machines applied. -/
def OnImages (img : String → Prop) (c : Cluster) (log : History) : Prop :=
  (∀ n ∈ c.nodes, img n.image) ∧ ∀ p ∈ applied log, img p.image

/-- **The invariant of images**: outside an upgrade every machine is on the image of the
cluster's versions; within one, on that or on the image of the hop, and once all nodes are on
the latter so is every machine that may be applied. -/
structure ImagesInv (r : Reconciler) (c : Cluster) (log : History) : Prop where
  each : Each KeepsRunning log
  pools : PoolNames c.nodePools
  versions : ∃ rb, r.catalog.resolve c.bundle = .ok rb ∧ c.osImage = rb.os.name ∧
    c.k8sVersion = rb.kubernetes
  shapes : ∀ p ∈ applied log, AsDesired c p
  settled : c.phase ∉ [.upgrading, .deleting, .deleted] → OnImages (· = currentImage c) c log
  rolling : c.phase = .upgrading →
    OnImages (fun i => i = currentImage c ∨ i = hopImage r c) c log ∧
    (allNodesOnImage c.nodes (hopImage r c) = true → ∀ p ∈ applied log, p.image = hopImage r c)

private theorem image_of_nodeToRoll {r : Reconciler} {c : Cluster} {node : Node}
    (h : nodeToRoll r c = some node) : allNodesOnImage c.nodes (hopImage r c) = false := by
  unfold nodeToRoll at h
  split at h
  · simp at h
  · rename_i hop hhop
    split at h
    · rename_i src dst hsrc hdst
      dsimp only at h
      split at h
      · rename_i hcond
        rw [hopImage_eq hhop hdst]
        exact hcond.2
      · simp at h
    · simp at h

section Preservation

variable {r : Reconciler} {c c' : Cluster} {res : Option Cluster} {evs : List Event}
  {log : History}

private theorem ImagesInv.image_eq (h : ImagesInv r c log)
    (hphase : c.phase ∉ [.upgrading, .deleting, .deleted]) {s : NodeSpec} (hs : SpecFor r c s) :
    s.image = currentImage c := by
  rcases hs.image with himage | ⟨n, hn, himage⟩ | ⟨hup, -⟩
  · exact himage
  · rw [himage, (h.settled hphase).1 n hn]
  · simp [hup] at hphase

private theorem ImagesInv.image_mem (h : ImagesInv r c log) (hphase : c.phase = .upgrading)
    {s : NodeSpec} (hs : SpecFor r c s) : s.image = currentImage c ∨ s.image = hopImage r c := by
  rcases hs.image with himage | ⟨n, hn, himage⟩ | ⟨-, himage⟩
  · exact .inl himage
  · rw [himage]
    exact (h.rolling hphase).1.1 n hn
  · exact .inr himage

private theorem ImagesInv.keepsRunning (h : ImagesInv r c log) {e : Event}
    (he : ∀ specs ∈ e.asked, ∀ s ∈ specs, SpecFor r c s) {log' : History}
    (hlog' : applied log' = applied log) : KeepsRunning (.did c e) log' := by
  intro hphase specs hasked s hs
  have hspec := he specs hasked s hs
  have hphase' : c.phase ∉ [.upgrading, .deleting, .deleted] := by simp [hphase]
  have himage := h.image_eq hphase' hspec
  have hsettled := h.settled hphase'
  refine ⟨fun n hn _ => by rw [himage, hsettled.1 n hn], fun p hp hname => ?_⟩
  rw [hlog'] at hp
  have hdisk := hspec.diskGB_eq h.pools (h.shapes p hp) hname
  simp [NodeSpec.rebuilds, himage, hsettled.2 p hp, hdisk]

private theorem ImagesInv.each_tick (h : ImagesInv r c log) (hstep : TickStep r c res evs) :
    Each KeepsRunning (push c evs log) := by
  have htrivial {e : Event} (he : e.asked = none) (log' : History) : KeepsRunning (.did c e) log' :=
    fun _ specs hasked => by simp [he] at hasked
  have hspec := hstep.specFor
  rcases hstep.asks with hnone | ⟨-, hafter⟩
  · exact each_push (fun e he => htrivial (hnone e he)) h.each
  · cases hafter with
    | undrained hnames hspecs hmounts =>
      refine each_push (fun e he => htrivial (hmounts e he)) ⟨?_, h.each⟩
      exact h.keepsRunning (hspec _ List.mem_cons_self) rfl
    | drained hnames hspecs hmounts =>
      refine each_push (fun e he => htrivial (hmounts e he)) ⟨?_, htrivial rfl log, h.each⟩
      exact h.keepsRunning (hspec _ (List.mem_cons_of_mem _ List.mem_cons_self)) rfl

private theorem ImagesInv.tick (h : ImagesInv r c log) (hstep : TickStep r c res evs) :
    ImagesInv r c (push c evs log) where
  each := h.each_tick hstep
  pools := h.pools
  versions := h.versions
  shapes p hp := by
    rcases mem_applied_push hp with hp | ⟨e, he, specs, hasked, hp⟩
    · exact h.shapes p hp
    · exact (hstep.specFor e he specs hasked p hp).asDesired h.pools
  settled hphase := by
    refine ⟨(h.settled hphase).1, fun p hp => ?_⟩
    rcases mem_applied_push hp with hp | ⟨e, he, specs, hasked, hp⟩
    · exact (h.settled hphase).2 p hp
    · exact h.image_eq hphase (hstep.specFor e he specs hasked p hp)
  rolling hphase := by
    refine ⟨⟨(h.rolling hphase).1.1, fun p hp => ?_⟩, fun hall p hp => ?_⟩
    · rcases mem_applied_push hp with hp | ⟨e, he, specs, hasked, hp⟩
      · exact (h.rolling hphase).1.2 p hp
      · exact h.image_mem hphase (hstep.specFor e he specs hasked p hp)
    · rcases hstep.asks with hnone | ⟨hasks, -⟩
      · rcases mem_applied_push hp with hp | ⟨e, he, specs, hasked, -⟩
        · exact (h.rolling hphase).2 hall p hp
        · simp [hnone e he] at hasked
      · -- an upgrading tick that asks has a node left to roll
        simp only [asksForMachines, hphase, Option.isSome_iff_exists] at hasks
        obtain ⟨node, hnode⟩ := hasks
        simp [image_of_nodeToRoll hnode] at hall

private theorem TickStep.node_image (hstep : TickStep r c (some c') evs) {n : Node}
    (hn : n ∈ c'.nodes) :
    (∃ n' ∈ c.nodes, n.image = n'.image) ∨ ∃ s, SpecFor r c s ∧ n.image = s.image := by
  rcases hstep.nodes with hsame | ⟨e, he, specs, hasked, reports, hnodes⟩
  · exact .inl ⟨n, hsame ▸ hn, rfl⟩
  · rw [hnodes] at hn
    obtain ⟨s, hs, rfl⟩ := List.mem_map.mp hn
    exact .inr ⟨s, hstep.specFor e he specs hasked s hs, rfl⟩

private theorem currentImage_eq (hsame : SameDesire c c') (hos : c'.osImage = c.osImage)
    (hk8s : c'.k8sVersion = c.k8sVersion) : currentImage c' = currentImage c := by
  simp only [currentImage, hsame.infraProvider, hos, hk8s]

private theorem ImagesInv.store (h : ImagesInv r c log) (hlog : ImagesInv r c (push c evs log))
    (hstep : TickStep r c (some c') evs)
    (hversions : c'.bundle = c.bundle ∧ c'.osImage = c.osImage ∧ c'.k8sVersion = c.k8sVersion)
    (hphase : c.phase ∉ [.upgrading, .deleting, .deleted]) (hphase' : c'.phase ≠ .upgrading) :
    ImagesInv r c' (.stored c c' :: push c evs log) where
  each := ⟨trivial, hlog.each⟩
  pools := hstep.sameDesire.nodePools ▸ h.pools
  versions := by
    obtain ⟨rb, hrb, hos, hk8s⟩ := h.versions
    exact ⟨rb, by rw [hversions.1, hrb], by rw [hversions.2.1, hos], by rw [hversions.2.2, hk8s]⟩
  shapes p hp := (hlog.shapes p hp).of_sameDesire hstep.sameDesire
  settled _ := by
    have hcurrent := currentImage_eq hstep.sameDesire hversions.2.1 hversions.2.2
    refine ⟨fun n hn => ?_, fun p hp => ?_⟩
    · rw [hcurrent]
      rcases hstep.node_image hn with ⟨n', hn', himage⟩ | ⟨s, hs, himage⟩
      · rw [himage, (h.settled hphase).1 n' hn']
      · rw [himage, h.image_eq hphase hs]
    · rw [hcurrent]
      exact (hlog.settled hphase).2 p hp
  rolling hup := absurd hup hphase'

private theorem ImagesInv.store_leaving (h : ImagesInv r c log)
    (hstep : TickStep r c (some c') []) (hphase' : c'.phase = .deleted)
    (hversions : c'.bundle = c.bundle ∧ c'.osImage = c.osImage ∧ c'.k8sVersion = c.k8sVersion) :
    ImagesInv r c' (.stored c c' :: log) where
  each := ⟨trivial, h.each⟩
  pools := hstep.sameDesire.nodePools ▸ h.pools
  versions := by
    obtain ⟨rb, hrb, hos, hk8s⟩ := h.versions
    exact ⟨rb, by rw [hversions.1, hrb], by rw [hversions.2.1, hos], by rw [hversions.2.2, hk8s]⟩
  shapes p hp := (h.shapes p hp).of_sameDesire hstep.sameDesire
  settled hphase := by simp [hphase'] at hphase
  rolling hup := by simp [hphase'] at hup

private theorem ImagesInv.store_toUpgrading (h : ImagesInv r c log) (hphase : c.phase = .ready) :
    ImagesInv r { c with phase := .upgrading }
      (.stored c { c with phase := .upgrading } :: log) where
  each := ⟨trivial, h.each⟩
  pools := h.pools
  versions := h.versions
  shapes p hp := (h.shapes p hp).of_sameDesire ⟨rfl, rfl, rfl, rfl, rfl, rfl⟩
  settled hup := by simp at hup
  rolling _ := by
    have hsettled := h.settled (by simp [hphase])
    refine ⟨⟨fun n hn => .inl (hsettled.1 n hn), fun p hp => .inl (hsettled.2 p hp)⟩,
      fun hall p hp => ?_⟩
    -- some node is on both images, so they are one
    simp only [allNodesOnImage, Bool.and_eq_true, List.all_eq_true, beq_iff_eq,
      Bool.not_eq_true', List.isEmpty_eq_false_iff_exists_mem] at hall
    obtain ⟨hall, n, hn⟩ := hall
    exact (hsettled.2 p hp).trans ((hsettled.1 n hn).symm.trans (hall n hn))

private theorem ImagesInv.store_noHop (h : ImagesInv r c log) (hphase : c.phase = .upgrading)
    (hhop : r.catalog.nextUpgrade c.bundle = none) {c' : Cluster} (hsame : SameDesire c c')
    (hversions : c'.bundle = c.bundle ∧ c'.osImage = c.osImage ∧ c'.k8sVersion = c.k8sVersion)
    (hnodes : c'.nodes = c.nodes) (hphase' : c'.phase = .ready) :
    ImagesInv r c' (.stored c c' :: log) where
  each := ⟨trivial, h.each⟩
  pools := hsame.nodePools ▸ h.pools
  versions := by
    obtain ⟨rb, hrb, hos, hk8s⟩ := h.versions
    exact ⟨rb, by rw [hversions.1, hrb], by rw [hversions.2.1, hos], by rw [hversions.2.2, hk8s]⟩
  shapes p hp := (h.shapes p hp).of_sameDesire hsame
  settled _ := by
    have hcurrent := currentImage_eq hsame hversions.2.1 hversions.2.2
    have himage : hopImage r c = currentImage c := by simp only [hopImage, hhop]
    have hrolling := (h.rolling hphase).1
    simp only [himage, or_self] at hrolling
    exact ⟨fun n hn => (hrolling.1 n (hnodes ▸ hn)).trans hcurrent.symm,
      fun p hp => (hrolling.2 p hp).trans hcurrent.symm⟩
  rolling hup := by simp [hphase'] at hup

private theorem ImagesInv.store_hopped (h : ImagesInv r c log) (hphase : c.phase = .upgrading)
    (havoid : inPlaceHop r c = false) {hop : Bundle} {src dst : ResolvedBundle}
    (hhop : r.catalog.nextUpgrade c.bundle = some hop)
    (hsrc : r.catalog.resolve c.bundle = .ok src) (hdst : r.catalog.resolve hop.name = .ok dst)
    (himage : src.os.name = dst.os.name ∨ allNodesOnImage c.nodes
      (goldenImageNameFor c.infraProvider dst.os.name dst.kubernetes) = true)
    {c' : Cluster} (hsame : SameDesire c c') (hbundle : c'.bundle = hop.name)
    (hversions : c'.osImage = dst.os.name ∧ c'.k8sVersion = dst.kubernetes)
    (hnodes : c'.nodes = c.nodes) (hphase' : c'.phase = .ready) :
    ImagesInv r c' (.stored c c' :: log) where
  each := ⟨trivial, h.each⟩
  pools := hsame.nodePools ▸ h.pools
  versions := ⟨dst, by rw [hbundle, hdst], hversions⟩
  shapes p hp := (h.shapes p hp).of_sameDesire hsame
  settled _ := by
    have hcurrent : currentImage c' = hopImage r c := by
      rw [hopImage_eq hhop hdst, currentImage, hsame.infraProvider, hversions.1, hversions.2]
    obtain ⟨hrolling, hall⟩ := h.rolling hphase
    have hon : OnImages (· = hopImage r c) c log := by
      rcases himage with hos | himage
      · -- the hop changes no version, so both images are the same
        have hk8s : src.kubernetes = dst.kubernetes := by
          simpa [inPlaceHop, hhop, hsrc, hdst, diffResolved, hos] using havoid
        obtain ⟨rb, hrb, hos', hk8s'⟩ := h.versions
        obtain rfl : src = rb := Except.ok.inj (hsrc.symm.trans hrb)
        have hsameImage : currentImage c = hopImage r c := by
          rw [hopImage_eq hhop hdst, currentImage, hos', hk8s', hos, hk8s]
        simpa only [hsameImage, or_self] using hrolling
      · rw [← hopImage_eq hhop hdst] at himage
        refine ⟨fun n hn => ?_, hall himage⟩
        simp only [allNodesOnImage, Bool.and_eq_true, List.all_eq_true, beq_iff_eq] at himage
        exact himage.1 n hn
    exact ⟨fun n hn => (hon.1 n (hnodes ▸ hn)).trans hcurrent.symm,
      fun p hp => (hon.2 p hp).trans hcurrent.symm⟩
  rolling hup := by simp [hphase'] at hup

private theorem Replaced.applied_push {node : Node} {image : String}
    (h : Replaced c node image true c' evs) (log : History) :
    ∃ reports, c'.nodes = toDomainNodes (applied (push c evs log)) reports := by
  cases h with
  | rebuilt wired ok reports hok =>
    refine ⟨reports, ?_⟩
    rw [push_append]
    rfl
  | mounted wired ok reports hrole =>
    refine ⟨reports, ?_⟩
    rw [push_append, push_append]
    rfl

private theorem ImagesInv.store_rolled (h : ImagesInv r c log)
    (hlog : ImagesInv r c (push c evs log)) (hstep : TickStep r c (some c') evs)
    (hphase : c.phase = .upgrading) {node : Node} {image : String}
    (hr : Replaced c node image true c' evs) :
    ImagesInv r c' (.stored c c' :: push c evs log) := by
  have hkept : c'.phase = c.phase ∧ c'.bundle = c.bundle ∧ c'.osImage = c.osImage ∧
      c'.k8sVersion = c.k8sVersion := by
    cases hr <;> exact ⟨rfl, rfl, rfl, rfl⟩
  obtain ⟨hphase', hbundle, hos, hk8s⟩ := hkept
  have hcurrent := currentImage_eq hstep.sameDesire hos hk8s
  have hhop : hopImage r c' = hopImage r c := by
    simp only [hopImage, hbundle, hcurrent, hstep.sameDesire.infraProvider]
  constructor
  case each => exact ⟨trivial, hlog.each⟩
  case pools => exact hstep.sameDesire.nodePools ▸ h.pools
  case versions => simpa only [hbundle, hos, hk8s] using h.versions
  case shapes => exact fun p hp => (hlog.shapes p hp).of_sameDesire hstep.sameDesire
  case settled => simp [hphase', hphase]
  case rolling =>
    rw [hcurrent, hhop]
    refine fun _ => ⟨⟨fun n hn => ?_, (hlog.rolling hphase).1.2⟩, fun hall p hp => ?_⟩
    · rcases hstep.node_image hn with ⟨n', hn', himage⟩ | ⟨s, hs, himage⟩
      · rw [himage]
        exact (h.rolling hphase).1.1 n' hn'
      · rw [himage]
        exact h.image_mem hphase hs
    · -- the nodes are those just applied
      obtain ⟨reports, hnodes⟩ := hr.applied_push log
      simp only [allNodesOnImage, Bool.and_eq_true, List.all_eq_true, beq_iff_eq, hnodes] at hall
      exact hall.1 _ (List.mem_map_of_mem hp)

private theorem ImagesInv.store_tick (h : ImagesInv r c log)
    (havoid : c.phase = .upgrading → inPlaceHop r c = false)
    (hstep : TickStep r c (some c') evs) :
    ImagesInv r c' (.stored c c' :: push c evs log) := by
  have hlog := h.tick hstep
  have hstep' := hstep
  generalize hres : some c' = res at hstep'
  cases hstep' with
  | failed | provisionFailed | mountFailed | updateFailed => simp at hres
  | advance hphase =>
    obtain rfl := Option.some.inj hres
    by_cases hdeleted : c.phase = .deleted
    · refine h.store_leaving hstep ?_ ⟨rfl, rfl, rfl⟩
      simpa [hdeleted] using hphase
    · simp only [List.mem_cons, Prod.mk.injEq, List.not_mem_nil, or_false] at hphase
      refine h.store hlog hstep ⟨rfl, rfl, rfl⟩ ?_ ?_ <;> simp <;> grind
  | provisioned hphase | mounted hphase | toUpdating hphase =>
    obtain rfl := Option.some.inj hres
    exact h.store hlog hstep ⟨rfl, rfl, rfl⟩ (by simp [hphase]) (by simp)
  | broughtUp hphase =>
    obtain rfl := Option.some.inj hres
    refine h.store hlog hstep ?_ (by simp [hphase]) ?_ <;> unfold finishBringUp <;> split <;>
      first | exact ⟨rfl, rfl, rfl⟩ | simp
  | toUpgrading hphase =>
    obtain rfl := Option.some.inj hres
    exact h.store_toUpgrading hphase
  | timed hphase _ _ hp =>
    obtain rfl := Option.some.inj hres
    refine h.store hlog hstep ⟨rfl, rfl, rfl⟩ (by simp [hphase]) ?_
    rintro rfl
    simp at hp
  | maintained hphase =>
    obtain rfl := Option.some.inj hres
    refine h.store hlog hstep ⟨rfl, rfl, rfl⟩ ?_ (by simp)
    simp only [List.mem_cons, List.not_mem_nil, or_false] at hphase
    rcases hphase with hphase | hphase | hphase <;> simp [hphase]
  | repaired hphase hr =>
    obtain rfl := Option.some.inj hres
    refine h.store hlog hstep ?_ (by simp [hphase]) (by simp)
    cases hr with
    | replaced hnode hact hr => cases hr <;> exact ⟨rfl, rfl, rfl⟩
    | _ => exact ⟨rfl, rfl, rfl⟩
  | noHop hphase hhop =>
    obtain rfl := Option.some.inj hres
    exact h.store_noHop hphase hhop ⟨rfl, rfl, rfl, rfl, rfl, rfl⟩ ⟨rfl, rfl, rfl⟩ rfl rfl
  | @rolled hphase hop src dst hhop hsrc hdst hos hleft node hnode ok c'' _ hr =>
    cases ok with
    | false => simp at hres
    | true =>
      obtain rfl := Option.some.inj hres
      exact h.store_rolled hlog hstep hphase hr
  | nothingToRoll hphase hnodes =>
    obtain rfl := Option.some.inj hres
    exact { h with each := ⟨trivial, h.each⟩ }
  | hopped hphase hhop hsrc hdst himage =>
    obtain rfl := Option.some.inj hres
    refine h.store_hopped hphase (havoid hphase) hhop hsrc hdst himage hstep.sameDesire ?_ ?_ ?_ ?_
      <;> unfold finishHop <;> split <;> first | rfl | exact ⟨rfl, rfl⟩
  | updated hphase =>
    obtain rfl := Option.some.inj hres
    refine h.store hlog hstep ?_ (by simp [hphase]) ?_ <;> unfold finishUpdate <;> split <;>
      first | exact ⟨rfl, rfl, rfl⟩ | simp
  | deleted hphase =>
    obtain rfl := Option.some.inj hres
    exact h.store_leaving hstep rfl ⟨rfl, rfl, rfl⟩

/-- **An accepted mutation keeps the invariant**: it moves neither images nor versions, and
what it makes of the pools fits the machines that are there. -/
private theorem ImagesInv.edit {a : App} {m : Mutation} (h : ImagesInv r c log)
    (hedit : Edit a c m c')
    (hshapes : ∀ p ∈ applied log, AsDesired c' p) : ImagesInv r c' (.written c c' :: log) := by
  cases hedit with
  | update addons hphase haddons hpools =>
    refine ⟨⟨trivial, h.each⟩, ?_, h.versions, hshapes, h.settled, h.rolling⟩
    cases hpools with
    | keep => exact h.pools
    | change ips hwant hadmitted => exact poolNames_of_validateNodePools hadmitted.valid
  | addDisk | removeDisk | promote | values =>
    exact ⟨⟨trivial, h.each⟩, h.pools, h.versions, hshapes, h.settled, h.rolling⟩
  | delete =>
    exact ⟨⟨trivial, h.each⟩, h.pools, h.versions, hshapes, by simp, by simp⟩

private theorem asDesired_of_edit {a : App} {m : Mutation} (hedit : Edit a c m c')
    {p : NodeSpec} (hp : AsDesired c p)
    (hnew : ∀ req, m = .updateCluster req → ∀ want ∈ req.nodePools, ∀ w ∈ want,
      w.name ∉ c.nodePools.map (·.name) → p.role = .worker → p.pool = w.name →
      p.diskGB = w.rootDiskGB) : AsDesired c' p := by
  cases hedit with
  | update addons hphase haddons hpools =>
    cases hpools with
    | keep => exact hp.congr rfl rfl rfl
    | change ips hwant hadmitted =>
      exact hp.of_poolsAdmitted hadmitted (hnew _ rfl _ hwant) rfl rfl rfl
  | addDisk | removeDisk | promote | values | delete => exact hp.congr rfl rfl rfl

end Preservation

/-- **No update rebuilds a machine** in a run that avoids in-place hops and pools re-added under
a name whose machines have another root disk. -/
theorem keepsRunning_of_avoids (P : Platform) (c : Cluster) (is : Platform.Inputs)
    (hcreated : Created P.app.catalog c) (havoid : P.Along (AvoidsRebuilds P.reconciler) c is) :
    Each KeepsRunning (P.run c is).log := by
  have hinit : ImagesInv P.reconciler c [] :=
    { each := trivial
      pools := hcreated.pools
      versions := by rw [P.same]; exact hcreated.versions
      shapes := by simp [applied]
      settled := by simp [OnImages, hcreated.nodes, applied]
      rolling := by simp [hcreated.phase] }
  refine (Platform.run_invariant (ImagesInv P.reconciler) ?_ ?_ hinit havoid).each
  · intro s ρ res evs hinv hidle hcond hstep
    exact ⟨hinv.tick hstep, fun c' hc' => hinv.store_tick (hcond hidle) (hc' ▸ hstep)⟩
  · rintro s ⟨adm, m⟩ c' hinv hcond hedit
    refine hinv.edit hedit fun p hp => asDesired_of_edit hedit (hinv.shapes p hp) ?_
    rintro req rfl want hwant w hw hname hrole hpool
    exact hcond want hwant w hw hname p hp hrole hpool

/-- A running cluster is upgraded to a bundle with another operating system, then scaled. -/
def rolledThenScaled : Platform.Inputs :=
  bringUpRun ++ submit (.promoteCluster "r2") ++ (List.replicate 5 (pass {})).flatten ++
    submit (.updateCluster { nodePools := some (demoPools 3) }) ++ pass {} ++ pass {}

theorem keepsRunning_rolledThenScaled :
    Created rollingPlatform.app.catalog demoCluster ∧
    rollingPlatform.Along (AvoidsRebuilds rollingPlatform.reconciler) demoCluster
      rolledThenScaled ∧
    Each KeepsRunning (rollingPlatform.run demoCluster rolledThenScaled).log := by
  have hcreated : Created rollingPlatform.app.catalog demoCluster := created_demoCluster _ _
  have havoid : rollingPlatform.Along (AvoidsRebuilds rollingPlatform.reconciler) demoCluster
      rolledThenScaled := by decide +kernel
  exact ⟨hcreated, havoid,
    keepsRunning_of_avoids rollingPlatform demoCluster rolledThenScaled hcreated havoid⟩

/-- A running cluster is upgraded in place, then scaled: the update rebuilds every node. -/
def inPlaceThenScaled : Platform.Inputs :=
  bringUpRun ++ submit (.promoteCluster "r2") ++ pass {} ++ pass {} ++
    submit (.updateCluster { nodePools := some (demoPools 3) }) ++ pass {} ++ pass {}

theorem rebuilt_after_inPlaceHop :
    inPlacePlatform.app.catalog.validate = .ok () ∧
    Created inPlacePlatform.app.catalog demoCluster ∧
    ¬Each KeepsRunning (inPlacePlatform.run demoCluster inPlaceThenScaled).log := by
  refine ⟨by decide +kernel, created_demoCluster _ _, ?_⟩
  decide +kernel

end KaaS
