import KaaS.System.Images

/-!
# A ready cluster has what it was asked for

A cluster stored as `Ready` with its generation observed is not looked at again until someone
edits it, so everything asked for has to be there by then (`Settled`): the nodes, the
add-ons, and every extra disk attached **and mounted since it was added**.

Three places observe a generation. The update does so once every disk is attached; the end
of bring-up and the end of a promotion only compare the nodes. A mount run outside an update
also turns a disk that is being removed back into an attached one, without mounting it. In
every run whose ticks meet `DisksInOrder` these places find the disks in order, and what is
stored as ready is settled (`settled_of_disksInOrder`).
-/

namespace KaaS

open Optimistic

/-! ### The property -/

def Event.mountedDisks (e : Event) : List (String × String) :=
  match e.call, e.ok with
  | .ensureNodeDisks disks, true => disks.map (·.key)
  | _, _ => []

/-- A disk of `c` under this key is waiting to be mounted. -/
def Cluster.diskPending (c : Cluster) (k : String × String) : Bool :=
  c.nodeDisks.any fun d => d.key == k && d.phase == .pending

/-- A successful mount run included the disk since it last became pending. -/
def mountedSince (k : String × String) : History → Bool
  | [] => false
  | .did _ e :: log => e.mountedDisks.contains k || mountedSince k log
  | .stored old new :: log | .written old new :: log =>
    !(new.diskPending k && !old.diskPending k) && mountedSince k log

/-- **Everything asked for is there.** -/
def Settled (c : Cluster) (log : History) : Prop :=
  (c.nodes.map (·.vmName)).Perm (nodeVMNames c) ∧
  (∀ a ∈ c.addons, a.phase = .installed) ∧
  ∀ d ∈ c.nodeDisks, d.phase = .attached ∧ mountedSince d.key log = true

instance (c : Cluster) (log : History) : Decidable (Settled c log) :=
  inferInstanceAs (Decidable (_ ∧ _ ∧ _))

/-- What the reconciler stores as ready, with the generation observed, is settled. -/
def StoresSettled : Entry Cluster Event → History → Prop
  | .stored old new, log => new.phase = .ready → new.observedGeneration = new.generation →
    Settled new (.stored old new :: log)
  | _, _ => True

instance (e : Entry Cluster Event) (log : History) : Decidable (StoresSettled e log) :=
  match e with
  | .did .. | .stored .. | .written .. => by unfold StoresSettled; infer_instance

/-! ### The condition -/

/-- The next hop of the cluster is the last of its promotion and no node is left to roll. -/
def finishesPromotion (r : Reconciler) (c : Cluster) : Bool :=
  match r.catalog.nextUpgrade c.bundle with
  | none => false
  | some hop => hop.name == c.targetBundle && (nodeToRoll r c).isNone

/-- A tick on `c` mounts disks outside an update. -/
def mountsInPassing (r : Reconciler) (c : Cluster) : Bool :=
  c.phase == .workersReady || (nodeToReplace r c).any (·.role == .worker)

/-- **Disks in order**: the end of bring-up and the end of a promotion find every disk
attached, if they find the nodes converged; a mount run outside an update finds no disk being
removed that was never mounted. -/
def DisksInOrder (r : Reconciler) (s : State Cluster Event) :
    Input Env (Admission × Mutation) → Prop
  | .tick _ => s.copy = none →
    (s.row.phase = .installingAddons ∨ s.row.phase = .upgrading ∧ finishesPromotion r s.row = true →
      nodesConverged s.row = true → disksConverged s.row = true) ∧
    (mountsInPassing r s.row = true → ∀ d ∈ s.row.nodeDisks, d.phase = .removing →
      mountedSince d.key s.log = true)
  | _ => True

instance (r : Reconciler) (s : State Cluster Event) (i) : Decidable (DisksInOrder r s i) :=
  match i with
  | .tick _ | .finish | .abandon | .write _ => by unfold DisksInOrder; infer_instance

/-! ### Mount runs in the history -/

theorem mountedSince_push {k : String × String} {row : Cluster} {evs : List Event} {log : History}
    (h : mountedSince k log = true ∨ ∃ e ∈ evs, k ∈ e.mountedDisks) :
    mountedSince k (push row evs log) = true := by
  induction evs generalizing log with
  | nil => simpa using h
  | cons e evs ih =>
    refine ih ?_
    rcases h with h | ⟨e', he', hk⟩
    · exact .inl (by simp [mountedSince, h])
    · rcases List.mem_cons.mp he' with rfl | he'
      · exact .inl (by simp [mountedSince, hk])
      · exact .inr ⟨e', he', hk⟩

private theorem mountedSince_change {c c' : Cluster} (hkeys : DiskKeys c') {d : NodeDisk}
    (hd : d ∈ c'.nodeDisks) (hattached : d.phase = .attached) {log : History}
    (h : mountedSince d.key log = true) :
    mountedSince d.key (.stored c c' :: log) = true ∧
      mountedSince d.key (.written c c' :: log) = true := by
  have hnot : c'.diskPending d.key = false := by
    simp only [Cluster.diskPending, List.any_eq_false, Bool.and_eq_true, beq_iff_eq, not_and]
    intro e he hkey
    rw [List.inj_on_of_nodup_map hkeys.nodup he hd hkey, hattached]
    simp
  simp [mountedSince, hnot, h]

/-! ### The disks of the row -/

/-- **The invariant of disks**: they are distinct and on desired workers, those reported are on
recorded nodes, and those attached have been mounted. -/
structure DiskInv (c : Cluster) (log : History) : Prop where
  keys : DiskKeys c
  device : ∀ d ∈ c.nodeDisks, d.deviceID ≠ "" → ∃ n ∈ c.nodes, n.role = .worker ∧
    n.vmName = d.vmName
  mounted : ∀ d ∈ c.nodeDisks, d.phase = .attached → mountedSince d.key log = true

namespace DiskInv

variable {c c' : Cluster} {log : History}

theorem push (h : DiskInv c log) (row : Cluster) (evs : List Event) :
    DiskInv c (push row evs log) :=
  ⟨h.keys, h.device, fun d hd hattached => mountedSince_push (.inl (h.mounted d hd hattached))⟩

theorem congr (h : DiskInv c log) (hworkers : workerNames c' = workerNames c)
    (hdisks : c'.nodeDisks = c.nodeDisks) (hnodes : c'.nodes = c.nodes) : DiskInv c' log where
  keys := ⟨by rw [hdisks]; exact h.keys.nodup, by rw [hdisks, hworkers]; exact h.keys.on_worker⟩
  device := by rw [hdisks, hnodes]; exact h.device
  mounted := by rw [hdisks]; exact h.mounted

theorem change (h : DiskInv c' log) (c : Cluster) :
    DiskInv c' (.stored c c' :: log) ∧ DiskInv c' (.written c c' :: log) :=
  ⟨⟨h.keys, h.device, fun d hd hattached =>
      (mountedSince_change h.keys hd hattached (h.mounted d hd hattached)).1⟩,
    ⟨h.keys, h.device, fun d hd hattached =>
      (mountedSince_change h.keys hd hattached (h.mounted d hd hattached)).2⟩⟩

theorem sublist (h : DiskInv c log) (hworkers : workerNames c' = workerNames c)
    (hdisks : c'.nodeDisks.Sublist c.nodeDisks) (hnodes : c'.nodes = c.nodes) :
    DiskInv c' log where
  keys := ⟨(hdisks.map _).nodup h.keys.nodup,
    fun d hd => hworkers ▸ h.keys.on_worker d (hdisks.subset hd)⟩
  device d hd := hnodes ▸ h.device d (hdisks.subset hd)
  mounted d hd := h.mounted d (hdisks.subset hd)

def Covers (c : Cluster) : Prop :=
  ∀ vm ∈ workerNames c, ∃ n ∈ c.nodes, n.role = .worker ∧ n.vmName = vm

theorem reported (h : DiskInv c log) (hworkers : workerNames c' = workerNames c)
    (reports : List ProvisionedNode)
    (hdisks : c'.nodeDisks = c.nodeDisks ∨ c'.nodeDisks = observeDisks c.nodeDisks reports)
    (hcovers : Covers c') : DiskInv c' log := by
  have hfrom : ∀ d' ∈ c'.nodeDisks, ∃ d ∈ c.nodeDisks, d'.key = d.key ∧ d'.phase = d.phase := by
    intro d' hd'
    rcases hdisks with heq | heq
    · exact ⟨d', heq ▸ hd', rfl, rfl⟩
    · rw [heq] at hd'
      obtain ⟨d, hd, rfl⟩ := List.mem_map.mp hd'
      exact ⟨d, hd, by simp, by simp⟩
  have hkeys : c'.nodeDisks.map (·.key) = c.nodeDisks.map (·.key) := by
    rcases hdisks with heq | heq
    · rw [heq]
    · rw [heq, observeDisks, List.map_map]
      exact List.map_congr_left fun d _ => by simp
  have hon : ∀ d' ∈ c'.nodeDisks, d'.vmName ∈ workerNames c' := by
    intro d' hd'
    obtain ⟨d, hd, hkey, -⟩ := hfrom d' hd'
    rw [hworkers, show d'.vmName = d.vmName from (Prod.mk.inj hkey).1]
    exact h.keys.on_worker d hd
  refine ⟨⟨by rw [hkeys]; exact h.keys.nodup, hon⟩, fun d' hd' _ => hcovers _ (hon d' hd'),
    fun d' hd' hattached => ?_⟩
  obtain ⟨d, hd, hkey, hphase⟩ := hfrom d' hd'
  rw [hkey]
  exact h.mounted d hd (hphase.symm.trans hattached)

theorem mem_mountableDisks {d : NodeDisk} (h : DiskInv c log) (hd : d ∈ c.nodeDisks)
    (hphase : d.phase ≠ .removing) (hdevice : d.deviceID ≠ "") : d ∈ mountableDisks c := by
  obtain ⟨n, hn, hrole, hname⟩ := h.device d hd hdevice
  refine List.mem_flatMap.mpr ⟨n, List.mem_filter.mpr ⟨hn, by simp [hrole]⟩, ?_⟩
  refine List.mem_filter.mpr ⟨mem_disksFor.mpr ⟨hd, hname.symm⟩, ?_⟩
  simp [hphase, hdevice]

/-- **A successful mount run**: what it attaches it has mounted, unless it was being removed. -/
theorem mount (h : DiskInv c log) (hevent : ∀ d ∈ mountableDisks c, mountedSince d.key log = true)
    (hremoving : ∀ d ∈ c.nodeDisks, d.phase = .removing → mountedSince d.key log = true) :
    DiskInv c.mounted log where
  keys := by
    constructor
    · have hkeys : c.mounted.nodeDisks.map (·.key) = c.nodeDisks.map (·.key) := by
        simp [Cluster.mounted, Function.comp_def]
      exact hkeys ▸ h.keys.nodup
    · intro d' hd'
      obtain ⟨d, hd, rfl⟩ := List.mem_map.mp hd'
      rw [show d.mount.vmName = d.vmName from (Prod.mk.inj d.key_mount).1]
      exact h.keys.on_worker d hd
  device d' hd' hdevice := by
    obtain ⟨d, hd, rfl⟩ := List.mem_map.mp hd'
    rw [show d.mount.vmName = d.vmName from (Prod.mk.inj d.key_mount).1]
    exact h.device d hd (by simpa using hdevice)
  mounted d' hd' hattached := by
    obtain ⟨d, hd, rfl⟩ := List.mem_map.mp hd'
    rw [d.key_mount]
    by_cases hphase : d.phase = .attached
    · exact h.mounted d hd hphase
    · have hdevice : d.deviceID ≠ "" := by
        intro hempty
        rw [NodeDisk.mount, if_neg (by simp [hempty])] at hattached
        exact hphase hattached
      by_cases hrem : d.phase = .removing
      · exact hremoving d hd hrem
      · exact hevent d (h.mem_mountableDisks hd hrem hdevice)

end DiskInv

/-! ### What a tick does to the disks -/

theorem covers_of_specs {c c' : Cluster} {specs : List NodeSpec} {reports : List ProvisionedNode}
    (hworkers : workerNames c' = workerNames c) (hnodes : c'.nodes = toDomainNodes specs reports)
    (hspecs : ∀ t ∈ nodeSpecs c, ∃ s ∈ specs, s.vmName = t.vmName ∧ s.role = t.role) :
    DiskInv.Covers c' := by
  intro vm hvm
  rw [hworkers] at hvm
  obtain ⟨d, hd, rfl⟩ := List.mem_map.mp hvm
  obtain ⟨hd, hrole⟩ := List.mem_filter.mp hd
  obtain ⟨s, hs, hname, hrole'⟩ := hspecs _ (List.mem_map_of_mem hd)
  rw [hnodes]
  exact ⟨_, List.mem_map_of_mem hs, hrole'.trans (beq_iff_eq.mp hrole), hname⟩

private theorem mem_rebuildSpecs_of_mem {c : Cluster} (node : Node) (image : String)
    {t : NodeSpec} (ht : t ∈ nodeSpecs c) :
    ∃ s ∈ rebuildSpecs c node image, s.vmName = t.vmName ∧ s.role = t.role := by
  refine ⟨_, List.mem_map_of_mem ht, ?_⟩
  dsimp only
  split <;> split <;> exact ⟨rfl, rfl⟩

section Disks

variable {r : Reconciler} {c c' : Cluster} {evs : List Event} {log : History}

private theorem mountedSince_of_mount {row : Cluster} (he : ⟨.mount c, true⟩ ∈ evs) :
    ∀ d ∈ mountableDisks c, mountedSince d.key (push row evs log) = true := by
  intro d hd
  exact mountedSince_push (.inr ⟨_, he, List.mem_map_of_mem hd⟩)

private theorem Replaced.diskInv {node : Node} {image : String} {ok : Bool}
    (h : Replaced c node image ok c' evs) (hinv : DiskInv c log)
    (hremoving : node.role = .worker → ∀ d ∈ c.nodeDisks, d.phase = .removing →
      mountedSince d.key log = true) : DiskInv c' (push c evs log) := by
  have hpush := hinv.push c evs
  cases h with
  | notReached | ensureFailed => exact hpush.congr rfl rfl rfl
  | rebuilt wired ok reports hok =>
    exact hpush.reported rfl reports (.inl rfl)
      (covers_of_specs (c := c) rfl rfl fun t ht => mem_rebuildSpecs_of_mem node image ht)
  | mounted wired ok reports hrole =>
    -- the row just before the mount run
    have hreported : DiskInv { c with
        nodes := toDomainNodes (rebuildSpecs c node image) reports
        nodeDisks := observeDisks c.nodeDisks reports } (push c _ log) :=
      hpush.reported rfl reports (.inr rfl)
        (covers_of_specs (c := c) rfl rfl fun t ht => mem_rebuildSpecs_of_mem node image ht)
    cases ok with
    | false => exact hreported.congr rfl rfl rfl
    | true =>
      refine (hreported.mount (mountedSince_of_mount (List.mem_append_right _ List.mem_cons_self))
        ?_).congr rfl rfl rfl
      intro d' hd' hphase
      obtain ⟨d, hd, rfl⟩ := List.mem_map.mp hd'
      rw [d.key_observe]
      exact mountedSince_push (.inl (hremoving hrole d hd (by simpa using hphase)))

private theorem Repaired.diskInv (h : Repaired c c' evs) (hinv : DiskInv c log)
    (hremoving : (nodeToRepair .replace c).any (·.role == .worker) = true →
      ∀ d ∈ c.nodeDisks, d.phase = .removing → mountedSince d.key log = true) :
    DiskInv c' (push c evs log) := by
  have hpush := hinv.push c evs
  cases h with
  | untouched | restoreFailed => exact hpush.congr rfl rfl rfl
  | replaced hnode hact h =>
    refine h.diskInv hinv fun hrole => hremoving ?_
    simp [nodeToRepair, hact, hnode, hrole]
  | @restored node reports =>
    exact hpush.reported rfl reports (.inl rfl)
      (covers_of_specs (c := c) rfl rfl fun t ht => mem_rebuildSpecs_of_mem node _ ht)

private theorem diskInv_update (hinv : DiskInv c log) (wired : String)
    (reports : List ProvisionedNode)
    (he : ⟨.mount ((c.released wired).provisioned (nodeSpecs (c.released wired)) reports),
      true⟩ ∈ evs) :
    DiskInv ((c.released wired).provisioned (nodeSpecs (c.released wired)) reports).mounted
      (push c evs log) := by
  have hreleased : DiskInv (c.released wired) (push c evs log) :=
    (hinv.push c evs).sublist rfl List.filter_sublist rfl
  have hreported : DiskInv ((c.released wired).provisioned (nodeSpecs (c.released wired)) reports)
      (push c evs log) :=
    hreleased.reported rfl reports (.inr rfl)
      (covers_of_specs (c := c.released wired) rfl rfl fun t ht => ⟨t, ht, rfl, rfl⟩)
  refine hreported.mount (mountedSince_of_mount he) ?_
  -- the disks being removed have been released
  intro d' hd' hphase
  obtain ⟨d, hd, rfl⟩ := List.mem_map.mp hd'
  have hkept := (List.mem_filter.mp hd).2
  simp_all

private theorem TickStep.diskInv (hstep : TickStep r c (some c') evs) (hinv : DiskInv c log)
    (hremoving : mountsInPassing r c = true → ∀ d ∈ c.nodeDisks, d.phase = .removing →
      mountedSince d.key log = true) : DiskInv c' (push c evs log) := by
  have hpush := hinv.push c evs
  generalize hres : some c' = res at hstep
  cases hstep with
  | failed | provisionFailed | mountFailed | updateFailed => simp at hres
  | provisioned hphase reports =>
    obtain rfl := Option.some.inj hres
    exact hpush.reported rfl reports (.inr rfl)
      (covers_of_specs (c := c) rfl rfl fun t ht => ⟨t, ht, rfl, rfl⟩)
  | mounted hphase =>
    obtain rfl := Option.some.inj hres
    refine (hpush.mount (mountedSince_of_mount List.mem_cons_self) fun d hd hrem => ?_).congr
      rfl rfl rfl
    exact mountedSince_push (.inl (hremoving (by simp [mountsInPassing, hphase]) d hd hrem))
  | broughtUp =>
    obtain rfl := Option.some.inj hres
    refine hpush.congr ?_ ?_ ?_ <;> unfold finishBringUp <;> split <;> rfl
  | repaired hphase hr =>
    obtain rfl := Option.some.inj hres
    refine (hr.diskInv hinv fun hany => hremoving ?_).congr rfl rfl rfl
    simp [mountsInPassing, nodeToReplace, hphase, hany]
  | @rolled hphase hop src dst hhop hsrc hdst hos hleft node hnode ok c'' _ hr =>
    cases ok with
    | false => simp at hres
    | true =>
      obtain rfl := Option.some.inj hres
      refine hr.diskInv hinv fun hrole => hremoving ?_
      have hroll := (nodeToRoll_eq hhop hsrc hdst hos hleft).trans hnode
      simp [mountsInPassing, nodeToReplace, hphase, hroll, hrole]
  | hopped =>
    obtain rfl := Option.some.inj hres
    refine hpush.congr ?_ ?_ ?_ <;> unfold finishHop <;> split <;> rfl
  | updated hphase wired reports =>
    obtain rfl := Option.some.inj hres
    refine (diskInv_update hinv wired reports
      (List.mem_append_right _ List.mem_cons_self)).congr ?_ ?_ ?_ <;>
      unfold finishUpdate <;> split <;> rfl
  | _ =>
    obtain rfl := Option.some.inj hres
    exact hpush.congr rfl rfl rfl

end Disks

/-! ### What an edit does to the disks -/

section Edits

variable {a : App} {c c' : Cluster} {m : Mutation} {log : History}

/-- **An edit keeps the invariant of disks**: those that are new are pending and not reported. -/
private theorem Edit.diskInv (hedit : Edit a c m c') (hpools : PoolNames c.nodePools)
    (h : DiskInv c log) : DiskInv c' log := by
  refine ⟨hedit.diskKeys hpools h.keys, fun d hd hdevice => ?_, fun d hd hattached => ?_⟩
  · rw [hedit.nodes]
    rcases hedit.mem_nodeDisks hd with hold | ⟨e, he, rfl⟩ | ⟨-, hnone, -⟩
    · exact h.device d hold hdevice
    · exact h.device e he hdevice
    · exact absurd hnone hdevice
  · rcases hedit.mem_nodeDisks hd with hold | ⟨e, he, rfl⟩ | ⟨hpending, -, -⟩
    · exact h.mounted d hold hattached
    · simp at hattached
    · simp [hpending] at hattached

end Edits

/-! ### The invariant -/

def Phase.comingUp (p : Phase) : Bool :=
  match p with
  | .pending | .provisioningInfra | .infraReady | .controlPlaneReady | .workersReady
  | .installingAddons => true
  | _ => false

/-- The phases of a ready cluster and of the work the clock asks for. -/
def Phase.resting (p : Phase) : Bool :=
  match p with
  | .ready | .repairing | .renewingCerts | .defragmentingEtcd | .snapshottingEtcd => true
  | _ => false

/-- **The invariant of convergence**: a generation is behind as long as something is under way,
a promotion's target stays open, and a resting cluster whose generation is observed is
settled. -/
structure ConvergenceInv (cat : Catalog) (c : Cluster) (log : History) : Prop where
  each : Each StoresSettled log
  pools : PoolNames c.nodePools
  disks : DiskInv c log
  le : c.observedGeneration ≤ c.generation
  behind : c.phase.comingUp = true ∨ c.phase = .updating ∨ c.upgradePending = true →
    c.observedGeneration < c.generation
  target : c.upgradePending = true →
    c.targetBundle ∈ (cat.upgradesFor c.bundle).map (·.name)
  upgrading : c.phase = .upgrading → c.upgradePending = true
  noTarget : c.phase.comingUp = true ∨ c.phase = .updating → c.upgradePending = false
  settled : c.phase.resting = true → c.observedGeneration = c.generation → Settled c log

section Preservation

variable {r : Reconciler} {cat : Catalog} {a : App} {c c' : Cluster} {m : Mutation}
  {evs : List Event} {log : History}

/-- What a row needs to be settled, once its attached disks are known to be mounted. -/
def LooksSettled (c : Cluster) : Prop :=
  (c.nodes.map (·.vmName)).Perm (nodeVMNames c) ∧ (∀ a ∈ c.addons, a.phase = .installed) ∧
  ∀ d ∈ c.nodeDisks, d.phase = .attached

private theorem LooksSettled.settled (h : LooksSettled c) (hdisks : DiskInv c log) :
    Settled c log :=
  ⟨h.1, h.2.1, fun d hd => ⟨h.2.2 d hd, hdisks.mounted d hd (h.2.2 d hd)⟩⟩

private theorem Settled.looksSettled (h : Settled c log) : LooksSettled c :=
  ⟨h.1, h.2.1, fun d hd => (h.2.2 d hd).1⟩

/-- **An edit keeps the invariant**: the generation it opens is not observed. -/
private theorem ConvergenceInv.edit (h : ConvergenceInv a.catalog c log)
    (hedit : Edit a c m c') : ConvergenceInv a.catalog c' (.written c c' :: log) := by
  have hlt : c'.observedGeneration < c'.generation := by
    rw [hedit.observedGeneration, hedit.generation]
    exact Nat.lt_succ_of_le h.le
  have hdisks := ((hedit.diskInv h.pools h.disks).change c).2
  refine ⟨⟨trivial, h.each⟩, ?_, hdisks, hlt.le, fun _ => hlt, ?_, ?_, ?_,
    fun _ heq => absurd heq hlt.ne⟩
  · cases hedit with
    | update addons hphase haddons hpools =>
      cases hpools with
      | keep => exact h.pools
      | change ips hwant hadmitted => exact poolNames_of_validateNodePools hadmitted.valid
    | _ => exact h.pools
  · cases hedit with
    | promote hphase hne hne' hopen => exact fun _ => hopen
    | _ => exact h.target
  · cases hedit with
    | promote hphase => simp [hphase]
    | delete => simp
    | _ => exact h.upgrading
  · cases hedit with
    | promote hphase => simp [hphase, Phase.comingUp]
    | delete => simp [Phase.comingUp]
    | _ => exact h.noTarget

private theorem ConvergenceInv.tick (h : ConvergenceInv cat c log) (evs : List Event) :
    ConvergenceInv cat c (push c evs log) :=
  { h with
    each := each_push (fun _ _ _ => trivial) h.each
    disks := h.disks.push c evs
    settled := fun hresting hobs =>
      (h.settled hresting hobs).looksSettled.settled (h.disks.push c evs) }

private theorem ConvergenceInv.store (h : ConvergenceInv cat c log)
    (hsame : SameDesire c c') (hdisks : DiskInv c' log)
    (hkept : c'.observedGeneration = c.observedGeneration ∧ c'.targetBundle = c.targetBundle ∧
      c'.bundle = c.bundle)
    (hcoming : c'.phase.comingUp = true → c.phase.comingUp = true)
    (hupdating : c'.phase = .updating →
      c.observedGeneration < c.generation ∧ c.upgradePending = false)
    (hupgrading : c'.phase = .upgrading → c.upgradePending = true)
    (hsettled : c'.phase.resting = true → c.observedGeneration = c.generation →
      LooksSettled c') : ConvergenceInv cat c' (.stored c c' :: log) := by
  obtain ⟨hobs, htarget, hbundle⟩ := hkept
  have hpending : c'.upgradePending = c.upgradePending := by
    simp only [Cluster.upgradePending, htarget, hbundle]
  have hdisks' := (hdisks.change c).1
  have hsettled' (hresting : c'.phase.resting = true)
      (heq : c'.observedGeneration = c'.generation) : Settled c' (.stored c c' :: log) := by
    rw [hobs, hsame.generation] at heq
    exact (hsettled hresting heq).settled hdisks'
  constructor
  case each =>
    exact ⟨fun hready => hsettled' (by simp [hready, Phase.resting]), h.each⟩
  case pools => exact hsame.nodePools ▸ h.pools
  case disks => exact hdisks'
  case le => rw [hobs, hsame.generation]; exact h.le
  case behind =>
    rw [hobs, hsame.generation, hpending]
    rintro (hup | hup | hup)
    · exact h.behind (.inl (hcoming hup))
    · exact (hupdating hup).1
    · exact h.behind (.inr (.inr hup))
  case target => rw [hpending, htarget, hbundle]; exact h.target
  case upgrading => rw [hpending]; exact hupgrading
  case noTarget =>
    rw [hpending]
    rintro (hup | hup)
    · exact h.noTarget (.inl (hcoming hup))
    · exact (hupdating hup).2
  case settled => exact hsettled'

private theorem ConvergenceInv.store_observed (h : ConvergenceInv cat c log)
    (hsame : SameDesire c c') (hdisks : DiskInv c' log)
    (hobserved : c'.observedGeneration = c'.generation) (hphase : c'.phase = .ready)
    (hpending : c'.upgradePending = false) (hsettled : LooksSettled c') :
    ConvergenceInv cat c' (.stored c c' :: log) := by
  have hdisks' := (hdisks.change c).1
  constructor
  case each => exact ⟨fun _ _ => hsettled.settled hdisks', h.each⟩
  case pools => exact hsame.nodePools ▸ h.pools
  case disks => exact hdisks'
  case le => exact hobserved.le
  case behind => simp [hphase, hpending, Phase.comingUp]
  case target => simp [hpending]
  case upgrading => simp [hphase]
  case noTarget => exact fun _ => hpending
  case settled => exact fun _ _ => hsettled.settled hdisks'

private theorem ConvergenceInv.store_behind (h : ConvergenceInv cat c log)
    (hsame : SameDesire c c') (hdisks : DiskInv c' log)
    (hlt : c'.observedGeneration < c'.generation) (hphase : c'.phase = .ready)
    (htarget : c'.upgradePending = true →
      c'.targetBundle ∈ (cat.upgradesFor c'.bundle).map (·.name)) :
    ConvergenceInv cat c' (.stored c c' :: log) := by
  constructor
  case each => exact ⟨fun _ heq => absurd heq hlt.ne, h.each⟩
  case pools => exact hsame.nodePools ▸ h.pools
  case disks => exact (hdisks.change c).1
  case le => exact hlt.le
  case behind => exact fun _ => hlt
  case target => exact htarget
  case upgrading => simp [hphase]
  case noTarget => simp [hphase, Phase.comingUp]
  case settled => exact fun _ heq => absurd heq hlt.ne

private theorem LooksSettled.congr (h : LooksSettled c) (hsame : SameDesire c c')
    (hnodes : c'.nodes = c.nodes) (haddons : c'.addons = c.addons)
    (hdisks : c'.nodeDisks = c.nodeDisks) : LooksSettled c' := by
  unfold LooksSettled
  rw [hsame.nodeVMNames, hnodes, haddons, hdisks]
  exact h

private theorem perm_toDomainNodes {specs : List NodeSpec} (reports : List ProvisionedNode)
    (hspecs : specs.map (·.vmName) = nodeVMNames c) :
    ((toDomainNodes specs reports).map (·.vmName)).Perm (nodeVMNames c) := by
  rw [map_vmName_toDomainNodes, hspecs]

private theorem NodeDisk.attached_mount {d : NodeDisk} (h : d.phase = .attached) :
    d.mount.phase = .attached := by
  unfold NodeDisk.mount
  split
  · rfl
  · exact h

private theorem Replaced.looksSettled {node : Node} {image : String} {ok : Bool}
    (hr : Replaced c node image ok c' evs) (h : LooksSettled c) : LooksSettled c' := by
  have hnames := map_vmName_rebuildSpecs c node image
  cases hr with
  | notReached | ensureFailed => exact h
  | rebuilt wired ok reports hok => exact ⟨perm_toDomainNodes reports hnames, h.2.1, h.2.2⟩
  | mounted wired ok reports hrole =>
    refine ⟨perm_toDomainNodes reports hnames, h.2.1, fun d' hd' => ?_⟩
    have hobserved : ∀ d ∈ observeDisks c.nodeDisks reports, d.phase = .attached := by
      intro d hd
      obtain ⟨d₀, hd₀, rfl⟩ := List.mem_map.mp hd
      rw [d₀.phase_observe]
      exact h.2.2 d₀ hd₀
    cases ok with
    | false => exact hobserved d' hd'
    | true =>
      obtain ⟨d, hd, rfl⟩ := List.mem_map.mp hd'
      exact NodeDisk.attached_mount (hobserved d hd)

private theorem Repaired.looksSettled (hr : Repaired c c' evs) (h : LooksSettled c) :
    LooksSettled c' := by
  cases hr with
  | untouched | restoreFailed => exact h
  | replaced hnode hact hr => exact hr.looksSettled h
  | restored reports =>
    exact ⟨perm_toDomainNodes reports (map_vmName_rebuildSpecs _ _ _), h.2.1, h.2.2⟩

private theorem nodesConverged_congr (hsame : SameDesire c c') (hnodes : c'.nodes = c.nodes) :
    nodesConverged c' = nodesConverged c := by
  have hlen (c : Cluster) : (nodeSpecs c).length = (nodeVMNames c).length := by
    rw [← map_vmName_nodeSpecs, List.length_map]
  have hall (c : Cluster) (nodes : List Node) :
      ((nodeSpecs c).all fun s => (nodes.map (·.vmName)).contains s.vmName) =
        (nodeVMNames c).all fun vm => (nodes.map (·.vmName)).contains vm := by
    rw [← map_vmName_nodeSpecs, List.all_map]
    rfl
  simp only [nodesConverged, hnodes, hlen, hall, hsame.nodeVMNames]

private theorem nodeToRoll_eq_none {hop : Bundle} {src dst : ResolvedBundle}
    (hhop : r.catalog.nextUpgrade c.bundle = some hop)
    (hsrc : r.catalog.resolve c.bundle = .ok src) (hdst : r.catalog.resolve hop.name = .ok dst)
    (himage : src.os.name = dst.os.name ∨ allNodesOnImage c.nodes
      (goldenImageNameFor c.infraProvider dst.os.name dst.kubernetes) = true) :
    nodeToRoll r c = none := by
  simp only [nodeToRoll, hhop, hsrc, hdst]
  exact if_neg (by rcases himage with h | h <;> simp [h])

private theorem ConvergenceInv.store_hopped (h : ConvergenceInv r.catalog c log)
    (hphase : c.phase = .upgrading) {hop : Bundle} {src dst : ResolvedBundle}
    (hhop : r.catalog.nextUpgrade c.bundle = some hop)
    (hsrc : r.catalog.resolve c.bundle = .ok src) (hdst : r.catalog.resolve hop.name = .ok dst)
    (himage : src.os.name = dst.os.name ∨ allNodesOnImage c.nodes
      (goldenImageNameFor c.infraProvider dst.os.name dst.kubernetes) = true)
    (horder : finishesPromotion r c = true → nodesConverged c = true → disksConverged c = true)
    (hsame : SameDesire c c') (hdisks : DiskInv (finishHop c') log)
    (hbundle : c'.bundle = hop.name ∧ c'.targetBundle = c.targetBundle)
    (hkept : c'.nodes = c.nodes ∧ c'.nodeDisks = c.nodeDisks ∧
      c'.observedGeneration = c.observedGeneration)
    (ha : ∀ a ∈ c'.addons, a.phase = .installed) :
    ConvergenceInv r.catalog (finishHop c') (.stored c (finishHop c') :: log) := by
  have hpending := h.upgrading hphase
  have hlt := h.behind (.inr (.inr hpending))
  rw [← hkept.2.2, ← hsame.generation] at hlt
  have hfinish : SameDesire c (finishHop c') := hsame.finishHop
  unfold finishHop at hdisks hfinish ⊢
  split at hdisks
  · rename_i hlast
    rw [if_pos hlast] at hfinish ⊢
    by_cases hconv : nodesConverged c' = true
    · have hconv' : nodesConverged c = true := nodesConverged_congr hsame hkept.1 ▸ hconv
      have hfinishes : finishesPromotion r c = true := by
        simp [finishesPromotion, hhop, ← hbundle.1, hlast, hbundle.2,
          nodeToRoll_eq_none hhop hsrc hdst himage]
      have hattached := disksConverged_iff.mp (horder hfinishes hconv')
      refine h.store_observed hfinish hdisks (by simp [hconv]) rfl
        (by simp [Cluster.upgradePending])
        ⟨?_, ha, by simpa [hkept.2.1] using hattached⟩
      exact perm_of_nodesConverged (c := c') (hsame.nodePools ▸ h.pools) hconv
    · refine h.store_behind hfinish hdisks (by simpa [hconv] using hlt) rfl ?_
      simp [Cluster.upgradePending]
  · rename_i hlast
    rw [if_neg hlast] at hfinish ⊢
    refine h.store_behind hfinish hdisks hlt rfl fun _ => ?_
    -- the target was open before the hop and is not where it ends
    obtain ⟨b, hb, hname⟩ := List.mem_map.mp (h.target hpending)
    simp only [hbundle]
    rcases Catalog.mem_upgradesFor_of_hop hhop hb with rfl | hb
    · exact absurd (hbundle.1.trans (hname.trans hbundle.2.symm)) hlast
    · exact List.mem_map.mpr ⟨b, hb, hname⟩

private theorem ConvergenceInv.store_broughtUp (h : ConvergenceInv cat c log)
    (hphase : c.phase = .installingAddons)
    (horder : nodesConverged c = true → disksConverged c = true) (hsame : SameDesire c c')
    (hdisks : DiskInv (finishBringUp c') log)
    (hkept : c'.nodes = c.nodes ∧ c'.nodeDisks = c.nodeDisks ∧
      c'.observedGeneration = c.observedGeneration ∧ c'.upgradePending = c.upgradePending)
    (ha : ∀ a ∈ c'.addons, a.phase = .installed) :
    ConvergenceInv cat (finishBringUp c') (.stored c (finishBringUp c') :: log) := by
  have hcoming : c.phase.comingUp = true := by simp [hphase, Phase.comingUp]
  have hlt := h.behind (.inl hcoming)
  have hpending : c'.upgradePending = false := hkept.2.2.2.trans (h.noTarget (.inl hcoming))
  rw [← hkept.2.2.1, ← hsame.generation] at hlt
  have hfinish : SameDesire c (finishBringUp c') := hsame.finishBringUp
  unfold finishBringUp at hdisks hfinish ⊢
  split at hdisks
  · rename_i hconv
    rw [if_pos hconv] at hfinish ⊢
    have hattached := disksConverged_iff.mp
      (horder (nodesConverged_congr hsame hkept.1 ▸ hconv))
    refine h.store_observed hfinish hdisks rfl rfl hpending
      ⟨?_, ha, by simpa [hkept.2.1] using hattached⟩
    exact perm_of_nodesConverged (c := c') (hsame.nodePools ▸ h.pools) hconv
  · rename_i hconv
    rw [if_neg hconv] at hfinish ⊢
    refine h.store_behind hfinish hdisks hlt rfl fun hup => ?_
    exact absurd (show c'.upgradePending = true from hup) (by simp [hpending])

private theorem ConvergenceInv.store_updated (h : ConvergenceInv cat c log)
    (hphase : c.phase = .updating) (hsame : SameDesire c c')
    (hdisks : DiskInv (finishUpdate c') log)
    (hkept : c'.observedGeneration = c.observedGeneration ∧
      c'.upgradePending = c.upgradePending)
    (hnodes : (c'.nodes.map (·.vmName)).Perm (nodeVMNames c'))
    (ha : ∀ a ∈ c'.addons, a.phase = .installed) :
    ConvergenceInv cat (finishUpdate c') (.stored c (finishUpdate c') :: log) := by
  have hlt := h.behind (.inr (.inl hphase))
  have hpending : c'.upgradePending = false := hkept.2.trans (h.noTarget (.inr hphase))
  rw [← hkept.1, ← hsame.generation] at hlt
  have hfinish : SameDesire c (finishUpdate c') := hsame.finishUpdate
  unfold finishUpdate at hdisks hfinish ⊢
  split at hdisks
  · rename_i hconv
    rw [if_pos hconv] at hfinish ⊢
    exact h.store_observed hfinish hdisks rfl rfl hpending
      ⟨hnodes, ha, disksConverged_iff.mp hconv⟩
  · rename_i hconv
    rw [if_neg hconv] at hfinish ⊢
    refine h.store_behind hfinish hdisks hlt rfl fun hup => ?_
    exact absurd (show c'.upgradePending = true from hup) (by simp [hpending])

private theorem Repaired.kept {c c' : Cluster} {evs : List Event} (h : Repaired c c' evs) :
    c'.observedGeneration = c.observedGeneration ∧ c'.targetBundle = c.targetBundle ∧
      c'.bundle = c.bundle := by
  cases h with
  | replaced hnode hact hr => cases hr <;> exact ⟨rfl, rfl, rfl⟩
  | _ => exact ⟨rfl, rfl, rfl⟩

private theorem ConvergenceInv.store_tick (h : ConvergenceInv r.catalog c log)
    (horder : c.phase = .installingAddons ∨ c.phase = .upgrading ∧ finishesPromotion r c = true →
      nodesConverged c = true → disksConverged c = true)
    (hremoving : mountsInPassing r c = true → ∀ d ∈ c.nodeDisks, d.phase = .removing →
      mountedSince d.key log = true)
    (hstep : TickStep r c (some c') evs) :
    ConvergenceInv r.catalog c' (.stored c c' :: push c evs log) := by
  have hlog := h.tick evs
  have hdisks := hstep.diskInv h.disks hremoving
  have hsame := hstep.sameDesire
  generalize hres : some c' = res at hstep
  cases hstep with
  | failed | provisionFailed | mountFailed | updateFailed => simp at hres
  | advance hphase =>
    obtain rfl := Option.some.inj hres
    simp only [List.mem_cons, Prod.mk.injEq, List.not_mem_nil, or_false] at hphase
    refine hlog.store hsame hdisks ⟨rfl, rfl, rfl⟩ ?_ ?_ ?_ ?_ <;>
      rcases hphase with ⟨hp, rfl⟩ | ⟨hp, rfl⟩ | ⟨hp, rfl⟩ | ⟨hp, rfl⟩ | ⟨hp, rfl⟩ <;>
      simp [hp, Phase.comingUp, Phase.resting]
  | provisioned hphase | mounted hphase =>
    obtain rfl := Option.some.inj hres
    refine hlog.store hsame hdisks ⟨rfl, rfl, rfl⟩ ?_ ?_ ?_ ?_ <;>
      simp [hphase, Phase.comingUp, Phase.resting]
  | broughtUp hphase addons w ha =>
    obtain rfl := Option.some.inj hres
    exact hlog.store_broughtUp hphase (horder (.inl hphase)) ⟨rfl, rfl, rfl, rfl, rfl, rfl⟩ hdisks
      ⟨rfl, rfl, rfl, rfl⟩ ha
  | toUpgrading hphase hpending =>
    obtain rfl := Option.some.inj hres
    refine hlog.store hsame hdisks ⟨rfl, rfl, rfl⟩ ?_ ?_ (fun _ => hpending) ?_ <;>
      simp [Phase.comingUp, Phase.resting]
  | toUpdating hphase hpending hbehind =>
    obtain rfl := Option.some.inj hres
    refine hlog.store hsame hdisks ⟨rfl, rfl, rfl⟩ ?_
      (fun _ => ⟨lt_of_le_of_ne h.le hbehind, hpending⟩) ?_ ?_ <;>
      simp [Phase.comingUp, Phase.resting]
  | timed hphase hpending hobserved hp =>
    obtain rfl := Option.some.inj hres
    have hsettled := (h.settled (by simp [hphase, Phase.resting]) hobserved).looksSettled
    simp only [List.mem_cons, List.not_mem_nil, or_false] at hp
    refine hlog.store hsame hdisks ⟨rfl, rfl, rfl⟩ ?_ ?_ ?_
      (fun _ _ => hsettled.congr hsame rfl rfl rfl) <;>
      rcases hp with rfl | rfl | rfl | rfl | rfl <;> simp [Phase.comingUp]
  | maintained hphase =>
    obtain rfl := Option.some.inj hres
    have hresting : c.phase.resting = true := by
      simp only [List.mem_cons, List.not_mem_nil, or_false] at hphase
      rcases hphase with hphase | hphase | hphase <;> simp [hphase, Phase.resting]
    refine hlog.store hsame hdisks ⟨rfl, rfl, rfl⟩ (by simp [Phase.comingUp]) (by simp) (by simp)
      fun _ hobserved => ?_
    exact (h.settled hresting hobserved).looksSettled.congr hsame rfl rfl rfl
  | repaired hphase hr =>
    obtain rfl := Option.some.inj hres
    refine hlog.store hsame hdisks hr.kept (by simp [Phase.comingUp]) (by simp)
      (by simp) fun _ hobserved => ?_
    have hsettled := (h.settled (by simp [hphase, Phase.resting]) hobserved).looksSettled
    exact (hr.looksSettled hsettled).congr ⟨rfl, rfl, rfl, rfl, rfl, rfl⟩ rfl rfl rfl
  | noHop hphase hhop =>
    -- the target of a promotion under way is still ahead
    have htarget := h.target (h.upgrading hphase)
    rw [Catalog.nextUpgrade, List.head?_eq_none_iff] at hhop
    simp [hhop] at htarget
  | @rolled hphase hop src dst hhop hsrc hdst hos hleft node hnode ok c'' _ hr =>
    cases ok with
    | false => simp at hres
    | true =>
      obtain rfl := Option.some.inj hres
      have hkept : c'.phase = c.phase ∧ c'.observedGeneration = c.observedGeneration ∧
          c'.targetBundle = c.targetBundle ∧ c'.bundle = c.bundle := by
        cases hr <;> exact ⟨rfl, rfl, rfl, rfl⟩
      refine hlog.store hsame hdisks hkept.2 ?_ ?_ (fun _ => h.upgrading hphase) ?_ <;>
        simp [hkept.1, hphase, Phase.comingUp, Phase.resting]
  | nothingToRoll hphase hnodes =>
    obtain rfl := Option.some.inj hres
    refine hlog.store hsame hdisks ⟨rfl, rfl, rfl⟩ id ?_ h.upgrading ?_ <;>
      simp [hphase, Phase.resting]
  | hopped hphase hhop hsrc hdst himage addons ha =>
    obtain rfl := Option.some.inj hres
    exact hlog.store_hopped hphase hhop hsrc hdst himage
      (fun hfinishes => horder (.inr ⟨hphase, hfinishes⟩)) ⟨rfl, rfl, rfl, rfl, rfl, rfl⟩ hdisks
      ⟨rfl, rfl⟩ ⟨rfl, rfl, rfl⟩ ha
  | updated hphase wired reports addons ha =>
    obtain rfl := Option.some.inj hres
    exact hlog.store_updated hphase ⟨rfl, rfl, rfl, rfl, rfl, rfl⟩ hdisks ⟨rfl, rfl⟩
      (perm_toDomainNodes reports (map_vmName_nodeSpecs _)) ha
  | deleted hphase =>
    obtain rfl := Option.some.inj hres
    refine hlog.store hsame hdisks ⟨rfl, rfl, rfl⟩ ?_ ?_ ?_ ?_ <;>
      simp [Phase.comingUp, Phase.resting]

end Preservation

/-- **What is stored as ready is settled**, in a run whose ticks find the disks in order where
the code does not look at them. -/
theorem settled_of_disksInOrder (P : Platform) (c : Cluster) (is : Platform.Inputs)
    (hcreated : Created P.app.catalog c) (horder : P.Along (DisksInOrder P.reconciler) c is) :
    Each StoresSettled (P.run c is).log := by
  have hinit : ConvergenceInv P.app.catalog c [] := by
    refine ⟨trivial, hcreated.pools, ⟨hcreated.disks, ?_, ?_⟩, hcreated.behind.le,
      fun _ => hcreated.behind, ?_, ?_, ?_, ?_⟩
    · intro d hd hdevice
      exact absurd (hcreated.fresh d hd).2 hdevice
    · intro d hd hattached
      simp [(hcreated.fresh d hd).1] at hattached
    · simp [Cluster.upgradePending, hcreated.target]
    · simp [hcreated.phase]
    · simp [Cluster.upgradePending, hcreated.target]
    · simp [hcreated.phase, Phase.resting]
  refine (Platform.run_invariant (ConvergenceInv P.app.catalog) ?_ ?_ hinit horder).each
  · intro s ρ res evs hinv hidle hcond hstep
    refine ⟨hinv.tick evs, fun c' hc' => ?_⟩
    rw [← P.same] at hinv ⊢
    exact hinv.store_tick (hcond hidle).1 (hcond hidle).2 (hc' ▸ hstep)
  · intro s k c' hinv _ hedit
    exact hinv.edit hedit

/-- The provider reports a device for the disk of the first worker. -/
def reportsDemoDisk : Env where
  provisioned _ := [{ vmName := "demo-default-0", disks := AList.singleton "data" "wwn-1" }]

/-- A disk is added to a running cluster, and the update mounts it. -/
def addDiskRun : Platform.Inputs :=
  bringUpRun ++ submit (.addNodeDisk demoDisk) ++ pass {} ++ pass reportsDemoDisk

theorem settled_addDiskRun :
    rollingPlatform.Along (DisksInOrder rollingPlatform.reconciler) demoCluster addDiskRun ∧
    (rollingPlatform.run demoCluster addDiskRun).row.phase = .ready ∧
    Each StoresSettled (rollingPlatform.run demoCluster addDiskRun).log := by
  have hcreated : Created rollingPlatform.app.catalog demoCluster := created_demoCluster _ _
  have horder : rollingPlatform.Along (DisksInOrder rollingPlatform.reconciler) demoCluster
      addDiskRun := by decide +kernel
  exact ⟨horder, by decide +kernel,
    settled_of_disksInOrder rollingPlatform demoCluster addDiskRun hcreated horder⟩

/-- A disk is added and, before the update, the cluster is promoted: the end of the promotion
observes the generation of both edits and leaves the disk pending. -/
def addDiskThenPromote : Platform.Inputs :=
  bringUpRun ++ submit (.addNodeDisk demoDisk) ++ submit (.promoteCluster "r2") ++ pass {} ++
    pass reportsDemoDisk

theorem unsettled_after_promotion :
    Created inPlacePlatform.app.catalog demoCluster ∧
    ¬Each StoresSettled (inPlacePlatform.run demoCluster addDiskThenPromote).log := by
  refine ⟨created_demoCluster _ _, ?_⟩
  decide +kernel

end KaaS
