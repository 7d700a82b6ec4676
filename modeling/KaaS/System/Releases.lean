import KaaS.System.Convergence
import KaaS.System.Sizes
import KaaS.System.Watch

/-!
# Disks are released before they go

An extra disk is taken from a machine by asking for the machine without it. Before that it has to
be **released**: Longhorn moves its replicas elsewhere (`EvictLonghornDisks`), then the machine
unmounts it (`RemoveNodeDisks`). Only the update releases disks, and it drops their
rows when both calls succeeded.

Two things are said of whole runs. A machine that two consecutive calls ask for keeps its disks,
except those released in between (`disksReleasedFirst_of_returns`); and a disk that is being removed
stays so until it is released or its machine is no longer desired (`removing_stays`). Neither
holds of all runs: a pool edit drops the disks of a machine it takes away, and the next edit may
bring the machine back before anything was asked for; and a mount run outside an update counts
every reported disk as attached, those being removed among them.
-/

namespace KaaS

open Optimistic Effect Effect.Account

/-! ### Releases in a history -/

/-- The disks a call has evicted from Longhorn. -/
def Event.evicted (e : Event) : List (String × String) :=
  match e.call, e.ok with
  | .evictLonghornDisks disks, true => disks.map (·.key)
  | _, _ => []

def Event.unmounted (e : Event) : List (String × String) :=
  match e.call, e.ok with
  | .removeNodeDisks disks, true => disks.map (·.key)
  | _, _ => []

/-- The call an entry records, if it records one. -/
def doneBy : Entry Cluster Event → Option Event
  | .did _ e => some e
  | .stored _ _ | .written _ _ => none

/-- The disk `k` was evicted after the latest entry that `stop` holds of. -/
def evictedSince (stop : Entry Cluster Event → Bool) (k : String × String) : History → Bool
  | [] => false
  | entry :: log => !stop entry &&
    ((doneBy entry).any (·.evicted.contains k) || evictedSince stop k log)

/-- The disk `k` was evicted and **then** unmounted after the latest entry that `stop` holds of. -/
def releasedSince (stop : Entry Cluster Event → Bool) (k : String × String) : History → Bool
  | [] => false
  | entry :: log => !stop entry &&
    ((doneBy entry).any (·.unmounted.contains k) && evictedSince stop k log ||
      releasedSince stop k log)

def callsForMachines (entry : Entry Cluster Event) : Bool :=
  (doneBy entry).any (·.asked.isSome)

def changesRow (entry : Entry Cluster Event) : Bool := (doneBy entry).isNone

/-- The calls `es` release the disk `k`. -/
def ReleasedIn (es : List Event) (k : String × String) : Prop :=
  ∃ pre post disks, es = pre ++ ⟨.evictLonghornDisks disks, true⟩ ::
    ⟨.removeNodeDisks disks, true⟩ :: post ∧ k ∈ disks.map (·.key)

namespace ReleasedIn

variable {es fs : List Event} {k : String × String}

theorem append_right (h : ReleasedIn es k) : ReleasedIn (es ++ fs) k := by
  obtain ⟨pre, post, disks, rfl, hk⟩ := h
  exact ⟨pre, post ++ fs, disks, by simp, hk⟩

theorem append_left (h : ReleasedIn es k) : ReleasedIn (fs ++ es) k := by
  obtain ⟨pre, post, disks, rfl, hk⟩ := h
  exact ⟨fs ++ pre, post, disks, by simp, hk⟩

theorem releasedSince_push {stop : Entry Cluster Event → Bool} {row : Cluster} {log : History}
    (h : ReleasedIn es k) (hstop : ∀ e ∈ es, stop (.did row e) = false) :
    releasedSince stop k (push row es log) = true := by
  obtain ⟨pre, post, disks, rfl, hk⟩ := h
  simp only [List.forall_mem_append, List.forall_mem_cons] at hstop
  obtain ⟨-, hevict, hremove, hpost⟩ := hstop
  rw [push_append, push_cons, push_cons]
  have hmem : (disks.map (·.key)).contains k = true := List.contains_iff_mem.mpr hk
  have hrelease : releasedSince stop k (.did row ⟨.removeNodeDisks disks, true⟩ ::
      .did row ⟨.evictLonghornDisks disks, true⟩ :: push row pre log) = true := by
    simp only [releasedSince, evictedSince, doneBy, Event.evicted, Event.unmounted,
      Option.any_some, hmem, hevict, hremove, Bool.not_false, Bool.true_and, Bool.true_or]
  generalize Entry.did row ⟨Call.removeNodeDisks disks, true⟩ ::
    Entry.did row ⟨Call.evictLonghornDisks disks, true⟩ :: push row pre log = base at hrelease
  induction post generalizing base with
  | nil => exact hrelease
  | cons e post ih =>
    refine ih (fun e' he' => hpost e' (List.mem_cons_of_mem e he')) _ ?_
    simp [releasedSince, hpost e List.mem_cons_self, hrelease]

end ReleasedIn

/-! ### What a tick does about disks -/

/-- **The call for machines of a tick** on `c`, if it makes one: for the machines of the row with
the disks `left`, after the release of those that are not left. -/
inductive AsksOnce (c : Cluster) (left : List NodeDisk) : List Event → Prop
  | silent {es : List Event} (hes : ∀ e ∈ es, e.asked = none) (hleft : left = c.nodeDisks) :
      AsksOnce c left es
  | asked {pre post : List Event} {e : Event} {specs : List NodeSpec}
      (hpre : ∀ x ∈ pre, x.asked = none) (hpost : ∀ x ∈ post, x.asked = none)
      (hspecs : e.asked = some specs) (hvm : ∀ m ∈ specs, m.vmName ∈ nodeVMNames c)
      (hdisks : ∀ m ∈ specs, m.disks = diskSpecs { c with nodeDisks := left } m.vmName)
      (hsub : left.Sublist c.nodeDisks)
      (hleft : ∀ d ∈ c.nodeDisks, d ∈ left ∨ ReleasedIn pre d.key) :
      AsksOnce c left (pre ++ e :: post)

namespace AsksOnce

variable {c : Cluster} {left : List NodeDisk} {es fs : List Event}

theorem after (h : AsksOnce c left es) (hfs : ∀ e ∈ fs, e.asked = none) :
    AsksOnce c left (fs ++ es) := by
  cases h with
  | silent hes hleft => exact .silent (List.forall_mem_append.mpr ⟨hfs, hes⟩) hleft
  | asked hpre hpost hspecs hvm hdisks hsub hleft =>
    rw [← List.append_assoc]
    exact .asked (List.forall_mem_append.mpr ⟨hfs, hpre⟩) hpost hspecs hvm hdisks hsub
      fun d hd => (hleft d hd).imp_right .append_left

theorem before (h : AsksOnce c left es) (hfs : ∀ e ∈ fs, e.asked = none) :
    AsksOnce c left (es ++ fs) := by
  cases h with
  | silent hes hleft => exact .silent (List.forall_mem_append.mpr ⟨hes, hfs⟩) hleft
  | asked hpre hpost hspecs hvm hdisks hsub hleft =>
    rw [List.append_assoc, List.cons_append]
    exact .asked hpre (List.forall_mem_append.mpr ⟨hpost, hfs⟩) hspecs hvm hdisks hsub hleft

theorem congr {c' : Cluster} (h : AsksOnce c left es) (hvms : nodeVMNames c' = nodeVMNames c)
    (hrow : c'.nodeDisks = c.nodeDisks) : AsksOnce c' left es := by
  cases h with
  | silent hes hleft => exact .silent hes (hleft.trans hrow.symm)
  | asked hpre hpost hspecs hvm hdisks hsub hleft =>
    exact .asked hpre hpost hspecs (hvms ▸ hvm) hdisks (hrow ▸ hsub) (hrow ▸ hleft)

theorem sublist (h : AsksOnce c left es) : left.Sublist c.nodeDisks := by
  cases h with
  | silent hes hleft => exact hleft ▸ List.Sublist.refl _
  | asked hpre hpost hspecs hvm hdisks hsub hleft => exact hsub

theorem left_or_released (h : AsksOnce c left es) {d : NodeDisk} (hd : d ∈ c.nodeDisks) :
    d ∈ left ∨ ReleasedIn es d.key := by
  cases h with
  | silent hes hleft => exact .inl (hleft ▸ hd)
  | asked hpre hpost hspecs hvm hdisks hsub hleft =>
    exact (hleft d hd).imp_right .append_right

end AsksOnce

/-- How the disks of a row fare in a tick that returns: those `left` are passed through `f`, which
keeps their names. It keeps their phases too, unless the tick mounts disks; then it does so outside
an update, or none of those left is being removed. -/
structure Fares (r : Reconciler) (c : Cluster) (left : List NodeDisk) (f : NodeDisk → NodeDisk)
    (c' : Cluster) : Prop where
  disks : c'.nodeDisks = left.map f
  key : ∀ d, (f d).key = d.key
  phase : (∀ d, (f d).phase = d.phase) ∨ mountsInPassing r c = true ∨
    ∀ d ∈ left, d.phase ≠ .removing

section Tick

variable {r : Reconciler} {ρ : Env} {c c' : Cluster} {ok : Bool} {es : List Event} {node : Node}
  {image : String} {force : Bool}

private theorem disks_of_mem_nodeSpecs {m : NodeSpec} (h : m ∈ nodeSpecs c) :
    m.vmName ∈ nodeVMNames c ∧ m.disks = diskSpecs c m.vmName := by
  obtain ⟨d, hd, rfl⟩ := List.mem_map.mp h
  exact ⟨List.mem_map_of_mem hd, rfl⟩

private theorem disks_of_mem_rebuildSpecs {m : NodeSpec} (h : m ∈ rebuildSpecs c node image) :
    m.vmName ∈ nodeVMNames c ∧ m.disks = diskSpecs c m.vmName := by
  have hbare : m.bare ∈ (nodeSpecs c).map (·.bare) := by
    rw [← map_bare_rebuildSpecs c node image]
    exact List.mem_map_of_mem h
  obtain ⟨s, hs, hbare⟩ := List.mem_map.mp hbare
  have hvm : m.vmName = s.vmName := (congrArg NodeSpec.vmName hbare).symm
  have hdisks : m.disks = s.disks := (congrArg NodeSpec.disks hbare).symm
  rw [hvm, hdisks]
  exact disks_of_mem_nodeSpecs hs

theorem Recreates.asksOnce (h : Recreates node image force c ok c' es) :
    AsksOnce c c.nodeDisks es ∧ c'.nodeDisks = c.nodeDisks := by
  have hforce : ∀ e ∈ forceCalls force node, e.asked = none := by
    unfold forceCalls
    split <;> simp [Event.asked]
  have hask (sent : Bool) : AsksOnce c c.nodeDisks
      (forceCalls force node ++ [⟨.ensure c (rebuildSpecs c node image), sent⟩]) :=
    .asked hforce (by simp) rfl (fun m hm => (disks_of_mem_rebuildSpecs hm).1)
      (fun m hm => (disks_of_mem_rebuildSpecs hm).2) (List.Sublist.refl _) fun d hd => .inl hd
  cases h with
  | refused => exact ⟨.silent (by simp) rfl, rfl⟩
  | notReplaced hforced => exact ⟨.silent (by simp [Event.asked]) rfl, rfl⟩
  | ensureFailed => exact ⟨hask false, rfl⟩
  | recreated reports => exact ⟨hask true, rfl⟩

private theorem only_takesDown : Only (fun e : Event => e.asked = none) (TakesDown node) := by
  rintro c ok c' es ⟨⟩ <;> simp [Event.asked]

/-- The disks `disks` after some were reported and, on a worker, mounted. -/
def Mounted (node : Node) (disks disks' : List NodeDisk) : Prop :=
  ∃ f : NodeDisk → NodeDisk, disks' = disks.map f ∧ (∀ d, (f d).key = d.key) ∧
    ((∀ d, (f d).phase = d.phase) ∨ node.role = .worker)

private theorem Mounted.refl (node : Node) (disks : List NodeDisk) : Mounted node disks disks :=
  ⟨id, (List.map_id _).symm, fun _ => rfl, .inl fun _ => rfl⟩

private theorem BringsUp.mounts (h : BringsUp node c ok c' es) :
    (∀ e ∈ es, e.asked = none) ∧ Mounted node c.nodeDisks c'.nodeDisks := by
  cases h with
  | failed | joined => exact ⟨by simp, .refl _ _⟩
  | mounted hrole reports hm =>
    cases hm with
    | failed =>
      exact ⟨by simp [Event.asked, Call.mount], fun d => d.observe reports, rfl,
        fun d => by simp, .inl fun d => by simp⟩
    | mounted =>
      refine ⟨by simp [Event.asked, Call.mount], fun d => (d.observe reports).mount, ?_,
        fun d => by simp, .inr hrole⟩
      simp only [Cluster.mounted, observeDisks, List.map_map, Function.comp_def]

theorem Replaces.asksOnce (h : Replaces node image force c ok c' es) :
    AsksOnce c c.nodeDisks es ∧ Mounted node c.nodeDisks c'.nodeDisks := by
  rcases h with ⟨⟨⟩⟩ | ⟨⟨⟩, ⟨⟨⟩⟩ | ⟨⟨⟩, hdown | ⟨hdown, hcreate | ⟨hcreate, hup⟩⟩⟩⟩
  · exact ⟨.silent (by simp) rfl, .refl _ _⟩
  · refine ⟨.silent (only_takesDown hdown) rfl, ?_⟩
    rw [hdown.copy]
    exact .refl _ _
  · rw [hdown.copy] at hcreate
    obtain ⟨hasks, hdisks⟩ := hcreate.asksOnce
    refine ⟨(hasks.after (only_takesDown hdown)).congr rfl rfl, ?_⟩
    rw [hdisks]
    exact .refl _ _
  · rw [hdown.copy] at hcreate
    obtain ⟨hasks, hdisks⟩ := hcreate.asksOnce
    obtain ⟨hquiet, hmounted⟩ := hup.mounts
    rw [hdisks] at hmounted
    exact ⟨((hasks.before hquiet).after (only_takesDown hdown)).congr rfl rfl, hmounted⟩

private theorem ReleasesDisks.left {c₁ : Cluster} (h : ReleasesDisks c true c₁ es) :
    nodeVMNames c₁ = nodeVMNames c ∧ c₁.nodeDisks.Sublist c.nodeDisks ∧
      (∀ d ∈ c.nodeDisks, d ∈ c₁.nodeDisks ∨ ReleasedIn es d.key) ∧
      ∀ d ∈ c₁.nodeDisks, d.phase ≠ .removing := by
  cases h with
  | skipped hnone =>
    refine ⟨rfl, List.Sublist.refl _, fun d hd => .inl hd, fun d hd hphase => ?_⟩
    have hmem : d ∈ removingDisks c := List.mem_filter.mpr ⟨hd, by simp [hphase]⟩
    simp [hnone] at hmem
  | released hsome =>
    refine ⟨rfl, List.filter_sublist, fun d hd => ?_, fun d hd => ?_⟩
    · by_cases hphase : d.phase = .removing
      · refine .inr ⟨[], [], removingDisks c, rfl, List.mem_map_of_mem ?_⟩
        exact List.mem_filter.mpr ⟨hd, by simp [hphase]⟩
      · exact .inl (List.mem_filter.mpr ⟨hd, by simp [hphase]⟩)
    · simpa using (List.mem_filter.mp hd).2

private theorem only_drains : Only (fun e : Event => e.asked = none) Drains := by
  rintro c ok c' es ⟨⟩ <;> simp [Event.asked]

private theorem only_releasesDisks : Only (fun e : Event => e.asked = none) ReleasesDisks := by
  rintro c ok c' es (- | ⟨-, rfl | rfl⟩ | -) <;> simp [Event.asked]

private theorem only_settlesAndWires {g : Cluster → Cluster} :
    Only (fun e : Event => e.asked = none) (Then Settles (Then Wiring (Sets g))) :=
  (only_settles (fun _ _ => rfl) fun _ _ => rfl).after
    ((only_wiring (fun _ => rfl) (fun _ => rfl) (fun _ => rfl) fun _ => rfl).after Only.sets)

private theorem leaves_settlesAndWires {g : Cluster → Cluster}
    (hg : ∀ c, (g c).nodeDisks = c.nodeDisks) :
    Leaves Cluster.nodeDisks (Then Settles (Then Wiring (Sets g))) :=
  (leaves_settles fun _ _ => rfl).after ((leaves_wiring (fun _ => rfl) (fun _ => rfl)
    (fun _ => rfl) fun _ => rfl).after (Leaves.sets hg))

private theorem UpdatesMachines.asksOnce (h : UpdatesMachines ρ c ok c' es) :
    ∃ left, AsksOnce c left es ∧ (ok = true → ∃ f : NodeDisk → NodeDisk,
      c'.nodeDisks = left.map f ∧ (∀ d, (f d).key = d.key) ∧ ∀ d ∈ left, d.phase ≠ .removing) := by
  rcases h with hdrain | ⟨hdrain, hrelease | ⟨hrelease, hask⟩⟩
  · exact ⟨c.nodeDisks, .silent (only_drains hdrain) rfl, nofun⟩
  · refine ⟨c.nodeDisks, .silent (List.forall_mem_append.mpr ⟨only_drains hdrain, ?_⟩) rfl, nofun⟩
    exact only_releasesDisks hrelease
  · rw [hdrain.copy] at hrelease
    obtain ⟨hvms, hsub, hleft, hnone⟩ := hrelease.left
    rename_i _ drains c₁ releases calls
    have hasked (sent : Bool) {post : List Event} (hpost : ∀ e ∈ post, e.asked = none) :
        AsksOnce c c₁.nodeDisks
          (drains ++ (releases ++ ⟨.ensure c₁ (nodeSpecs c₁), sent⟩ :: post)) := by
      rw [← List.append_assoc]
      exact .asked (List.forall_mem_append.mpr ⟨only_drains hdrain, only_releasesDisks hrelease⟩)
        hpost rfl (fun m hm => hvms ▸ (disks_of_mem_nodeSpecs hm).1)
        (fun m hm => (disks_of_mem_nodeSpecs hm).2) hsub
        fun d hd => (hleft d hd).imp_right .append_left
    rcases hask with ⟨⟨⟩⟩ | ⟨⟨⟩, ⟨⟨⟩⟩ | ⟨⟨⟩, hmount⟩⟩
    · exact ⟨_, hasked false (List.forall_mem_nil _), nofun⟩
    · exact ⟨_, hasked true (List.forall_mem_nil _), nofun⟩
    · refine ⟨c₁.nodeDisks, hasked true (by cases hmount <;> simp [Event.asked, Call.mount]), ?_⟩
      rintro rfl
      cases hmount
      refine ⟨fun d => (d.observe (ρ.provisioned (nodeSpecs c₁))).mount, ?_, fun d => by simp,
        hnone⟩
      simp only [Cluster.mounted, Cluster.provisioned, observeDisks, List.map_map,
        Function.comp_def]

private theorem Updates.asksOnce (h : Updates ρ c ok c' es) :
    ∃ left, AsksOnce c left es ∧ (ok = true → ∃ f : NodeDisk → NodeDisk,
      c'.nodeDisks = left.map f ∧ (∀ d, (f d).key = d.key) ∧ ∀ d ∈ left, d.phase ≠ .removing) := by
  have hfinish (c : Cluster) : (finishUpdate c).nodeDisks = c.nodeDisks := by
    unfold finishUpdate
    split <;> rfl
  rcases h with hmachines | ⟨hmachines, hrest⟩
  · exact hmachines.asksOnce
  · obtain ⟨left, hasks, hfares⟩ := hmachines.asksOnce
    refine ⟨left, hasks.before (only_settlesAndWires hrest), fun _ => ?_⟩
    rw [leaves_settlesAndWires hfinish hrest]
    exact hfares rfl

/-- **How disks fare in a tick.** -/
theorem TickAccount.fares (h : TickAccount r ρ c ok c' es) :
    ∃ left, AsksOnce c left es ∧ (ok = true → ∃ f, Fares r c left f c') := by
  -- most ticks ask for nothing and leave the disks alone
  have hrest (hes : ∀ e ∈ es, e.asked = none) (hdisks : c'.nodeDisks = c.nodeDisks) :
      ∃ left, AsksOnce c left es ∧ (ok = true → ∃ f, Fares r c left f c') :=
    ⟨c.nodeDisks, .silent hes rfl, fun _ => ⟨id, by simpa using hdisks, fun _ => rfl,
      .inl fun _ => rfl⟩⟩
  cases h with
  | rested hc => exact hrest (by simp) (nodeDisks_of_core hc)
  | provisioning h ha =>
    have hasked (sent : Bool) : AsksOnce c c.nodeDisks ([] ++ [⟨.ensure c (nodeSpecs c), sent⟩]) :=
      .asked (by simp) (by simp) rfl (fun m hm => (disks_of_mem_nodeSpecs hm).1)
        (fun m hm => (disks_of_mem_nodeSpecs hm).2) (List.Sublist.refl _) fun d hd => .inl hd
    rcases ha with ⟨⟨⟩⟩ | ⟨⟨⟩, ⟨hc⟩⟩
    · exact ⟨c.nodeDisks, hasked false, nofun⟩
    · refine ⟨c.nodeDisks, hasked true, fun _ => ⟨fun d => d.observe (ρ.provisioned (nodeSpecs c)),
        ?_, fun d => by simp, .inl fun d => by simp⟩⟩
      exact nodeDisks_of_core hc
  | networking h ha =>
    have hpass : mountsInPassing r c = true := by simp [mountsInPassing, h]
    rcases ha with ⟨⟨⟩⟩ | ⟨⟨⟩, ⟨⟨-⟩⟩ | ⟨⟨hc⟩, ⟨⟨⟩⟩ | ⟨⟨⟩, ⟨hc'⟩⟩⟩⟩
    · exact ⟨c.nodeDisks, .silent (by simp [Event.asked]) rfl, nofun⟩
    · exact ⟨c.nodeDisks, .silent (by simp [Event.asked]) rfl, nofun⟩
    · exact ⟨c.nodeDisks, .silent (by simp [Event.asked, Call.mount]) rfl, nofun⟩
    · refine ⟨c.nodeDisks, .silent (by simp [Event.asked, Call.mount]) rfl, fun _ =>
        ⟨NodeDisk.mount, ?_, NodeDisk.key_mount, .inr (.inl hpass)⟩⟩
      rw [← nodeDisks_of_core hc]
      exact nodeDisks_of_core hc'
  | bringingUp h ha =>
    have hfinish (c : Cluster) : (finishBringUp c).nodeDisks = c.nodeDisks := by
      unfold finishBringUp
      split <;> rfl
    exact hrest (only_settlesAndWires ha) (leaves_settlesAndWires hfinish ha)
  | mended h ha hc =>
    cases ha with
    | rested hc' =>
      exact hrest (by simp) ((nodeDisks_of_core hc).trans (nodeDisks_of_core hc'))
    | replaced hnode ha =>
      obtain ⟨hasks, f, hdisks, hkey, hphase⟩ := ha.asksOnce
      refine ⟨c.nodeDisks, hasks, fun _ => ⟨f, (nodeDisks_of_core hc).trans hdisks, hkey,
        hphase.imp_right fun hrole => .inl ?_⟩⟩
      simp [mountsInPassing, nodeToReplace, h, hnode, hrole]
    | restored hnode ha =>
      have hkept {c₁ : Cluster} (hdisks : c₁.nodeDisks = c.nodeDisks)
          (hc : c'.core = c₁.core) : Fares r c c.nodeDisks id c' :=
        ⟨by rw [nodeDisks_of_core hc, hdisks, List.map_id], fun _ => rfl, .inl fun _ => rfl⟩
      rcases ha with ha | ⟨ha, ⟨hc'⟩⟩
      · obtain ⟨hasks, hdisks⟩ := ha.asksOnce
        exact ⟨c.nodeDisks, hasks, fun _ => ⟨id, hkept hdisks hc⟩⟩
      · obtain ⟨hasks, hdisks⟩ := ha.asksOnce
        rw [List.append_nil]
        exact ⟨c.nodeDisks, hasks, fun _ => ⟨id, hkept hdisks (hc.trans hc')⟩⟩
  | noHop h hhop => exact hrest (by simp) rfl
  | rolled h hnode ha =>
    obtain ⟨hasks, f, hdisks, hkey, hphase⟩ := ha.asksOnce
    refine ⟨c.nodeDisks, hasks, fun _ => ⟨f, hdisks, hkey, hphase.imp_right fun hrole => .inl ?_⟩⟩
    simp [mountsInPassing, nodeToReplace, h, hnode, hrole]
  | hopped h hhop hsrc hdst hroll ha =>
    have hfinish (c : Cluster) : (finishHop c).nodeDisks = c.nodeDisks := by
      unfold finishHop
      split <;> rfl
    refine hrest (only_endsHop (fun _ => rfl) (only_settles (fun _ _ => rfl) fun _ _ => rfl)
      (only_scrapes (fun _ => rfl) fun _ => rfl) ha) ?_
    exact leaves_endsHop (fun _ => rfl) (fun _ _ => rfl) (fun _ _ => rfl) (fun _ => rfl) hfinish ha
  | updated h ha =>
    obtain ⟨left, hasks, hfares⟩ := ha.asksOnce
    refine ⟨left, hasks, fun hok => ?_⟩
    obtain ⟨f, hdisks, hkey, hnone⟩ := hfares hok
    exact ⟨f, hdisks, hkey, .inr (.inr hnone)⟩

end Tick

/-! ### Machines keep their disks -/

/-- A call for machines leaves a disk out that a machine had in the call before only if the disk
was released between the two. -/
def KeepsDisks : Entry Cluster Event → History → Prop
  | .did _ e, log => ∀ specs ∈ e.asked, ∀ m ∈ specs, ∀ p ∈ lastAsked log, p.vmName = m.vmName →
    ∀ d ∈ p.disks, d.name ∈ m.disks.map (·.name) ∨
      releasedSince callsForMachines (m.vmName, d.name) log = true
  | _, _ => True

instance (e : Entry Cluster Event) (log : History) : Decidable (KeepsDisks e log) :=
  match e with
  | .did .. | .stored .. | .written .. => by unfold KeepsDisks; infer_instance

/-- **Released first**: no disk is taken from a machine before it was evicted and unmounted. -/
def DisksReleasedFirst (log : History) : Prop := Each KeepsDisks log

instance (log : History) : Decidable (DisksReleasedFirst log) := Each.decidable KeepsDisks log

/-- A pool edit brings back a machine of the latest call that the row no longer asks for only if
it had no disk there, apart from the platform's, which the edit brings back with it. -/
def ReturnsBare (s : State Cluster Event) : Input Env (Admission × Mutation) → Prop
  | .write (_, .updateCluster req) => ∀ want ∈ req.nodePools, ∀ p ∈ lastAsked s.log,
    p.vmName ∉ nodeVMNames s.row → p.vmName ∈ nodeVMNames { s.row with nodePools := want } →
    ∀ d ∈ p.disks, d.name = platformStorageDiskName ∧ 0 < s.row.storageDiskGB
  | _ => True

instance (s : State Cluster Event) (i) : Decidable (ReturnsBare s i) := by
  rcases i with _ | _ | _ | ⟨_, _ | _ | _ | _ | _ | _⟩ <;> unfold ReturnsBare <;> infer_instance

section Keeping

variable {c c' : Cluster} {log : History} {left : List NodeDisk} {es : List Event}

private theorem lastAsked_push_of_silent {row : Cluster} (hes : ∀ e ∈ es, e.asked = none) :
    lastAsked (push row es log) = lastAsked log := by
  induction es generalizing log with
  | nil => rfl
  | cons e es ih =>
    rw [push_cons, ih fun e' he' => hes e' (List.mem_cons_of_mem e he'), lastAsked,
      hes e List.mem_cons_self, Option.getD_none]

/-- The machines of the latest call have, of the disks `left`, those they had there. -/
private def Holds (vms : List String) (left : List NodeDisk) (log : History) : Prop :=
  ∀ p ∈ lastAsked log, p.vmName ∈ vms → ∀ d ∈ p.disks, (p.vmName, d.name) ∈ left.map (·.key)

private theorem mem_diskSpecs {vm name : String} :
    name ∈ (diskSpecs { c with nodeDisks := left } vm).map (·.name) ↔
      (vm, name) ∈ left.map (·.key) := by
  simp only [diskSpecs, List.map_map, List.mem_map, Function.comp_apply, mem_disksFor]
  constructor
  · rintro ⟨d, ⟨hd, rfl⟩, rfl⟩
    exact ⟨d, hd, rfl⟩
  · rintro ⟨d, hd, hkey⟩
    obtain ⟨hvm, hname⟩ := Prod.mk.inj hkey
    exact ⟨d, ⟨hd, hvm⟩, hname⟩

/-- **A tick releases what it leaves out**, and the machines then have what is left. -/
private theorem AsksOnce.holds (h : AsksOnce c left es)
    (hheld : Holds (nodeVMNames c) c.nodeDisks log) (hkept : Each KeepsDisks log) :
    Holds (nodeVMNames c) left (push c es log) ∧ Each KeepsDisks (push c es log) := by
  have hsilent {row : Cluster} {e : Event} (he : e.asked = none) (log : History) :
      KeepsDisks (.did row e) log := by
    simp [KeepsDisks, he]
  cases h with
  | silent hes hleft =>
    rw [Holds, lastAsked_push_of_silent hes, hleft]
    exact ⟨hheld, each_push (fun e he => hsilent (hes e he)) hkept⟩
  | @asked pre post e specs hpre hpost hspecs hvm hdisks hsub hleft =>
    rw [push_append, push_cons, Holds, lastAsked_push_of_silent hpost, lastAsked, hspecs,
      Option.getD_some]
    refine ⟨fun m hm _ d hd => ?_, each_push (fun e he => hsilent (hpost e he)) ⟨?_, ?_⟩⟩
    · rw [← mem_diskSpecs (c := c), ← hdisks m hm]
      exact List.mem_map_of_mem hd
    · intro specs' hspecs' m hm p hp hname d hd
      obtain rfl := Option.some.inj (hspecs.symm.trans hspecs')
      rw [lastAsked_push_of_silent hpre] at hp
      have hheld' := hheld p hp (hname ▸ hvm m hm) d hd
      rw [hname] at hheld'
      obtain ⟨d', hd', hkey⟩ := List.mem_map.mp hheld'
      refine (hleft d' hd').imp (fun hin => ?_) fun hreleased => ?_
      · rw [hdisks m hm, mem_diskSpecs, ← hkey]
        exact List.mem_map_of_mem hin
      · rw [← hkey]
        refine hreleased.releasedSince_push fun e' he' => ?_
        simp [callsForMachines, doneBy, hpre e' he']
    · exact each_push (fun e he => hsilent (hpre e he)) hkept

private theorem mem_workerNames_of_new {vm : String} {want : List NodePool}
    (hnew : vm ∈ nodeVMNames { c with nodePools := want }) (hold : vm ∉ nodeVMNames c) :
    vm ∈ workerNames { c with nodePools := want } := by
  obtain ⟨n, hn, rfl⟩ := List.mem_map.mp hnew
  rcases List.mem_append.mp hn with hcp | hworker
  · exact absurd (List.mem_map_of_mem (List.mem_append_left _ hcp)) hold
  · obtain ⟨q, hq, hd⟩ := List.mem_flatMap.mp hworker
    obtain ⟨i, hi, rfl⟩ := mem_desired.mp hd
    exact mem_workerNames.mpr ⟨q, hq, i, hi, rfl⟩

/-- **An edit drops no disk of a machine that stays**, and a machine that returns has none to
miss. -/
private theorem Edit.holds {a : App} {s : State Cluster Event} {k : Admission × Mutation}
    (hedit : Edit a s.row k.2 c) (hheld : Holds (nodeVMNames s.row) s.row.nodeDisks s.log)
    (hreturns : ReturnsBare s (.write k)) :
    Holds (nodeVMNames c) c.nodeDisks (.written s.row c :: s.log) := by
  intro p hp hvm d hd
  by_cases hold : p.vmName ∈ nodeVMNames s.row
  · obtain ⟨d', hd', hkey⟩ := List.mem_map.mp (hheld p hp hold d hd)
    rw [← hkey]
    refine (hedit.key_mem_nodeDisks hd').resolve_right (not_not.mpr ?_)
    rw [show d'.vmName = p.vmName from (Prod.mk.inj hkey).1]
    exact hvm
  · obtain ⟨adm, m⟩ := k
    cases hedit with
    | update addons hphase haddons hpools =>
      cases hpools with
      | keep => exact absurd hvm hold
      | change ips hwant hadmitted =>
        obtain ⟨hname, hstorage⟩ := hreturns _ hwant p hp hold hvm d hd
        rw [hname]
        exact platform_mem_disksAfterPools hadmitted.valid hstorage
          (mem_workerNames_of_new hvm hold)
    | _ => exact absurd hvm hold

end Keeping

/-- The second worker of a running cluster gets a disk; then come these mutations, and an
update. -/
def secondDiskThen (ms : List Mutation) : Platform.Inputs :=
  bringUpRun ++ submit (.addNodeDisk { demoDisk with vmName := "demo-default-1" }) ++ pass {} ++
    pass {} ++ ms.flatMap submit ++ pass {} ++ pass {}

/-- **A disk being removed stays so** from one row to the next. A tick drops it only after its
release, and an edit only with its machine. -/
def StaysRemoving : Entry Cluster Event → History → Prop
  | .stored old new, log => ∀ d ∈ old.nodeDisks, d.phase = .removing →
    (∀ e ∈ new.nodeDisks, e.key = d.key → e.phase = .removing) ∧
    (d.key ∈ new.nodeDisks.map (·.key) ∨ releasedSince changesRow d.key log = true)
  | .written old new, _ => ∀ d ∈ old.nodeDisks, d.phase = .removing →
    (∀ e ∈ new.nodeDisks, e.key = d.key → e.phase = .removing) ∧
    (d.key ∈ new.nodeDisks.map (·.key) ∨ d.vmName ∉ nodeVMNames new)
  | .did _ _, _ => True

instance (e : Entry Cluster Event) (log : History) : Decidable (StaysRemoving e log) :=
  match e with
  | .did .. | .stored .. | .written .. => by unfold StaysRemoving; infer_instance

/-- A mount run outside an update finds no disk being removed. -/
def NoneRemovedInPassing (r : Reconciler) (s : State Cluster Event) :
    Input Env (Admission × Mutation) → Prop
  | .tick _ => s.copy = none → mountsInPassing r s.row = true →
    ∀ d ∈ s.row.nodeDisks, d.phase ≠ .removing
  | _ => True

instance (r : Reconciler) (s : State Cluster Event) (i) :
    Decidable (NoneRemovedInPassing r s i) :=
  match i with
  | .tick _ | .finish | .abandon | .write _ => by unfold NoneRemovedInPassing; infer_instance

section Removing

variable {r : Reconciler} {ρ : Env} {c c' : Cluster} {left : List NodeDisk}
  {f : NodeDisk → NodeDisk} {es : List Event}

private theorem Fares.diskKeys (h : Fares r c left f c') (hkeys : DiskKeys c)
    (hsub : left.Sublist c.nodeDisks) (hworkers : workerNames c' = workerNames c) :
    DiskKeys c' := by
  have hmap : c'.nodeDisks.map (·.key) = left.map (·.key) := by
    rw [h.disks, List.map_map]
    exact List.map_congr_left fun d _ => h.key d
  refine ⟨hmap ▸ (hsub.map _).nodup hkeys.nodup, fun d hd => ?_⟩
  rw [h.disks] at hd
  obtain ⟨e, he, rfl⟩ := List.mem_map.mp hd
  rw [hworkers, show (f e).vmName = e.vmName from (Prod.mk.inj (h.key e)).1]
  exact hkeys.on_worker e (hsub.subset he)

/-- **A tick** keeps a disk that is being removed, or drops it after its release. -/
private theorem staysRemoving_stored {log : History} (hkeys : DiskKeys c)
    (hasks : AsksOnce c left es) (hf : Fares r c left f c')
    (hpass : mountsInPassing r c = true → ∀ d ∈ c.nodeDisks, d.phase ≠ .removing) :
    StaysRemoving (.stored c c') (push c es log) := by
  intro d hd hremoving
  rw [hf.disks]
  refine ⟨fun e he hkey => ?_, ?_⟩
  · obtain ⟨d', hd', rfl⟩ := List.mem_map.mp he
    have hsame : d' = d := List.inj_on_of_nodup_map hkeys.nodup (hasks.sublist.subset hd') hd
      ((hf.key d').symm.trans hkey)
    subst hsame
    rcases hf.phase with hphase | hmounts | hnone
    · exact (hphase d').trans hremoving
    · exact absurd hremoving (hpass hmounts d' hd)
    · exact absurd hremoving (hnone d' hd')
  · refine (hasks.left_or_released hd).imp (fun hleft => ?_) fun hreleased => ?_
    · exact List.mem_map.mpr ⟨f d, List.mem_map_of_mem hleft, hf.key d⟩
    · exact hreleased.releasedSince_push fun _ _ => rfl

/-- **An edit** keeps it, or drops it with its machine. -/
private theorem staysRemoving_written {a : App} {m : Mutation} {log : History} (hkeys : DiskKeys c)
    (hedit : Edit a c m c') : StaysRemoving (.written c c') log := by
  intro d hd hremoving
  refine ⟨fun e he hkey => ?_, hedit.key_mem_nodeDisks hd⟩
  rcases hedit.mem_nodeDisks he with hold | ⟨e, -, rfl⟩ | ⟨-, -, hfresh⟩
  · rw [List.inj_on_of_nodup_map hkeys.nodup hold hd hkey]
    exact hremoving
  · rfl
  · exact absurd (hkey ▸ List.mem_map_of_mem hd) hfresh

end Removing

/-- The disk of a running cluster is removed, and the update releases it. -/
def removeDiskRun : Platform.Inputs :=
  addDiskRun ++ submit (.removeNodeDisk "demo-default-0" "data") ++ pass {} ++ pass {}

/-- The disk is removed while an upgrade is under way: the tick that rolls its worker mounts the
disk, and the removal is forgotten. -/
def removeDiskWhileUpgrading : Platform.Inputs :=
  addDiskRun ++ submit (.promoteCluster "r2") ++ pass {} ++
    submit (.removeNodeDisk "demo-default-0" "data") ++ pass reportsDemoDisk

end KaaS
