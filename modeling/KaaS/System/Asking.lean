import KaaS.Reconcile.Account
import KaaS.System.Row

/-!
# What a tick asks for

A tick asks the infrastructure for machines in four places: when it provisions, updates, rolls
a node and repairs one. `asksForMachines` says, from the row alone, whether a tick can come to
one of them, `drainsFirst` which workers it takes out of the cluster before, and `asksRow` which
row's machines it then asks for. `TickStep.asks` puts them together: a tick asks at most once,
for all the machines of that row and nothing else, up to their images.
-/

namespace KaaS

open Optimistic

/-- The machines a call asks for, if it asks for machines. -/
def Event.asked (e : Event) : Option (List NodeSpec) :=
  match e.call with
  | .ensureNodes _ specs => some specs
  | _ => none

/-! ### Which ticks ask for machines -/

/-- The node a tick on `c` takes down and rebuilds, if any. -/
def nodeToReplace (r : Reconciler) (c : Cluster) : Option Node :=
  match c.phase with
  | .upgrading => nodeToRoll r c
  | .repairing => nodeToRepair .replace c
  | _ => none

/-- The phases and branches in which a tick on `c` asks for machines. -/
def asksForMachines (r : Reconciler) (c : Cluster) : Bool :=
  match c.phase with
  | .provisioningInfra | .updating => true
  | .upgrading => (nodeToRoll r c).isSome
  | .repairing => (nodeToRepair .replace c).isSome || (nodeToRepair .restore c).isSome
  | _ => false

/-- The workers such a tick drains before it asks. -/
def drainsFirst (r : Reconciler) (c : Cluster) : List String :=
  if c.phase = .updating then (removedWorkers c.nodes (nodeSpecs c)).map (·.vmName)
  else match nodeToReplace r c with
    | some node => if node.role = .worker then [node.vmName] else []
    | none => []


/-! ### How a tick asks -/

/-- The row whose machines a tick on `c` asks for: an update has released the disks being
removed. -/
def asksRow (c : Cluster) : Cluster :=
  if c.phase = .updating then c.released c.storageWired else c

theorem asksRow_eq {c : Cluster} (h : c.phase ≠ .updating) : asksRow c = c := if_neg h

theorem nodeSpecs_released {c : Cluster} (h : c.phase = .updating) (wired : String) :
    nodeSpecs (c.released wired) = nodeSpecs (asksRow c) := by
  rw [asksRow, if_pos h]
  rfl

@[simp] theorem nodeVMNames_asksRow (c : Cluster) : nodeVMNames (asksRow c) = nodeVMNames c := by
  unfold asksRow
  split <;> rfl

/-- A machine as it is asked for, apart from its image. -/
def NodeSpec.bare (s : NodeSpec) : NodeSpec := { s with image := "" }

theorem map_bare_rebuildSpecs (c : Cluster) (node : Node) (image : String) :
    (rebuildSpecs c node image).map (·.bare) = (nodeSpecs c).map (·.bare) := by
  rw [rebuildSpecs, List.map_map]
  refine List.map_congr_left fun s _ => ?_
  simp only [Function.comp_apply, NodeSpec.bare]
  split <;> split <;> rfl

/-- What is asked for depends on the machines apart from their images only. -/
theorem map_eq_of_map_bare {α : Type} {specs specs' : List NodeSpec} (f : NodeSpec → α)
    (hf : ∀ s, f s = f s.bare) (h : specs.map (·.bare) = specs'.map (·.bare)) :
    specs.map f = specs'.map f := by
  have hmap : ∀ l : List NodeSpec, l.map f = (l.map (·.bare)).map f := by
    intro l
    rw [List.map_map]
    exact List.map_congr_left fun s _ => hf s
  rw [hmap, h, ← hmap]

theorem map_vmName_of_map_bare {c : Cluster} {specs : List NodeSpec}
    (h : specs.map (·.bare) = (nodeSpecs c).map (·.bare)) :
    specs.map (·.vmName) = nodeVMNames c :=
  (map_eq_of_map_bare _ (fun _ => rfl) h).trans (map_vmName_nodeSpecs c)

theorem map_vmName_rebuildSpecs (c : Cluster) (node : Node) (image : String) :
    (rebuildSpecs c node image).map (·.vmName) = nodeVMNames c :=
  map_vmName_of_map_bare (map_bare_rebuildSpecs c node image)

/-- The calls of a tick around its call for machines: a drain of `names`, the call, and at
most a mount run. -/
inductive AsksAfter (c : Cluster) (names : List String) : List Event → Prop
  | undrained (hnames : names = []) {net : NetworkSpec} {specs : List NodeSpec} {ok : Bool}
      (hspecs : specs.map (·.bare) = (nodeSpecs c).map (·.bare)) {mounts : List Event}
      (hmounts : ∀ e ∈ mounts, e.asked = none) :
      AsksAfter c names (⟨.ensureNodes net specs, ok⟩ :: mounts)
  | drained {nodes : List Node} (hnames : nodes.map (·.vmName) = names) {net : NetworkSpec}
      {specs : List NodeSpec} {ok : Bool}
      (hspecs : specs.map (·.bare) = (nodeSpecs c).map (·.bare))
      {mounts : List Event} (hmounts : ∀ e ∈ mounts, e.asked = none) :
      AsksAfter c names
        (⟨.removeWorkers nodes, true⟩ :: ⟨.ensureNodes net specs, ok⟩ :: mounts)

private theorem asked_eq_none_of_drainCalls {node : Node} {evs : List Event}
    (h : evs = [] ∨ evs = drainCalls node ∨ evs = [⟨.removeWorkers [node], false⟩]) :
    ∀ e ∈ evs, e.asked = none := by
  rcases h with rfl | rfl | rfl
  · simp
  · unfold drainCalls
    split <;> simp [Event.asked]
  · simp [Event.asked]

private theorem asksAfter_drainCalls {c : Cluster} {node : Node} {net : NetworkSpec}
    {specs : List NodeSpec} {ok : Bool}
    (hspecs : specs.map (·.bare) = (nodeSpecs c).map (·.bare))
    {mounts : List Event} (hmounts : ∀ e ∈ mounts, e.asked = none) :
    AsksAfter c (if node.role = .worker then [node.vmName] else [])
      (drainCalls node ++ ⟨.ensureNodes net specs, ok⟩ :: mounts) := by
  unfold drainCalls
  split
  · exact .drained (by simp) hspecs hmounts
  · exact .undrained rfl hspecs hmounts

private theorem Replaced.asks {c c' : Cluster} {node : Node} {image : String} {ok : Bool}
    {evs : List Event} (h : Replaced c node image ok c' evs) :
    (∀ e ∈ evs, e.asked = none) ∨
      AsksAfter c (if node.role = .worker then [node.vmName] else []) evs := by
  have hspecs := map_bare_rebuildSpecs c node image
  cases h with
  | notReached wired hevs => exact .inl (asked_eq_none_of_drainCalls hevs)
  | ensureFailed wired => exact .inr (asksAfter_drainCalls hspecs (by simp))
  | rebuilt wired ok reports hok => exact .inr (asksAfter_drainCalls hspecs (by simp))
  | mounted wired ok reports hrole =>
    rw [List.append_assoc]
    exact .inr (asksAfter_drainCalls hspecs (by simp [Event.asked]))

private theorem Repaired.asks {c c' : Cluster} {evs : List Event} {r : Reconciler}
    (hphase : c.phase = .repairing) (h : Repaired c c' evs) :
    (∀ e ∈ evs, e.asked = none) ∨
      asksForMachines r c = true ∧ AsksAfter (asksRow c) (drainsFirst r c) evs := by
  rw [asksRow_eq (by simp [hphase])]
  cases h with
  | untouched => exact .inl (by simp)
  | @replaced node _ _ _ hnode hact h =>
    have hreplace : nodeToRepair .replace c = some node := by rw [nodeToRepair, if_pos hact, hnode]
    refine h.asks.imp_right fun hasks => ⟨?_, ?_⟩
    · simp [asksForMachines, hphase, hreplace]
    · simpa [drainsFirst, nodeToReplace, hphase, hreplace] using hasks
  | restoreFailed hnode hact | restored _ _ _ hnode hact =>
    have hrestore : (nodeToRepair .restore c).isSome := by
      rw [nodeToRepair, if_pos hact, hnode]
      rfl
    have hreplace : nodeToRepair .replace c = none := by simp [nodeToRepair, hact]
    refine .inr ⟨by simp [asksForMachines, hphase, hrestore], ?_⟩
    exact .undrained (by simp [drainsFirst, nodeToReplace, hphase, hreplace])
      (map_bare_rebuildSpecs _ _ _) (by simp)

private theorem asksAfter_update {c : Cluster} {r : Reconciler} (hphase : c.phase = .updating)
    {wired : String} {net : NetworkSpec} {ok : Bool} {mounts : List Event}
    (hmounts : ∀ e ∈ mounts, e.asked = none) :
    AsksAfter (asksRow c) (drainsFirst r c)
      (updateDrain c ++ ⟨.ensureNodes net (nodeSpecs (c.released wired)), ok⟩ :: mounts) := by
  rw [nodeSpecs_released hphase]
  unfold updateDrain drainsFirst
  rw [if_pos hphase]
  split
  · rename_i hempty
    rw [List.isEmpty_iff] at hempty
    exact .undrained (by rw [hempty]; rfl) rfl hmounts
  · exact .drained rfl rfl hmounts

private theorem UpdateFailed.asks {c : Cluster} {evs : List Event} {r : Reconciler}
    (hphase : c.phase = .updating) (h : UpdateFailed c evs) :
    (∀ e ∈ evs, e.asked = none) ∨ AsksAfter (asksRow c) (drainsFirst r c) evs := by
  cases h with
  | drainFailed => exact .inl (by simp [Event.asked])
  | drained =>
    refine .inl ?_
    unfold updateDrain
    split <;> simp [Event.asked]
  | ensureFailed wired => exact .inr (asksAfter_update hphase (by simp))
  | ensured wired => exact .inr (asksAfter_update hphase (by simp))
  | mountRun wired reports ok =>
    rw [List.append_assoc]
    exact .inr (asksAfter_update hphase (by simp [Event.asked, Call.mount]))

/-- **A tick asks for machines at most once**, for all those of the row it then has, and right
after what it drains first. -/
theorem TickStep.asks {r : Reconciler} {c : Cluster} {res : Option Cluster} {evs : List Event}
    (h : TickStep r c res evs) :
    (∀ e ∈ evs, e.asked = none) ∨
      asksForMachines r c = true ∧ AsksAfter (asksRow c) (drainsFirst r c) evs := by
  cases h with
  | provisionFailed hphase | provisioned hphase =>
    rw [asksRow_eq (by simp [hphase])]
    refine .inr ⟨by simp [asksForMachines, hphase], ?_⟩
    exact .undrained (by simp [drainsFirst, nodeToReplace, hphase]) rfl (by simp)
  | mountFailed | mounted => exact .inl (by simp [Event.asked, Call.mount])
  | repaired hphase hr => exact hr.asks hphase
  | @rolled hphase hop src dst hhop hsrc hdst hos hleft node hnode _ _ _ hr =>
    rw [asksRow_eq (by simp [hphase])]
    have hroll := (nodeToRoll_eq hhop hsrc hdst hos hleft).trans hnode
    refine hr.asks.imp_right fun hasks => ⟨?_, ?_⟩
    · simp [asksForMachines, hphase, hroll]
    · simpa [drainsFirst, nodeToReplace, hphase, hroll] using hasks
  | updateFailed hphase hevs =>
    exact (hevs.asks hphase).imp_right fun hasks => ⟨by simp [asksForMachines, hphase], hasks⟩
  | updated hphase wired reports =>
    rw [List.append_assoc]
    exact .inr ⟨by simp [asksForMachines, hphase],
      asksAfter_update hphase (by simp [Event.asked, Call.mount])⟩
  | _ => exact .inl (by simp)

/-- **Whatever a tick asks for** is the machines of its row, up to their images. -/
theorem TickStep.map_bare_asked {r : Reconciler} {c : Cluster} {res : Option Cluster}
    {evs : List Event} (h : TickStep r c res evs) :
    ∀ e ∈ evs, ∀ specs ∈ e.asked, specs.map (·.bare) = (nodeSpecs (asksRow c)).map (·.bare) := by
  intro e he specs hasked
  rcases h.asks with hnone | ⟨-, hafter⟩
  · simp [hnone e he] at hasked
  · cases hafter with
    | undrained _ hspecs hmounts =>
      rcases List.mem_cons.mp he with rfl | he
      · exact Option.some.inj hasked ▸ hspecs
      · simp [hmounts e he] at hasked
    | drained _ hspecs hmounts =>
      simp only [List.mem_cons] at he
      rcases he with rfl | rfl | he
      · simp [Event.asked] at hasked
      · exact Option.some.inj hasked ▸ hspecs
      · simp [hmounts e he] at hasked

/-! ### Calls in a history -/

theorem each_push {Q : Entry Cluster Event → History → Prop} {row : Cluster} {evs : List Event}
    (hQ : ∀ e ∈ evs, ∀ log, Q (.did row e) log) {log : History} (h : Each Q log) :
    Each Q (push row evs log) := by
  induction evs generalizing log with
  | nil => exact h
  | cons e evs ih =>
    refine ih (fun e' he' => hQ e' (List.mem_cons_of_mem e he')) ⟨?_, h⟩
    exact hQ e List.mem_cons_self log

end KaaS
