import KaaS.App.Addressing
import KaaS.Quota.Usage
import KaaS.System.Fleet

/-!
# Sequences of calls and ticks on all clusters

What admission decides about one cluster it decides from the rows of the others: the networks and
addresses in use, and what the clusters on a provider are charged. Here calls and ticks follow one
another, each reading the rows as the last has left them, on the clusters of every provider.
`Installation.creating` and `Installation.editing` are a call's answers with that part computed
from the rows; the rest (the owner's budget, the authorisation, the DNS name) stays an answer of
any kind.

What ticks do outside the store is applied to a world, as in the fleet.
-/

namespace KaaS

open TransitionSystem

structure Estate (ω : Type) where
  rows : List Cluster := []
  world : ω

/-- A platform with its network settings and the ceilings of its providers. -/
structure Installation (ω : Type) where
  platform : Platform
  infraProviders : List String := [providerKVM]
  networks : NetworkSettings := {}
  ceilings : String → Option Budget := fun _ => none
  effect : Cluster → List Event → ω → ω

inductive EstateInput
  | create (adm : CreateAdmission) (req : CreateRequest)
  | call (id : String) (adm : Admission) (m : Mutation)
  /-- `DeleteUser` has come to this cluster -/
  | mark (id : String)
  | tick (id : String) (ρ : Env)

namespace Estate

variable {ω : Type}

def row? (s : Estate ω) (id : String) : Option Cluster := s.rows.find? (·.id == id)

def store (s : Estate ω) (c : Cluster) : Estate ω := { s with rows := Keyed.put (·.id) c s.rows }

end Estate

namespace Installation

variable {ω : Type} (S : Installation ω) (rows : List Cluster)

/-- What creating a cluster depends on, as the rows determine it. -/
def creating (req : CreateRequest) (adm : CreateAdmission) : CreateAdmission :=
  { S.networks.creating rows req adm with
    infraProviders := S.infraProviders
    providerCapacity := fun want => checkProviderCapacity S.ceilings want.infraProvider
      (clustersOnProvider rows want.infraProvider) want }

/-- What editing the cluster `c` depends on, as the rows determine it. -/
def editing (c : Cluster) (adm : Admission) : Admission :=
  { S.networks.editing rows c adm with
    providerCapacity := fun want => checkProviderCapacity S.ceilings want.infraProvider
      (clustersExcept (clustersOnProvider rows want.infraProvider) c.id) want }

def step (s : Estate ω) : EstateInput → Estate ω
  | .create adm req =>
    if s.rows.any (·.id == adm.id) then s
    else
      match S.platform.app.createCluster (S.creating s.rows req adm) req with
      | .ok c => { s with rows := s.rows ++ [c] }
      | .error _ => s
  | .call id adm m =>
    match s.row? id with
    | none => s
    | some c =>
      match S.platform.edit (S.editing s.rows c adm, m) c with
      | some c' => s.store c'
      | none => s
  | .mark id =>
    match s.row? id with
    | none => s
    | some c => if c.phase = .deleting ∨ c.phase.terminal then s else s.store (markDeleting c)
  | .tick id ρ =>
    match s.row? id with
    | none => s
    | some c =>
      let s := { s with world := S.effect c (tickTrace S.platform.reconciler ρ c) s.world }
      match tickResult S.platform.reconciler ρ c with
      | some c' => s.store c'
      | none => s

/-- The state after a sequence of calls and ticks on an empty store. -/
def run (w : ω) (is : List EstateInput) : Estate ω := TransitionSystem.run S.step { world := w } is

end Installation

/-! ### Inversion -/

section Inversion

variable {ω : Type}

/-- **How a row becomes another.** -/
inductive Evolves (S : Installation ω) (rows : List Cluster) (c : Cluster) : Cluster → Prop
  | edited {adm : Admission} {m : Mutation} {c' : Cluster}
      (h : S.platform.app.apply (S.editing rows c adm) m c = .ok (some c')) : Evolves S rows c c'
  | marked (h : ¬(c.phase = .deleting ∨ c.phase.terminal)) : Evolves S rows c (markDeleting c)
  | ticked {c' : Cluster} {evs : List Event}
      (h : TickStep S.platform.reconciler c (some c') evs) : Evolves S rows c c'

/-- **One step**: at most one row is new, or has become another. -/
inductive EstateStep (S : Installation ω) (s : Estate ω) : EstateInput → Estate ω → Prop
  | idle (i : EstateInput) : EstateStep S s i s
  | created {adm : CreateAdmission} {req : CreateRequest} {c : Cluster}
      (hid : adm.id ∉ s.rows.map (·.id))
      (h : S.platform.app.createCluster (S.creating s.rows req adm) req = .ok c) :
      EstateStep S s (.create adm req) { s with rows := s.rows ++ [c] }
  | edited {id : String} {adm : Admission} {m : Mutation} {c c' : Cluster} (hc : c ∈ s.rows)
      (h : S.platform.app.apply (S.editing s.rows c adm) m c = .ok (some c')) :
      EstateStep S s (.call id adm m) (s.store c')
  | marked {id : String} {c : Cluster} (hc : c ∈ s.rows)
      (h : ¬(c.phase = .deleting ∨ c.phase.terminal)) :
      EstateStep S s (.mark id) (s.store (markDeleting c))
  | missed {id : String} {ρ : Env} {c : Cluster} (hc : c ∈ s.rows)
      (h : tickResult S.platform.reconciler ρ c = none) :
      EstateStep S s (.tick id ρ)
        { s with world := S.effect c (tickTrace S.platform.reconciler ρ c) s.world }
  | ticked {id : String} {ρ : Env} {c c' : Cluster} (hc : c ∈ s.rows)
      (h : tickResult S.platform.reconciler ρ c = some c') :
      EstateStep S s (.tick id ρ)
        (Estate.store { s with
          world := S.effect c (tickTrace S.platform.reconciler ρ c) s.world } c')

private theorem mem_of_estateRow? {s : Estate ω} {id : String} {c : Cluster}
    (h : s.row? id = some c) : c ∈ s.rows :=
  List.mem_of_find?_eq_some h

/-- **Inversion of `Installation.step`.** -/
theorem estateStep (S : Installation ω) (s : Estate ω) (i : EstateInput) :
    EstateStep S s i (S.step s i) := by
  cases i with
  | create adm req =>
    simp only [Installation.step]
    split
    · exact .idle _
    · rename_i hid
      split
      · rename_i c hc
        refine .created (fun hmem => hid ?_) hc
        obtain ⟨d, hd, heq⟩ := List.mem_map.mp hmem
        exact List.any_eq_true.mpr ⟨d, hd, beq_iff_eq.mpr heq⟩
      · exact .idle _
  | call id adm m =>
    simp only [Installation.step]
    split
    · exact .idle _
    · rename_i c hc
      split
      · rename_i c' hc'
        exact .edited (mem_of_estateRow? hc) (Platform.apply_of_edit hc')
      · exact .idle _
  | mark id =>
    simp only [Installation.step]
    split
    · exact .idle _
    · rename_i c hc
      split
      · exact .idle _
      · rename_i hphase
        exact .marked (mem_of_estateRow? hc) hphase
  | tick id ρ =>
    simp only [Installation.step]
    split
    · exact .idle _
    · rename_i c hc
      split
      · rename_i c' hc'
        exact .ticked (mem_of_estateRow? hc) hc'
      · rename_i hnone
        exact .missed (mem_of_estateRow? hc) hnone

end Inversion

/-! ### What every sequence keeps -/

section Rows

variable {ω : Type} {S : Installation ω} {rows : List Cluster} {c c' : Cluster}

theorem Evolves.sameIdentity (h : Evolves S rows c c') : SameIdentity c c' := by
  cases h with
  | edited h => exact (edit_of_apply h).sameIdentity
  | marked => exact sameIdentity_markDeleting c
  | ticked h => exact h.sameIdentity

/-- **What the rows are after a step**: as they were, one more, or one that has evolved. -/
inductive RowsStep (S : Installation ω) (rows : List Cluster) (i : EstateInput) :
    List Cluster → Prop
  | same : RowsStep S rows i rows
  | created {adm : CreateAdmission} {req : CreateRequest} {c : Cluster}
      (hi : i = .create adm req) (hid : adm.id ∉ rows.map (·.id))
      (h : S.platform.app.createCluster (S.creating rows req adm) req = .ok c) :
      RowsStep S rows i (rows ++ [c])
  | evolved {c c' : Cluster} (hc : c ∈ rows) (h : Evolves S rows c c') :
      RowsStep S rows i (Keyed.put (·.id) c' rows)

theorem rowsStep (S : Installation ω) (s : Estate ω) (i : EstateInput) :
    RowsStep S s.rows i (S.step s i).rows := by
  have hstep := estateStep S s i
  generalize S.step s i = t at hstep
  cases hstep with
  | idle => exact .same
  | created hid h => exact .created rfl hid h
  | edited hc h => exact .evolved hc (.edited h)
  | marked hc h => exact .evolved hc (.marked h)
  | missed hc h => exact .same
  | ticked hc h => exact .evolved hc (.ticked (h ▸ tickStep S.platform.reconciler _ _))

theorem put_eq_map (hids : (rows.map (·.id)).Nodup) (hc : c ∈ rows) (hid : c'.id = c.id) :
    ∃ f : Cluster → Cluster, Keyed.put (·.id) c' rows = rows.map f ∧ f c = c' ∧
      ∀ d ∈ rows, d ≠ c → f d = d := by
  refine ⟨fun d => if d.id = c'.id then c' else d, rfl, if_pos hid.symm, fun d hd hne => ?_⟩
  refine if_neg fun heq => hne ?_
  exact List.inj_on_of_nodup_map hids hd hc (heq.trans hid)

/-- **Ids stay unique.** -/
theorem RowsStep.nodup_ids {i : EstateInput} {rows' : List Cluster} (h : RowsStep S rows i rows')
    (hids : (rows.map (·.id)).Nodup) : (rows'.map (·.id)).Nodup := by
  cases h with
  | same => exact hids
  | created hi hid h =>
    rw [List.map_append, List.map_singleton, (identity_of_createCluster h).1]
    exact List.nodup_append.mpr ⟨hids, List.nodup_singleton _, by
      rintro a ha b hb rfl
      rw [List.mem_singleton] at hb
      exact hid (hb ▸ ha)⟩
  | evolved hc h =>
    rw [Keyed.map_put]
    exact hids

/-- **Relations between rows**: one that holds between a new row and all others, and that evolving
preserves on either side, holds between any two rows. -/
theorem RowsStep.pairwise {i : EstateInput} {rows' : List Cluster} {R : Cluster → Cluster → Prop}
    (h : RowsStep S rows i rows') (hids : (rows.map (·.id)).Nodup) (hR : rows.Pairwise R)
    (hnew : ∀ adm req c, i = .create adm req →
      S.platform.app.createCluster (S.creating rows req adm) req = .ok c → ∀ d ∈ rows, R d c)
    (hleft : ∀ c ∈ rows, ∀ c' d, Evolves S rows c c' → d ∈ rows → d ≠ c → R c d → R c' d)
    (hright : ∀ c ∈ rows, ∀ c' d, Evolves S rows c c' → d ∈ rows → d ≠ c → R d c → R d c') :
    rows'.Pairwise R := by
  cases h with
  | same => exact hR
  | created hi hid h =>
    refine List.pairwise_append.mpr ⟨hR, List.pairwise_singleton _ _, fun d hd c hc => ?_⟩
    obtain rfl := List.mem_singleton.mp hc
    exact hnew _ _ _ hi h d hd
  | @evolved c c' hc h =>
    obtain ⟨f, hput, hfc, hfd⟩ := put_eq_map hids hc h.sameIdentity.id
    rw [hput, List.pairwise_map]
    -- of two different rows at most one has changed
    have hne : rows.Pairwise (· ≠ ·) := hids.of_map
    refine (hR.and hne).imp_of_mem fun {a b} ha hb ⟨hab, hne⟩ => ?_
    by_cases hac : a = c
    · subst hac
      rw [hfc, hfd b hb (Ne.symm hne)]
      exact hleft a hc c' b h hb (Ne.symm hne) hab
    · by_cases hbc : b = c
      · subst hbc
        rw [hfc, hfd a ha hne]
        exact hright b hc c' a h ha hne hab
      · rw [hfd a ha hac, hfd b hb hbc]
        exact hab

end Rows

end KaaS
