import KaaS.Domain.Desired
import KaaS.Library.Run
import KaaS.Library.Tables

/-!
# Clusters in Postgres

A cluster is stored as a row and four child tables: nodes, pools, disks and add-ons. A write
replaces the row and the children **in one transaction**; a read is five statements outside
of any transaction, each of which sees the database as of its own start.

A write that commits between two statements of a read is seen by the later ones only, so that
the value returned can have its row from one write and its pools from the next, although no
such cluster was ever stored. The read is whole when every write that commits after the row was
fetched leaves the child tables that are **still to be fetched** as they are.

The constraints of the schema are left out, except for the primary key of `clusters`: a
transaction that one of them refuses changes nothing.
-/

namespace KaaS

open Tables TransitionSystem

/-! ### The tables -/

/-- What the row's columns hold of a cluster, as `scanCluster` reads them back: the provider is
written through `InfraProvider`, and an etcd status or a repair record without an observation
time is read as none. -/
def Cluster.columns (c : Cluster) : Cluster :=
  { c with
    provider := c.infraProvider
    etcd := c.etcd.filter (·.observedAt.isSome)
    repair := c.repair.filter (·.observedAt.isSome)
    nodes := []
    nodePools := []
    nodeDisks := []
    addons := [] }

/-- The cluster a write of `c` stores. -/
def Cluster.stored (c : Cluster) : Cluster :=
  { c.columns with
    nodes := c.nodes
    nodePools := c.nodePools
    nodeDisks := c.nodeDisks
    addons := c.addons }

/-- The child tables, in the order in which `loadChildren` reads them. -/
inductive Child
  | nodes | nodePools | nodeDisks | addons
  deriving DecidableEq

def Child.all : List Child := [.nodes, .nodePools, .nodeDisks, .addons]

/-- The database; `clusters` has the rows, without children. -/
structure Database where
  clusters : List Cluster := []
  nodes : List (Entry String Node) := []
  nodePools : List (Entry String NodePool) := []
  nodeDisks : List (Entry String NodeDisk) := []
  addons : List (Entry String Addon) := []

/-! ### Writes -/

/-- Clear a cluster's children and insert those of `c`. -/
def Database.writeChildren (db : Database) (c : Cluster) : Database :=
  { db with
    nodes := replace c.id c.nodes db.nodes
    nodePools := replace c.id c.nodePools db.nodePools
    nodeDisks := replace c.id c.nodeDisks db.nodeDisks
    addons := replace c.id c.addons db.addons }

inductive Write
  | createCluster (c : Cluster)
  | updateCluster (c : Cluster)
  | updateClusterUnlessSuperseded (c : Cluster)

/-- The cluster a write stores. -/
def Write.cluster : Write → Cluster
  | .createCluster c => c
  | .updateCluster c => c
  | .updateClusterUnlessSuperseded c => c

def Database.updateRow (db : Database) (c : Cluster) : Database :=
  { db with clusters := db.clusters.map fun row => if row.id = c.id then c.columns else row }

/-- The database after a transaction, if it commits. -/
def Database.commit (db : Database) : Write → Option Database
  | .createCluster c =>
    if db.clusters.any (·.id == c.id) then none
    else some (({ db with clusters := db.clusters ++ [c.columns] } : Database).writeChildren c)
  | .updateCluster c =>
    if db.clusters.any (·.id == c.id) then some ((db.updateRow c).writeChildren c) else none
  | .updateClusterUnlessSuperseded c =>
    if db.clusters.any fun row => row.id == c.id && row.generation == c.generation then
      some ((db.updateRow c).writeChildren c)
    else none

/-! ### Reads -/

/-- `ORDER BY role, vm_name` -/
def byRole (a b : Entry String Node) : Prop :=
  a.value.role = .controlPlane ∧ b.value.role = .worker ∨
    a.value.role = b.value.role ∧ a.value.vmName ≤ b.value.vmName

instance : DecidableRel byRole := fun _ _ => inferInstanceAs (Decidable (_ ∨ _))

/-- `ORDER BY vm_name, name` -/
def byVMName (a b : Entry String NodeDisk) : Prop :=
  a.value.vmName < b.value.vmName ∨
    a.value.vmName = b.value.vmName ∧ a.value.name ≤ b.value.name

instance : DecidableRel byVMName := fun _ _ => inferInstanceAs (Decidable (_ ∨ _))

/-- `ORDER BY position, name` -/
def byPosition {α : Type} (name : α → String) (a b : Entry String α) : Prop :=
  a.position < b.position ∨ a.position = b.position ∧ name a.value ≤ name b.value

instance {α : Type} (name : α → String) : DecidableRel (byPosition name) :=
  fun _ _ => inferInstanceAs (Decidable (_ ∨ _))

/-- One statement of `loadChildren`. -/
def Database.load (db : Database) (c : Cluster) : Child → Cluster
  | .nodes => { c with nodes := select byRole c.id db.nodes }
  | .nodePools => { c with nodePools := select (byPosition (·.name)) c.id db.nodePools }
  | .nodeDisks => { c with nodeDisks := select byVMName c.id db.nodeDisks }
  | .addons => { c with addons := select (byPosition (·.name)) c.id db.addons }

inductive Query
  | getCluster (id : String)
  | listClusters

/-- The first statement of a read. -/
def Database.rows (db : Database) : Query → List Cluster
  | .getCluster id => db.clusters.filter (·.id == id)
  | .listClusters => db.clusters

/-- A read in progress: the clusters found, each with the child tables still to be read. -/
abbrev Reading := List (Cluster × List Child)

/-- The next statement of a read: the first cluster that has a table left loads it. -/
def Database.loadNext (db : Database) : Reading → Reading
  | [] => []
  | (c, []) :: rest => (c, []) :: db.loadNext rest
  | (c, t :: ts) :: rest => (db.load c t, ts) :: rest

/-! ### Interleavings -/

/-- The database, the read in progress or returned, and the clusters written so far. -/
structure ReadState where
  db : Database := {}
  reading : Reading := []
  written : List Cluster := []

inductive ReadInput
  | commit (w : Write)
  /-- the first statement of a read -/
  | query (q : Query)
  /-- the next statement of the read -/
  | load

namespace ReadState

def step (s : ReadState) : ReadInput → ReadState
  | .commit w =>
    match s.db.commit w with
    | some db => { s with db, written := w.cluster :: s.written }
    | none => s
  | .query q => { s with reading := (s.db.rows q).map fun c => (c, Child.all) }
  | .load => { s with reading := s.db.loadNext s.reading }

end ReadState

/-- Two clusters have the same children in one table, in any order for nodes and disks. -/
def Child.Same : Child → Cluster → Cluster → Prop
  | .nodes, c, c' => c.nodes.Perm c'.nodes
  | .nodePools, c, c' => c.nodePools = c'.nodePools
  | .nodeDisks, c, c' => c.nodeDisks.Perm c'.nodeDisks
  | .addons, c, c' => c.addons = c'.addons

instance (t : Child) (c c' : Cluster) : Decidable (t.Same c c') :=
  match t with
  | .nodes => inferInstanceAs (Decidable (List.Perm _ _))
  | .nodePools => inferInstanceAs (Decidable (_ = _))
  | .nodeDisks => inferInstanceAs (Decidable (List.Perm _ _))
  | .addons => inferInstanceAs (Decidable (_ = _))

/-- **One write**: `c` is the cluster that a write of `w` stores, up to the order of nodes and
disks. -/
def Cluster.Matches (c w : Cluster) : Prop :=
  c.nodes.Perm w.nodes ∧ c.nodeDisks.Perm w.nodeDisks ∧
    { c with nodes := w.nodes, nodeDisks := w.nodeDisks } = w.stored

/-- **The property**: every cluster of a read that has been loaded is that of one write. -/
def ReadState.Whole (s : ReadState) : Prop :=
  ∀ p ∈ s.reading, p.2 = [] → ∃ w ∈ s.written, p.1.Matches w

/-- **The condition** on a step: a write that commits leaves the child tables that the read
still has to load for that cluster as they are. -/
def UnreadKept (s : ReadState) : ReadInput → Prop
  | .commit w => (s.db.commit w).isSome = true → ∀ p ∈ s.reading, p.1.id = w.cluster.id →
      ∀ t ∈ p.2, t.Same (s.db.load p.1 t) w.cluster
  | _ => True

instance (s : ReadState) (i : ReadInput) : Decidable (UnreadKept s i) := by
  cases i <;> unfold UnreadKept <;> infer_instance

/-! ### What statements and transactions do -/

variable {db db' : Database} {c w : Cluster} {t u : Child}

theorem Child.Same.symm {c c' : Cluster} (h : t.Same c c') : t.Same c' c := by
  rcases t with _ | _ | _ | _
  · exact List.Perm.symm h
  · exact Eq.symm h
  · exact List.Perm.symm h
  · exact Eq.symm h

theorem Child.Same.trans {c c' c'' : Cluster} (h : t.Same c c') (h' : t.Same c' c'') :
    t.Same c c'' := by
  rcases t with _ | _ | _ | _
  · exact List.Perm.trans h h'
  · exact Eq.trans h h'
  · exact List.Perm.trans h h'
  · exact Eq.trans h h'

/-- A cluster without its children. -/
def Cluster.childless (c : Cluster) : Cluster :=
  { c with nodes := [], nodePools := [], nodeDisks := [], addons := [] }

private theorem childless_load (db : Database) (c : Cluster) (t : Child) :
    (db.load c t).childless = c.childless := by
  cases t <;> rfl

private theorem same_load_of_ne (hne : u ≠ t) (h : u.Same c w) : u.Same (db.load c t) w := by
  cases t <;> cases u <;> first | exact h | exact absurd rfl hne

private theorem same_load_load (h : u.Same (db.load c u) w) :
    u.Same (db.load (db.load c t) u) w := by
  cases t <;> cases u <;> exact h

private theorem byPosition_of_lt {α : Type} (name : α → String) (a b : Entry String α)
    (h : a.position < b.position) : byPosition name a b := .inl h

private theorem same_load_writeChildren (h : c.id = w.id) :
    t.Same ((db.writeChildren w).load c t) w := by
  rcases t with _ | _ | _ | _
  · simp only [Child.Same, Database.load, Database.writeChildren, h]
    exact select_replace_perm byRole w.id w.nodes db.nodes
  · simp only [Child.Same, Database.load, Database.writeChildren, h]
    exact select_replace_eq _ (byPosition_of_lt _) w.id w.nodePools db.nodePools
  · simp only [Child.Same, Database.load, Database.writeChildren, h]
    exact select_replace_perm byVMName w.id w.nodeDisks db.nodeDisks
  · simp only [Child.Same, Database.load, Database.writeChildren, h]
    exact select_replace_eq _ (byPosition_of_lt _) w.id w.addons db.addons

private theorem load_writeChildren_of_ne (h : c.id ≠ w.id) :
    (db.writeChildren w).load c t = db.load c t := by
  cases t <;> simp only [Database.load, Database.writeChildren, select_replace_of_ne _ h]

/-- **Inversion** of a transaction: the children of its cluster are replaced, its row is the one
written, and the other rows stay. -/
theorem commit_cases {a : Write} (h : db.commit a = some db') :
    ∃ rows, db' = ({ db with clusters := rows } : Database).writeChildren a.cluster ∧
      ∀ row ∈ rows, row = a.cluster.columns ∨ row ∈ db.clusters ∧ row.id ≠ a.cluster.id := by
  have hupdate : ∀ c : Cluster, ∀ row ∈ (db.updateRow c).clusters,
      row = c.columns ∨ row ∈ db.clusters ∧ row.id ≠ c.id := by
    intro c row hrow
    obtain ⟨old, hold, rfl⟩ := List.mem_map.mp hrow
    by_cases hid : old.id = c.id
    · exact .inl (if_pos hid)
    · rw [if_neg hid]
      exact .inr ⟨hold, hid⟩
  cases a with
  | createCluster c =>
    simp only [Database.commit] at h
    split at h
    · cases h
    · rename_i hnew
      obtain rfl := Option.some.inj h
      refine ⟨_, rfl, fun row hrow => ?_⟩
      rcases List.mem_append.mp hrow with hold | hlast
      · refine .inr ⟨hold, fun hid => hnew ?_⟩
        exact List.any_eq_true.mpr ⟨row, hold, beq_iff_eq.mpr hid⟩
      · exact .inl (List.mem_singleton.mp hlast)
  | updateCluster c =>
    simp only [Database.commit] at h
    split at h
    · obtain rfl := Option.some.inj h
      exact ⟨_, rfl, hupdate c⟩
    · cases h
  | updateClusterUnlessSuperseded c =>
    simp only [Database.commit] at h
    split at h
    · obtain rfl := Option.some.inj h
      exact ⟨_, rfl, hupdate c⟩
    · cases h

/-! ### One write behind every read -/

/-- What is loaded of `c`, and what the statements for the tables `ts` would load now, is from
the write of `w`. -/
structure Agrees (db : Database) (c : Cluster) (ts : List Child) (w : Cluster) : Prop where
  columns : c.childless = w.columns
  loaded : ∀ t, t ∉ ts → t.Same c w
  unread : ∀ t ∈ ts, t.Same (db.load c t) w

theorem Agrees.load {ts : List Child} (h : Agrees db c (t :: ts) w) :
    Agrees db (db.load c t) ts w where
  columns := (childless_load db c t).trans h.columns
  loaded u hu := by
    by_cases hut : u = t
    · subst hut
      exact h.unread u (List.mem_cons_self ..)
    · refine same_load_of_ne hut (h.loaded u ?_)
      simp [hut, hu]
  unread u hu := same_load_load (h.unread u (List.mem_cons_of_mem t hu))

theorem Agrees.write_of_ne {a : Cluster} {rows : List Cluster} {ts : List Child}
    (h : Agrees db c ts w) (hid : c.id ≠ a.id) :
    Agrees (({ db with clusters := rows } : Database).writeChildren a) c ts w where
  columns := h.columns
  loaded := h.loaded
  unread u hu := by
    rw [load_writeChildren_of_ne hid]
    have hload := h.unread u hu
    cases u <;> exact hload

theorem Agrees.write {a : Cluster} {rows : List Cluster} {ts : List Child}
    (h : Agrees db c ts w) (hid : c.id = a.id) (hkept : ∀ t ∈ ts, t.Same (db.load c t) a) :
    Agrees (({ db with clusters := rows } : Database).writeChildren a) c ts w where
  columns := h.columns
  loaded := h.loaded
  unread u hu :=
    (same_load_writeChildren hid).trans ((hkept u hu).symm.trans (h.unread u hu))

private theorem agrees_columns (db : Database) (w : Cluster) :
    Agrees (db.writeChildren w) w.columns Child.all w where
  columns := rfl
  loaded t ht := absurd (by cases t <;> decide) ht
  unread _ _ := same_load_writeChildren rfl

theorem Agrees.matches {w : Cluster} (h : Agrees db c [] w) : c.Matches w := by
  have hnodes : c.nodes.Perm w.nodes := h.loaded .nodes (List.not_mem_nil)
  have hdisks : c.nodeDisks.Perm w.nodeDisks := h.loaded .nodeDisks (List.not_mem_nil)
  have hpools : c.nodePools = w.nodePools := h.loaded .nodePools (List.not_mem_nil)
  have haddons : c.addons = w.addons := h.loaded .addons (List.not_mem_nil)
  refine ⟨hnodes, hdisks, ?_⟩
  -- the children are put back on both sides of the equality of the columns
  have hput := congrArg (fun x : Cluster =>
    { x with nodes := w.nodes, nodePools := w.nodePools, nodeDisks := w.nodeDisks
             addons := w.addons }) h.columns
  rw [Cluster.stored, ← hput]
  simp only [Cluster.childless, hpools, haddons]

/-- **The invariant**: every row, and every cluster of the read, agrees with one write. -/
structure ReadState.Sound (s : ReadState) : Prop where
  rows : ∀ c ∈ s.db.clusters, ∃ w ∈ s.written, Agrees s.db c Child.all w
  reading : ∀ p ∈ s.reading, ∃ w ∈ s.written, Agrees s.db p.1 p.2 w

namespace ReadState

variable {s : ReadState}

private theorem Sound.commit (h : s.Sound) {a : Write} (ha : UnreadKept s (.commit a)) :
    (s.step (.commit a)).Sound := by
  simp only [step]
  cases hcommit : s.db.commit a with
  | none => exact h
  | some db' =>
    have hkept := ha (by rw [hcommit]; rfl)
    obtain ⟨rows, rfl, hrows⟩ := commit_cases hcommit
    refine ⟨fun c hc => ?_, fun p hp => ?_⟩
    · rcases hrows c hc with rfl | ⟨hold, hid⟩
      · exact ⟨a.cluster, List.mem_cons_self .., agrees_columns _ _⟩
      · obtain ⟨w, hw, hagrees⟩ := h.rows c hold
        exact ⟨w, List.mem_cons_of_mem _ hw, hagrees.write_of_ne hid⟩
    · obtain ⟨w, hw, hagrees⟩ := h.reading p hp
      refine ⟨w, List.mem_cons_of_mem _ hw, ?_⟩
      by_cases hid : p.1.id = a.cluster.id
      · exact hagrees.write hid (hkept p hp hid)
      · exact hagrees.write_of_ne hid

/-- Every statement of the read keeps what it has read, and loads one more table. -/
private theorem mem_loadNext {db : Database} {reading : Reading} {p : Cluster × List Child}
    (h : p ∈ db.loadNext reading) :
    p ∈ reading ∨ ∃ c t ts, (c, t :: ts) ∈ reading ∧ p = (db.load c t, ts) := by
  induction reading with
  | nil => exact .inl h
  | cons q rest ih =>
    obtain ⟨c, ts⟩ := q
    cases ts with
    | nil =>
      rcases List.mem_cons.mp h with rfl | h
      · exact .inl (List.mem_cons_self ..)
      · rcases ih h with hmem | ⟨c', t, ts, hmem, rfl⟩
        · exact .inl (List.mem_cons_of_mem _ hmem)
        · exact .inr ⟨c', t, ts, List.mem_cons_of_mem _ hmem, rfl⟩
    | cons t ts =>
      rcases List.mem_cons.mp h with rfl | h
      · exact .inr ⟨c, t, ts, List.mem_cons_self .., rfl⟩
      · exact .inl (List.mem_cons_of_mem _ h)

/-- **One step** that meets the condition keeps the invariant. -/
theorem Sound.step (h : s.Sound) {i : ReadInput} (hi : UnreadKept s i) : (s.step i).Sound := by
  cases i with
  | commit a => exact h.commit hi
  | query q =>
    refine ⟨h.rows, fun p hp => ?_⟩
    obtain ⟨c, hc, rfl⟩ := List.mem_map.mp hp
    cases q with
    | getCluster id => exact h.rows c (List.mem_of_mem_filter hc)
    | listClusters => exact h.rows c hc
  | load =>
    refine ⟨h.rows, fun p hp => ?_⟩
    rcases mem_loadNext hp with hmem | ⟨c, t, ts, hmem, rfl⟩
    · exact h.reading p hmem
    · obtain ⟨w, hw, hagrees⟩ := h.reading _ hmem
      exact ⟨w, hw, hagrees.load⟩

/-- **No torn reads**, in every interleaving whose writes leave alone what the read has still to
load of the clusters whose rows it has. -/
theorem whole_of_unreadKept (is : List ReadInput) (h : Along step UnreadKept {} is) :
    (run step {} is).Whole := by
  have hinit : ({} : ReadState).Sound :=
    ⟨fun c hc => absurd hc List.not_mem_nil, fun p hp => absurd hp List.not_mem_nil⟩
  have hsound : (run step {} is).Sound :=
    run_invariant (fun s i hs hi => hs.step hi) hinit h
  intro p hp hdone
  obtain ⟨w, hw, hagrees⟩ := hsound.reading p hp
  rw [hdone] at hagrees
  exact ⟨w, hw, hagrees.matches⟩

/-! ### Two interleavings -/

def pooled (generation : Nat) (workers : Int) (phase : Phase) : Cluster :=
  { id := "1", name := "demo", generation, phase
    nodePools := [{ name := "default", size := "small", desiredWorkers := workers }] }

/-- The reconciler stores a new phase while the cluster is read. -/
def phaseDuringRead : List ReadInput :=
  [.commit (.createCluster (pooled 1 2 .ready)), .query (.getCluster "1"), .load,
    .commit (.updateClusterUnlessSuperseded (pooled 1 2 .updating)), .load, .load, .load]

theorem whole_phaseDuringRead :
    Along step UnreadKept {} phaseDuringRead ∧
    (run step {} phaseDuringRead).reading.map (·.2) = [[]] ∧
    (run step {} phaseDuringRead).Whole := by
  have hkept : Along step UnreadKept {} phaseDuringRead := by decide +kernel
  exact ⟨hkept, by decide +kernel, whole_of_unreadKept phaseDuringRead hkept⟩

/-- A scale-up commits between the statements that fetch the row and the pools. -/
def scaleDuringRead : List ReadInput :=
  [.commit (.createCluster (pooled 1 2 .ready)), .query (.getCluster "1"), .load,
    .commit (.updateCluster (pooled 2 3 .ready)), .load, .load, .load]

private theorem Whole.mem (h : s.Whole) {p : Cluster × List Child} (hp : p ∈ s.reading)
    (hdone : p.2 = []) :
    (p.1.generation, p.1.nodePools) ∈ s.written.map fun w => (w.generation, w.nodePools) := by
  obtain ⟨w, hw, -, -, hstored⟩ := h p hp hdone
  have hgeneration : p.1.generation = w.generation := by
    simpa only [Cluster.stored, Cluster.columns] using congrArg Cluster.generation hstored
  have hpools : p.1.nodePools = w.nodePools := by
    simpa only [Cluster.stored, Cluster.columns] using congrArg Cluster.nodePools hstored
  rw [hgeneration, hpools]
  exact List.mem_map_of_mem hw

/-- The cluster returned has the generation of one write and the pools of the other. -/
theorem torn_scaleDuringRead : ¬ (run step {} scaleDuringRead).Whole := by
  intro hwhole
  have hmixed : ∀ p ∈ (run step {} scaleDuringRead).reading, p.2 = [] ∧
      (p.1.generation, p.1.nodePools) ∉
        (run step {} scaleDuringRead).written.map fun w => (w.generation, w.nodePools) := by
    decide +kernel
  have hone : (run step {} scaleDuringRead).reading.length = 1 := by decide +kernel
  obtain ⟨p, hp⟩ := List.length_eq_one_iff.mp hone
  have hmem : p ∈ (run step {} scaleDuringRead).reading := by
    rw [hp]
    exact List.mem_singleton_self p
  exact (hmixed p hmem).2 (hwhole.mem hmem (hmixed p hmem).1)

end ReadState

end KaaS
