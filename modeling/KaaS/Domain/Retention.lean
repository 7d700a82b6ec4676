import KaaS.Domain.Maintenance
import KaaS.Library.Insertion

/-!
# Which snapshots are pruned

A restore takes **the first of the newest** snapshots in the order of the list; retention sorts the
list and drops what comes after the first few. The sort is stable and strict comparisons decide in
both, so the snapshot a restore would take comes first in the sorted list too, and retention always
keeps the first.
-/

namespace KaaS

open Insertion

/-- `a` stays before `b`: it is not older. -/
def EtcdSnapshot.StaysBefore (a b : EtcdSnapshot) : Prop := b.takenAt ≤ a.takenAt

instance : DecidableRel EtcdSnapshot.StaysBefore := fun a b =>
  inferInstanceAs (Decidable (b.takenAt ≤ a.takenAt))

instance : Std.Total EtcdSnapshot.StaysBefore := ⟨fun a b => le_total b.takenAt a.takenAt⟩

instance : IsTrans EtcdSnapshot EtcdSnapshot.StaysBefore := ⟨fun _ _ _ hab hbc => le_trans hbc hab⟩

def newestFirst (snaps : List EtcdSnapshot) : List EtcdSnapshot :=
  snaps.insertionSort EtcdSnapshot.StaysBefore

/-- The loops of the sort, which swap neighbours, end in it. -/
theorem newestFirst_eq_sinkAll (snaps : List EtcdSnapshot) :
    newestFirst snaps = (sinkAll EtcdSnapshot.StaysBefore snaps).reverse :=
  (reverse_sinkAll snaps).symm

namespace EtcdSnapshotPolicy

def retained (p : EtcdSnapshotPolicy) : Nat := (max 1 p.retain).toNat

theorem retained_pos (p : EtcdSnapshotPolicy) : 0 < p.retained := by
  unfold retained
  omega

theorem pruneEtcdSnapshots_eq (p : EtcdSnapshotPolicy) (snaps : List EtcdSnapshot) :
    p.pruneEtcdSnapshots snaps = (newestFirst snaps).drop p.retained := by
  have hretain : (if p.retain < 1 then 1 else p.retain) = max 1 p.retain := by
    split <;> omega
  simp only [pruneEtcdSnapshots, hretain]
  split
  · rename_i hfew
    symm
    rw [List.drop_eq_nil_iff, newestFirst, List.length_insertionSort, retained]
    omega
  · rfl

end EtcdSnapshotPolicy

/-! ### The newest of a list -/

/-- The loop of `restorableSnapshot` against the head of a sorted list. -/
private theorem foldl_newest (rest : List EtcdSnapshot) (first : EtcdSnapshot) :
    rest.foldl (fun n s => if s.takenAt > n.takenAt then s else n) first =
      match (newestFirst rest).head? with
      | none => first
      | some m => if m.takenAt > first.takenAt then m else first := by
  induction rest generalizing first with
  | nil => rfl
  | cons s rest ih =>
    rw [List.foldl_cons, ih]
    unfold newestFirst
    rw [List.insertionSort_cons]
    cases hsorted : rest.insertionSort EtcdSnapshot.StaysBefore with
    | nil => simp
    | cons m sorted =>
      rw [List.orderedInsert_cons]
      simp only [List.head?_cons]
      by_cases hs : s.StaysBefore m
      · rw [if_pos hs, List.head?_cons]
        have hle : m.takenAt ≤ s.takenAt := hs
        by_cases hfirst : s.takenAt > first.takenAt
        · simp [hfirst, hle]
        · have hm : ¬m.takenAt > first.takenAt := not_lt.mpr (hle.trans (not_lt.mp hfirst))
          simp [hfirst, hm]
      · rw [if_neg hs, List.head?_cons]
        have hlt : s.takenAt < m.takenAt := not_le.mp hs
        by_cases hfirst : s.takenAt > first.takenAt
        · have hm : m.takenAt > first.takenAt := lt_trans hfirst hlt
          simp [hfirst, hlt, hm]
        · simp [hfirst]

/-- **The snapshot of a restore** comes first in the sorted list. -/
theorem head?_newestFirst {snaps : List EtcdSnapshot} {p : EtcdSnapshotPolicy} {now : Time}
    {s : EtcdSnapshot} (h : restorableSnapshot snaps p now = .ok s) :
    (newestFirst snaps).head? = some s := by
  cases snaps with
  | nil => simp [restorableSnapshot] at h
  | cons first rest =>
    simp only [restorableSnapshot] at h
    split at h
    · simp at h
    · obtain rfl := Except.ok.inj h
      rw [foldl_newest]
      unfold newestFirst
      rw [List.insertionSort_cons]
      cases hsorted : rest.insertionSort EtcdSnapshot.StaysBefore with
      | nil => rfl
      | cons m sorted =>
        rw [List.orderedInsert_cons]
        simp only [List.head?_cons]
        by_cases hs : first.StaysBefore m
        · rw [if_pos hs, if_neg (not_lt.mpr hs), List.head?_cons]
        · rw [if_neg hs, if_pos (not_le.mp hs), List.head?_cons]

/-! ### Retention -/

/-- **Retention** splits the snapshots into the newest ones and those it returns, and what a restore
would take is the first it keeps: one of its occurrences stays, and under distinct ids nothing
returned has its id. -/
theorem pruneEtcdSnapshots_keeps (p : EtcdSnapshotPolicy) (snaps : List EtcdSnapshot) :
    ∃ keep, (keep ++ p.pruneEtcdSnapshots snaps).Perm snaps ∧
      keep.length = min (max 1 p.retain).toNat snaps.length ∧
      (∀ k ∈ keep, ∀ d ∈ p.pruneEtcdSnapshots snaps, d.takenAt ≤ k.takenAt) ∧
      ∀ now s, restorableSnapshot snaps p now = .ok s →
        s ∈ keep ∧ (p.pruneEtcdSnapshots snaps).count s < snaps.count s ∧
        ((snaps.map (·.id)).Nodup → ∀ d ∈ p.pruneEtcdSnapshots snaps, d.id ≠ s.id) := by
  rw [p.pruneEtcdSnapshots_eq]
  have hperm : (newestFirst snaps).Perm snaps := List.perm_insertionSort _ snaps
  have hsorted : (newestFirst snaps).Pairwise EtcdSnapshot.StaysBefore :=
    List.pairwise_insertionSort _ snaps
  have hsplit := List.take_append_drop p.retained (newestFirst snaps)
  refine ⟨(newestFirst snaps).take p.retained, ?_, ?_, ?_, fun now s hs => ?_⟩
  · rwa [hsplit]
  · rw [List.length_take, hperm.length_eq]
    rfl
  · rw [← hsplit] at hsorted
    exact (List.pairwise_append.mp hsorted).2.2
  · have hkept : s ∈ (newestFirst snaps).take p.retained := by
      have hhead := head?_newestFirst hs
      refine List.mem_of_head? ?_
      rw [List.head?_take, if_neg (Nat.pos_iff_ne_zero.mp p.retained_pos), hhead]
    refine ⟨hkept, ?_, fun hnodup d hd heq => ?_⟩
    · have hcount := hperm.count_eq s
      rw [← hsplit, List.count_append] at hcount
      have hpos := List.count_pos_iff.mpr hkept
      omega
    · have hids : ((newestFirst snaps).map (·.id)).Nodup := (hperm.map _).nodup_iff.mpr hnodup
      rw [← hsplit, List.map_append, List.nodup_append] at hids
      exact hids.2.2 _ (List.mem_map_of_mem hkept) _ (List.mem_map_of_mem hd) heq.symm

/-- Two snapshots of one time, the first of which is kept. -/
theorem pruneEtcdSnapshots_keeps_tie :
    ∃ keep : List EtcdSnapshot, (⟨"b", "1", 5, 0, 0⟩ : EtcdSnapshot) ∈ keep ∧
      (keep ++ ({ retain := 0 } : EtcdSnapshotPolicy).pruneEtcdSnapshots
        [⟨"a", "1", 3, 0, 0⟩, ⟨"b", "1", 5, 0, 0⟩, ⟨"c", "1", 5, 0, 0⟩]).Perm
        [⟨"a", "1", 3, 0, 0⟩, ⟨"b", "1", 5, 0, 0⟩, ⟨"c", "1", 5, 0, 0⟩] := by
  obtain ⟨keep, hperm, -, -, hkept⟩ := pruneEtcdSnapshots_keeps { retain := 0 }
    [⟨"a", "1", 3, 0, 0⟩, ⟨"b", "1", 5, 0, 0⟩, ⟨"c", "1", 5, 0, 0⟩]
  exact ⟨keep, (hkept 10 _ rfl).1, hperm⟩

end KaaS
