import KaaS.Domain.Cluster
import KaaS.Library.Run
import Mathlib.Data.List.AList

/-!
# The provisioning timeline in one process

The timeline of a cluster is an append-only list of events. A **broker** hands them to the open
streams of the portal: `Subscribe` returns the history and a channel of what follows, and the
stream shows the one and then the other. The channel holds 64 events; what finds no room is dropped.

Without a database a broker keeps the history itself, and adds to it and sends to the channels
under one lock. A stream that keeps up therefore shows its cluster's events exactly once and in
order, up to the moment it is closed (`Memory.allShow_run`).
-/

namespace KaaS

namespace Timeline

/-! ### Events and streams -/

/-- An event; times are in nanoseconds, and zero is no time. -/
structure Event where
  clusterID : String := ""
  ts : Time := 0
  level : String := ""
  source : String := ""
  message : String := ""
  deriving DecidableEq

/-- An event is stamped when it is emitted, unless it has a time already. -/
def Event.stamp (now : Time) (e : Event) : Event := if e.ts = 0 then { e with ts := now } else e

def eventsOf (clusterID : String) (l : List Event) : List Event :=
  l.filter (·.clusterID == clusterID)

def channelCapacity : ℕ := 64

/-- One call of `Subscribe`, with what has come of it. -/
structure Subscription where
  id : ℕ
  clusterID : String
  history : List Event
  /-- Sent and not yet taken. -/
  waiting : List Event := []
  /-- Taken from the channel. -/
  received : List Event := []
  /-- The most events that ever waited, one that found no room included. -/
  peak : ℕ := 0
  /-- How many events its cluster had when it was cancelled. -/
  cancelled : Option ℕ := none

namespace Subscription

variable (x : Subscription)

/-- What the stream shows, to the end of what its channel holds. -/
def seen : List Event := x.history ++ (x.received ++ x.waiting)

def send (e : Event) : Subscription :=
  let x := { x with peak := max x.peak (x.waiting.length + 1) }
  if x.waiting.length < channelCapacity then { x with waiting := x.waiting ++ [e] } else x

def take : Subscription :=
  match x.waiting with
  | [] => x
  | e :: rest => { x with waiting := rest, received := x.received ++ [e] }

/-- **It shows** exactly the events `l`, as far as `view` tells them apart: all of them but those
still on their way to it (`pending`), or those before it was cancelled. -/
def Shows (view : Event → Event) (pending l : List Event) : Prop :=
  match x.cancelled with
  | none => (x.seen ++ pending).map view = l.map view
  | some n => n ≤ l.length ∧ x.seen.map view = (l.take n).map view

end Subscription

/-- `broadcastLocked`: the open streams of the cluster are sent the event. -/
def broadcast (e : Event) (subs : List Subscription) : List Subscription :=
  subs.map fun x => if x.cancelled = none ∧ x.clusterID = e.clusterID then x.send e else x

def receive (id : ℕ) (subs : List Subscription) : List Subscription :=
  subs.map fun x => if x.id = id then x.take else x

/-- A stream is closed; `count` is how many events a cluster has. -/
def cancel (count : String → ℕ) (id : ℕ) (subs : List Subscription) : List Subscription :=
  subs.map fun x =>
    if x.id = id ∧ x.cancelled = none then { x with cancelled := some (count x.clusterID) } else x

/-! ### A broker of its own -/

structure Memory where
  history : AList (fun _ : String => List Event) := ∅
  subs : List Subscription := []

inductive MemoryInput
  | emit (now : Time) (e : Event)
  | subscribe (clusterID : String)
  | receive (id : ℕ)
  | cancel (id : ℕ)

namespace Memory

variable (s : Memory)

def historyOf (clusterID : String) : List Event := (s.history.lookup clusterID).getD []

/-- Every call holds the broker's lock from start to end. -/
def step : MemoryInput → Memory
  | .emit now e =>
    let e := e.stamp now
    { history := s.history.insert e.clusterID (s.historyOf e.clusterID ++ [e])
      subs := broadcast e s.subs }
  | .subscribe clusterID =>
    { s with
      subs := s.subs ++ [⟨s.subs.length, clusterID, s.historyOf clusterID, [], [], 0, none⟩] }
  | .receive id => { s with subs := Timeline.receive id s.subs }
  | .cancel id =>
    { s with subs := Timeline.cancel (fun clusterID => (s.historyOf clusterID).length) id s.subs }

end Memory

/-! ### What one step does to a stream -/

namespace Subscription

variable {x : Subscription} {e : Event} {view : Event → Event} {p l : List Event}

theorem cancelled_send : (x.send e).cancelled = x.cancelled := by
  unfold send
  dsimp only
  split <;> rfl

theorem clusterID_send : (x.send e).clusterID = x.clusterID := by
  unfold send
  dsimp only
  split <;> rfl

theorem peak_send : (x.send e).peak = max x.peak (x.waiting.length + 1) := by
  unfold send
  dsimp only
  split <;> rfl

theorem seen_send (h : (x.send e).peak ≤ channelCapacity) : (x.send e).seen = x.seen ++ [e] := by
  rw [peak_send] at h
  have hroom : x.waiting.length < channelCapacity := (le_max_right _ _).trans h
  unfold send
  dsimp only
  rw [if_pos hroom]
  simp [seen]

theorem seen_take : x.take.seen = x.seen := by
  unfold take
  split
  · rfl
  · rename_i hwaiting
    simp [seen, hwaiting]

theorem take_eq : x.take.cancelled = x.cancelled ∧ x.take.clusterID = x.clusterID ∧
    x.take.peak = x.peak := by
  unfold take
  split <;> exact ⟨rfl, rfl, rfl⟩

theorem Shows.take (h : x.Shows view p l) : x.take.Shows view p l := by
  unfold Shows
  rw [take_eq.1, seen_take]
  exact h

theorem Shows.closed (h : x.Shows view p l) (hclosed : x.cancelled ≠ none) (p' : List Event) :
    x.Shows view p' l := by
  unfold Shows at h ⊢
  cases hc : x.cancelled with
  | none => exact absurd hc hclosed
  | some n => simpa only [hc] using h

theorem Shows.append (h : x.Shows view p l) (more : List Event) :
    x.Shows view (p ++ more) (l ++ more) := by
  unfold Shows at h ⊢
  cases hc : x.cancelled with
  | none =>
    simp only [hc] at h ⊢
    rw [← List.append_assoc, List.map_append, h, List.map_append]
  | some n =>
    simp only [hc] at h ⊢
    obtain ⟨hle, hseen⟩ := h
    refine ⟨hle.trans (by simp), ?_⟩
    rw [hseen, List.take_append_of_le_length hle]

theorem Shows.send (h : x.Shows view (e :: p) l) (hopen : x.cancelled = none)
    (hroom : (x.send e).peak ≤ channelCapacity) : (x.send e).Shows view p l := by
  unfold Shows at h ⊢
  rw [cancelled_send]
  simp only [hopen] at h ⊢
  rw [seen_send hroom, List.append_assoc]
  exact h

theorem Shows.close (h : x.Shows view [] l) (hopen : x.cancelled = none) :
    Shows { x with cancelled := some l.length } view [] l := by
  simp only [Shows, hopen, List.append_nil] at h
  refine ⟨le_rfl, ?_⟩
  rw [List.take_length]
  exact h

end Subscription

/-- The streams that keep up show the events `log` of their cluster. -/
def AllShow (view : Event → Event) (pending log : String → List Event)
    (subs : List Subscription) : Prop :=
  ∀ x ∈ subs, x.peak ≤ channelCapacity → x.Shows view (pending x.clusterID) (log x.clusterID)

namespace AllShow

variable {view : Event → Event} {pending log : String → List Event} {subs : List Subscription}

theorem broadcast {e : Event}
    (h : AllShow view (fun c => if c = e.clusterID then e :: pending c else pending c) log subs) :
    AllShow view pending log (broadcast e subs) := by
  intro y hy hpeak
  obtain ⟨x, hx, rfl⟩ := List.mem_map.mp hy
  by_cases hsent : x.cancelled = none ∧ x.clusterID = e.clusterID
  · rw [if_pos hsent] at hpeak ⊢
    have hx := h x hx ((le_max_left _ _).trans (Subscription.peak_send ▸ hpeak))
    dsimp only at hx
    rw [if_pos hsent.2] at hx
    rw [Subscription.clusterID_send]
    exact hx.send hsent.1 hpeak
  · rw [if_neg hsent] at hpeak ⊢
    have hx := h x hx hpeak
    by_cases hc : x.clusterID = e.clusterID
    · exact hx.closed (fun hopen => hsent ⟨hopen, hc⟩) _
    · dsimp only at hx
      rwa [if_neg hc] at hx

theorem receive (h : AllShow view pending log subs) (id : ℕ) :
    AllShow view pending log (receive id subs) := by
  intro y hy hpeak
  obtain ⟨x, hx, rfl⟩ := List.mem_map.mp hy
  split
  · rename_i hid
    rw [if_pos hid, Subscription.take_eq.2.2] at hpeak
    rw [Subscription.take_eq.2.1]
    exact (h x hx hpeak).take
  · rename_i hid
    rw [if_neg hid] at hpeak
    exact h x hx hpeak

theorem cancel (h : AllShow view pending log subs) (id : ℕ)
    (hnone : ∀ x ∈ subs, x.id = id → x.cancelled = none → pending x.clusterID = []) :
    AllShow view pending log (cancel (fun c => (log c).length) id subs) := by
  intro y hy hpeak
  obtain ⟨x, hx, rfl⟩ := List.mem_map.mp hy
  dsimp only at hpeak ⊢
  split
  · rename_i hid
    rw [if_pos hid] at hpeak
    have hshows := h x hx hpeak
    rw [hnone x hx hid.1 hid.2] at hshows ⊢
    exact hshows.close hid.2
  · rename_i hid
    rw [if_neg hid] at hpeak
    exact h x hx hpeak

theorem append (h : AllShow view pending log subs) (more : String → List Event) :
    AllShow view (fun c => pending c ++ more c) (fun c => log c ++ more c) subs :=
  fun x hx hpeak => (h x hx hpeak).append (more x.clusterID)

theorem subscribe (h : AllShow view pending log subs) (id : ℕ) {c : String} {history : List Event}
    (hhistory : (history ++ pending c).map view = (log c).map view) :
    AllShow view pending log (subs ++ [⟨id, c, history, [], [], 0, none⟩]) := by
  refine List.forall_mem_append.mpr ⟨h, fun x hx _ => ?_⟩
  rw [List.mem_singleton.mp hx]
  simpa [Subscription.Shows, Subscription.seen] using hhistory

end AllShow

/-! ### Runs in memory -/

namespace Memory

private theorem historyOf_emit (s : Memory) (now : Time) (e : Event) (c : String) :
    (s.step (.emit now e)).historyOf c =
      s.historyOf c ++ if c = (e.stamp now).clusterID then [e.stamp now] else [] := by
  simp only [step, historyOf]
  by_cases hc : c = (e.stamp now).clusterID
  · rw [hc, AList.lookup_insert, if_pos rfl, Option.getD_some]
  · rw [AList.lookup_insert_ne hc, if_neg hc, List.append_nil]

private theorem allShow_step {s : Memory} (h : AllShow id (fun _ => []) s.historyOf s.subs)
    (i : MemoryInput) : AllShow id (fun _ => []) (s.step i).historyOf (s.step i).subs := by
  cases i with
  | emit now e =>
    have hmore := h.append fun c => if c = (e.stamp now).clusterID then [e.stamp now] else []
    rw [← funext (historyOf_emit s now e)] at hmore
    exact AllShow.broadcast (by simpa using hmore)
  | subscribe c => exact h.subscribe s.subs.length (by simp [historyOf])
  | receive id => exact h.receive id
  | cancel id => exact h.cancel id fun _ _ _ _ => rfl

/-- **A stream that keeps up** shows the events of its cluster exactly once and in order. -/
theorem allShow_run (is : List MemoryInput) :
    AllShow id (fun _ => []) (TransitionSystem.run step {} is).historyOf
      (TransitionSystem.run step {} is).subs :=
  TransitionSystem.run_preserves
    (I := fun s : Memory => AllShow id (fun _ => []) s.historyOf s.subs)
    (fun _ i h => allShow_step h i) (fun _ hx => absurd hx List.not_mem_nil) is

end Memory

end Timeline

end KaaS
