import KaaS.Events.Broker
import KaaS.Library.Keyed
import Mathlib.Data.List.Sort

/-!
# The provisioning timeline over a database

In a deployment the events of a cluster are emitted by a worker and shown by an API server, two
processes with a broker each. `persist` inserts an event into a table and notifies in the same
statement, and every broker listens: what it hears it sends to its streams. A new stream takes its
history from the table, under the broker's lock. That lock keeps nobody from
committing, and it does not concern what the broker has yet to hear.

So a stream may be given an event **twice**, from the table and then from a notification that was
still on its way; and it misses what is on its way when it is closed, what was committed after it
had read and before the broker began to listen, and what the database refuses. The table is read in
the order of its ids, which are given out before the commit. `Orderly` says which steps avoid all
of that, and `shows_exactly_once` that nothing else is in the way.
-/

namespace KaaS

namespace Timeline

/-! ### What the database takes -/

/-- A character inside a JSON text, as `encoding/json` writes it. -/
def jsonChar (ch : Char) : List Char :=
  if ch = '"' then ['\\', '"']
  else if ch = '\\' then ['\\', '\\']
  else if ch = '\n' then ['\\', 'n']
  else if ch = '\r' then ['\\', 'r']
  else if ch = '\t' then ['\\', 't']
  else if ch = Char.ofNat 8 then ['\\', 'b']
  else if ch = Char.ofNat 12 then ['\\', 'f']
  else if ch.toNat < 32 ∨ ch = '<' ∨ ch = '>' ∨ ch = '&' ∨ ch.toNat = 0x2028 ∨
      ch.toNat = 0x2029 then
    let digits := Nat.toDigits 16 ch.toNat
    ['\\', 'u'] ++ List.replicate (4 - digits.length) '0' ++ digits
  else [ch]

def jsonText (s : String) : String := String.ofList ('"' :: s.toList.flatMap jsonChar ++ ['"'])

/-- The deployment's database: how times are written, and the clusters it has. -/
structure Database where
  rfc3339 : Time → String
  clusters : List String

def Database.payload (D : Database) (e : Event) : String :=
  "\x7b\"cluster_id\":" ++ jsonText e.clusterID ++ ",\"ts\":" ++ jsonText (D.rfc3339 e.ts) ++
    ",\"level\":" ++ jsonText e.level ++ ",\"source\":" ++ jsonText e.source ++
    ",\"message\":" ++ jsonText e.message ++ "\x7d"

/-- A notification is shorter than this many bytes. -/
def maxPayloadBytes : ℕ := 8000

/-- **What the statement accepts**: an event of a cluster that exists, whose texts have no zero
character, and whose notification is short enough. -/
def Database.accepts (D : Database) (e : Event) : Bool :=
  D.clusters.contains e.clusterID &&
    [e.clusterID, e.level, e.source, e.message].all (!·.toList.contains (Char.ofNat 0)) &&
    (D.payload e).utf8ByteSize < maxPayloadBytes

/-- An event as the table gives it back: times have microseconds. -/
def Event.stored (e : Event) : Event := { e with ts := e.ts / 1000 * 1000 }

theorem Event.stored_stored (e : Event) : e.stored.stored = e.stored := by
  have hts : e.ts / 1000 * 1000 / 1000 * 1000 = e.ts / 1000 * 1000 := by
    rw [Int.mul_ediv_cancel _ (by decide)]
  rw [stored, stored, hts]

structure Row where
  id : ℕ
  event : Event

/-! ### Brokers on one database -/

structure Broker where
  /-- Whether the notifications committed from now on will be heard. -/
  listening : Bool := false
  /-- What was notified and not yet heard. -/
  queue : List Event := []
  /-- The `Subscribe` that holds the lock, with its cluster and the history it read. -/
  locked : Option (String × List Event) := none
  subs : List Subscription := []

structure Relay where
  nextID : ℕ := 1
  /-- The statements that have an id and are not committed yet. -/
  running : List Row := []
  /-- The table, in the order of the commits. -/
  rows : List Row := []
  brokers : List Broker
  /-- The events whose `Emit` has returned, in this order. -/
  emitted : List Event := []

inductive RelayInput
  | emit (now : Time) (e : Event)
  | commit (id : ℕ)
  | listen (b : ℕ)
  | hear (b : ℕ)
  | subscribe (b : ℕ) (clusterID : String)
  | register (b : ℕ)
  | receive (b id : ℕ)
  | cancel (b id : ℕ)

/-- `replayLocked`: the events of a cluster in the order of their ids. -/
def replay (rows : List Row) (clusterID : String) : List Event :=
  ((rows.filter (·.event.clusterID == clusterID)).insertionSort fun r q => r.id ≤ q.id).map
    (·.event.stored)

namespace Broker

variable (b : Broker)

def notify (e : Event) : Broker := if b.listening then { b with queue := b.queue ++ [e] } else b

/-- A round of `listenLoop`; sending takes the lock. -/
def hear : Broker :=
  match b.locked, b.queue with
  | none, e :: rest => { b with queue := rest, subs := broadcast e b.subs }
  | _, _ => b

def subscribe (rows : List Row) (clusterID : String) : Broker :=
  match b.locked with
  | some _ => b
  | none => { b with locked := some (clusterID, replay rows clusterID) }

def register : Broker :=
  match b.locked with
  | none => b
  | some (clusterID, history) =>
    { b with
      locked := none
      subs := b.subs ++ [⟨b.subs.length, clusterID, history, [], [], 0, none⟩] }

def receive (id : ℕ) : Broker := { b with subs := Timeline.receive id b.subs }

def cancel (count : String → ℕ) (id : ℕ) : Broker :=
  match b.locked with
  | some _ => b
  | none => { b with subs := Timeline.cancel count id b.subs }

end Broker

namespace Relay

variable (D : Database) (s : Relay)

/-- The events of a cluster that have been emitted. -/
def emittedOf (clusterID : String) : List Event := eventsOf clusterID s.emitted

/-- What one broker does by itself. -/
def onBroker (b : ℕ) (f : Broker → Broker) : Relay := { s with brokers := s.brokers.modify b f }

def step : RelayInput → Relay
  | .emit now e =>
    let e := e.stamp now
    if D.accepts e then
      { s with nextID := s.nextID + 1, running := s.running ++ [⟨s.nextID, e⟩] }
    -- the error is logged; the id is used up
    else { s with nextID := s.nextID + 1, emitted := s.emitted ++ [e] }
  | .commit id =>
    match s.running.find? (·.id == id) with
    | none => s
    | some row =>
      { s with
        running := s.running.filter (·.id != id)
        rows := s.rows ++ [row]
        brokers := s.brokers.map (·.notify row.event)
        emitted := s.emitted ++ [row.event] }
  | .listen b => s.onBroker b fun b => { b with listening := true }
  | .hear b => s.onBroker b (·.hear)
  | .subscribe b clusterID => s.onBroker b (·.subscribe s.rows clusterID)
  | .register b => s.onBroker b (·.register)
  | .receive b id => s.onBroker b (·.receive id)
  | .cancel b id => s.onBroker b (·.cancel (fun clusterID => (s.emittedOf clusterID).length) id)

def initial (n : ℕ) : Relay := { brokers := List.replicate n {} }

/-- **Orderly steps**: what is emitted is accepted; the events of a cluster commit in the order of
their ids; a stream is opened at a broker that listens and has heard all about the cluster, and it
is closed when the broker has. -/
def Orderly : RelayInput → Prop
  | .emit now e => D.accepts (e.stamp now) = true
  | .commit id => ∀ row ∈ s.running, row.id = id → ∀ q ∈ s.running,
      q.event.clusterID = row.event.clusterID → id ≤ q.id
  | .subscribe b clusterID => ∀ broker ∈ s.brokers[b]?,
      broker.listening = true ∧ eventsOf clusterID broker.queue = []
  | .cancel b id => ∀ broker ∈ s.brokers[b]?, ∀ x ∈ broker.subs,
      x.id = id → x.cancelled = none → eventsOf x.clusterID broker.queue = []
  | _ => True

instance (i : RelayInput) : Decidable (Orderly D s i) := by
  unfold Orderly
  cases i <;> infer_instance

end Relay

/-! ### What one step keeps -/

/-- Ids are given out upwards, and those of a cluster's rows are below those still running. -/
structure Relay.Numbered (s : Relay) : Prop where
  fresh : ∀ row ∈ s.running, row.id < s.nextID
  used : ∀ row ∈ s.rows, row.id < s.nextID
  distinct : (s.running.map (·.id)).Nodup
  sorted : s.rows.Pairwise fun r q => r.event.clusterID = q.event.clusterID → r.id < q.id
  above : ∀ r ∈ s.rows, ∀ q ∈ s.running, r.event.clusterID = q.event.clusterID → r.id < q.id
  events : s.rows.map (·.event) = s.emitted

/-- The streams of a broker, and one that is being opened, show what was emitted. -/
structure Broker.Sound (log : String → List Event) (b : Broker) : Prop where
  subs : AllShow Event.stored (fun c => eventsOf c b.queue) log b.subs
  locked : ∀ c history, b.locked = some (c, history) →
    (history ++ eventsOf c b.queue).map Event.stored = (log c).map Event.stored
  listening : b.subs ≠ [] ∨ b.locked ≠ none → b.listening = true

theorem eventsOf_append (c : String) (l l' : List Event) :
    eventsOf c (l ++ l') = eventsOf c l ++ eventsOf c l' := List.filter_append ..

theorem eventsOf_cons (c : String) (e : Event) (l : List Event) :
    eventsOf c (e :: l) = if c = e.clusterID then e :: eventsOf c l else eventsOf c l := by
  unfold eventsOf
  by_cases hc : c = e.clusterID
  · rw [if_pos hc, List.filter_cons_of_pos (by simp [hc])]
  · rw [if_neg hc, List.filter_cons_of_neg (by simpa using Ne.symm hc)]

namespace Broker

variable {b : Broker} {log : String → List Event}

namespace Sound

theorem notify (h : b.Sound log) (e : Event) :
    (b.notify e).Sound fun c => log c ++ eventsOf c [e] := by
  unfold Broker.notify
  split
  · refine ⟨?_, fun c history hlocked => ?_, h.listening⟩
    · have hmore := h.subs.append fun c => eventsOf c [e]
      simpa only [eventsOf_append] using hmore
    · rw [eventsOf_append, ← List.append_assoc, List.map_append, h.locked c history hlocked,
        List.map_append]
  · rename_i hdeaf
    have hidle : b.subs = [] ∧ b.locked = none := by
      by_contra hbusy
      exact hdeaf (h.listening (not_and_or.mp hbusy))
    refine ⟨fun x hx => ?_, fun c history hlocked => ?_, fun hbusy => h.listening hbusy⟩
    · rw [hidle.1] at hx
      exact absurd hx List.not_mem_nil
    · rw [hidle.2] at hlocked
      exact absurd hlocked (by simp)

theorem listen (h : b.Sound log) : Sound log { b with listening := true } :=
  ⟨h.subs, h.locked, fun _ => rfl⟩

theorem hear (h : b.Sound log) : b.hear.Sound log := by
  unfold Broker.hear
  split
  · rename_i e rest hlocked hqueue
    refine ⟨AllShow.broadcast ?_, fun c history hc => ?_, fun hbusy => ?_⟩
    · have hsubs := h.subs
      simp only [hqueue, eventsOf_cons] at hsubs
      exact hsubs
    · rw [hlocked] at hc
      exact absurd hc (by simp)
    · refine h.listening (hbusy.imp_left fun hne hnil => hne ?_)
      rw [hnil]
      rfl
  · exact h

theorem subscribe (h : b.Sound log) {rows : List Row} {c : String}
    (hrows : (replay rows c).map Event.stored = (log c).map Event.stored)
    (hcond : b.listening = true ∧ eventsOf c b.queue = []) :
    (b.subscribe rows c).Sound log := by
  unfold Broker.subscribe
  split
  · exact h
  · refine ⟨h.subs, fun c' history hlocked => ?_, fun _ => hcond.1⟩
    obtain ⟨rfl, rfl⟩ := Prod.mk.inj (Option.some.inj hlocked)
    rw [hcond.2, List.append_nil, hrows]

theorem register (h : b.Sound log) : b.register.Sound log := by
  unfold Broker.register
  split
  · exact h
  · rename_i c history hlocked
    refine ⟨h.subs.subscribe _ (h.locked c history hlocked), ?_, fun _ => ?_⟩
    · exact fun _ _ hnone => absurd hnone (by simp)
    · exact h.listening (.inr (by simp [hlocked]))

theorem receive (h : b.Sound log) (id : ℕ) : (b.receive id).Sound log := by
  refine ⟨h.subs.receive id, h.locked, fun hbusy => h.listening (hbusy.imp_left ?_)⟩
  exact fun hne hnil => hne (by rw [Broker.receive, hnil]; rfl)

theorem cancel (h : b.Sound log) (id : ℕ)
    (hcond : ∀ x ∈ b.subs, x.id = id → x.cancelled = none → eventsOf x.clusterID b.queue = []) :
    (b.cancel (fun c => (log c).length) id).Sound log := by
  unfold Broker.cancel
  split
  · exact h
  · refine ⟨h.subs.cancel id hcond, h.locked, fun hbusy => h.listening (hbusy.imp_left ?_)⟩
    exact fun hne hnil => hne (by rw [hnil]; rfl)

end Sound

end Broker

namespace Relay

variable {D : Database} {s : Relay}

theorem Numbered.replay (h : s.Numbered) (c : String) :
    Timeline.replay s.rows c = (s.emittedOf c).map Event.stored := by
  have hsorted : (s.rows.filter (·.event.clusterID == c)).Pairwise fun r q => r.id ≤ q.id := by
    refine (h.sorted.filter _).imp_of_mem ?_
    intro r q hr hq hlt
    have hr := beq_iff_eq.mp (List.mem_filter.mp hr).2
    have hq := beq_iff_eq.mp (List.mem_filter.mp hq).2
    exact Nat.le_of_lt (hlt (hr.trans hq.symm))
  rw [Timeline.replay, List.Pairwise.insertionSort_eq hsorted, emittedOf, eventsOf, ← h.events,
    List.filter_map, List.map_map]
  rfl

private theorem Numbered.emit (h : s.Numbered) (e : Event) :
    Numbered { s with nextID := s.nextID + 1, running := s.running ++ [⟨s.nextID, e⟩] } where
  fresh := by
    refine List.forall_mem_append.mpr ⟨fun row hrow => ?_, fun row hrow => ?_⟩
    · exact Nat.lt_succ_of_lt (h.fresh row hrow)
    · rw [List.mem_singleton.mp hrow]
      exact Nat.lt_succ_self _
  used row hrow := Nat.lt_succ_of_lt (h.used row hrow)
  distinct := by
    rw [List.map_append]
    refine List.nodup_append.mpr ⟨h.distinct, by simp, ?_⟩
    rintro n hn m hm rfl
    obtain ⟨row, hrow, rfl⟩ := List.mem_map.mp hn
    simp only [List.map_cons, List.map_nil, List.mem_singleton] at hm
    exact absurd hm (Nat.ne_of_lt (h.fresh row hrow))
  sorted := h.sorted
  above r hr := by
    refine List.forall_mem_append.mpr ⟨h.above r hr, fun q hq _ => ?_⟩
    rw [List.mem_singleton.mp hq]
    exact h.used r hr
  events := h.events

private theorem Numbered.commit (h : s.Numbered) {row : Row} (hrow : row ∈ s.running)
    (holdest : ∀ q ∈ s.running, q.event.clusterID = row.event.clusterID → row.id ≤ q.id)
    (brokers : List Broker) :
    Numbered { s with
      running := s.running.filter (·.id != row.id)
      rows := s.rows ++ [row]
      brokers := brokers
      emitted := s.emitted ++ [row.event] } where
  fresh q hq := h.fresh q (List.mem_filter.mp hq).1
  used := by
    refine List.forall_mem_append.mpr ⟨h.used, fun q hq => ?_⟩
    rw [List.mem_singleton.mp hq]
    exact h.fresh row hrow
  distinct := (List.filter_sublist.map _).nodup h.distinct
  sorted := by
    refine List.pairwise_append.mpr ⟨h.sorted, List.pairwise_singleton _ _, fun r hr q hq => ?_⟩
    rw [List.mem_singleton.mp hq]
    exact h.above r hr row hrow
  above := by
    refine List.forall_mem_append.mpr ⟨fun r hr q hq => ?_, fun r hr q hq hcluster => ?_⟩
    · exact h.above r hr q (List.mem_filter.mp hq).1
    · obtain ⟨hq, hne⟩ := List.mem_filter.mp hq
      rw [List.mem_singleton.mp hr] at hcluster ⊢
      exact lt_of_le_of_ne (holdest q hq hcluster.symm) (Ne.symm (by simpa using hne))
  events := by rw [List.map_append, h.events, List.map_singleton]

/-- The table is numbered, and every broker is sound. -/
structure Sound (s : Relay) : Prop where
  numbered : s.Numbered
  brokers : ∀ b ∈ s.brokers, b.Sound s.emittedOf

private theorem Sound.onBroker (h : s.Sound) {n : ℕ} {f : Broker → Broker}
    (hf : ∀ b, s.brokers[n]? = some b → b.Sound s.emittedOf → (f b).Sound s.emittedOf) :
    (s.onBroker n f).Sound := by
  refine ⟨⟨h.numbered.fresh, h.numbered.used, h.numbered.distinct, h.numbered.sorted,
    h.numbered.above, h.numbered.events⟩, fun b hb => ?_⟩
  rcases Keyed.mem_modify hb with hb | ⟨b', hb', rfl⟩
  · exact h.brokers b hb
  · exact hf b' hb' (h.brokers b' (List.mem_of_getElem? hb'))

private theorem Sound.step (h : s.Sound) {i : RelayInput} (hi : Orderly D s i) :
    (s.step D i).Sound := by
  cases i with
  | emit now e =>
    have haccepts : D.accepts (e.stamp now) = true := hi
    rw [Relay.step, if_pos haccepts]
    exact ⟨h.numbered.emit _, h.brokers⟩
  | commit id =>
    unfold Relay.step
    dsimp only
    split
    · exact h
    · rename_i row hfind
      have hrow := List.mem_of_find?_eq_some hfind
      have hid : row.id = id := beq_iff_eq.mp (List.find?_some hfind :)
      subst hid
      refine ⟨h.numbered.commit hrow (hi row hrow rfl) _, fun b hb => ?_⟩
      obtain ⟨b', hb', rfl⟩ := List.mem_map.mp hb
      have hlog : (fun c => s.emittedOf c ++ eventsOf c [row.event]) =
          fun c => eventsOf c (s.emitted ++ [row.event]) :=
        funext fun c => (eventsOf_append c _ _).symm
      have hsound := (h.brokers b' hb').notify row.event
      rw [hlog] at hsound
      exact hsound
  | listen b => exact h.onBroker fun _ _ hb => hb.listen
  | hear b => exact h.onBroker fun _ _ hb => hb.hear
  | subscribe b c =>
    refine h.onBroker fun broker hbroker hb => hb.subscribe ?_ (hi broker hbroker)
    rw [h.numbered.replay, List.map_map]
    exact List.map_congr_left fun e _ => e.stored_stored
  | register b => exact h.onBroker fun _ _ hb => hb.register
  | receive b id => exact h.onBroker fun _ _ hb => hb.receive id
  | cancel b id => exact h.onBroker fun broker hbroker hb => hb.cancel id (hi broker hbroker)

private theorem Sound.initial (n : ℕ) : (initial n).Sound := by
  refine ⟨⟨by simp [Relay.initial], by simp [Relay.initial], by simp [Relay.initial],
    List.Pairwise.nil, by simp [Relay.initial], rfl⟩, fun b hb => ?_⟩
  rw [List.eq_of_mem_replicate hb]
  exact ⟨fun x hx => absurd hx List.not_mem_nil, by simp, by simp⟩

end Relay

/-! ### Exactly once -/

/-- **Every event exactly once and in order.** A stream that never has more than 64 events waiting
shows what was emitted for its cluster, to the end or to where it was closed: always in one
process, and over a database if the steps of the run are orderly, with what its broker has yet to
hear still on its way. -/
theorem shows_exactly_once (D : Database) (n : ℕ) (ms : List MemoryInput) (is : List RelayInput) :
    (∀ x ∈ (TransitionSystem.run Memory.step {} ms).subs, x.peak ≤ channelCapacity →
      x.Shows id [] ((TransitionSystem.run Memory.step {} ms).historyOf x.clusterID)) ∧
    (TransitionSystem.Along (Relay.step D) (Relay.Orderly D) (Relay.initial n) is →
      ∀ b ∈ (TransitionSystem.run (Relay.step D) (Relay.initial n) is).brokers, ∀ x ∈ b.subs,
        x.peak ≤ channelCapacity → x.Shows Event.stored (eventsOf x.clusterID b.queue)
          ((TransitionSystem.run (Relay.step D) (Relay.initial n) is).emittedOf x.clusterID)) := by
  refine ⟨Memory.allShow_run ms, fun his b hb => ?_⟩
  have hsound := TransitionSystem.run_invariant (I := Relay.Sound)
    (fun _ _ hs hi => hs.step hi) (Relay.Sound.initial n) his
  exact (hsound.brokers b hb).subs

def demoDatabase : Database where
  rfc3339 _ := "2026-01-01T00:00:00Z"
  clusters := ["c-1"]

def demoEvent (ts : Time) (message : String) : Event :=
  { clusterID := "c-1", ts := ts, level := "info", source := "reconciler", message := message }

/-- A stream is opened after one event and shows the next. -/
def demoStream : List RelayInput :=
  [.listen 1, .emit 5000 (demoEvent 0 "one"), .commit 1, .hear 1, .subscribe 1 "c-1", .register 1,
    .emit 7300 (demoEvent 0 "two"), .commit 2, .hear 1, .receive 1 0, .cancel 1 0]

theorem shows_exactly_once_demoStream :
    ∀ b ∈ (TransitionSystem.run (Relay.step demoDatabase) (Relay.initial 2) demoStream).brokers,
      ∀ x ∈ b.subs, x.Shows Event.stored [] [demoEvent 5000 "one", demoEvent 7300 "two"] := by
  have horderly : TransitionSystem.Along (Relay.step demoDatabase) (Relay.Orderly demoDatabase)
      (Relay.initial 2) demoStream := by decide +kernel
  intro b hb x hx
  have hrun : ∀ b ∈ (TransitionSystem.run (Relay.step demoDatabase) (Relay.initial 2)
      demoStream).brokers, b.queue = [] ∧ ∀ x ∈ b.subs, x.peak ≤ channelCapacity ∧
        (TransitionSystem.run (Relay.step demoDatabase) (Relay.initial 2) demoStream).emittedOf
          x.clusterID = [demoEvent 5000 "one", demoEvent 7300 "two"] := by decide +kernel
  obtain ⟨hqueue, hsubs⟩ := hrun b hb
  have hshows := (shows_exactly_once demoDatabase 2 [] demoStream).2 horderly b hb x hx
    (hsubs x hx).1
  rw [hqueue, (hsubs x hx).2] at hshows
  exact hshows

/-- **An event twice**: it was committed before the stream read the table, and the broker had not
heard of it. -/
theorem event_twice :
    (TransitionSystem.run (Relay.step demoDatabase) (Relay.initial 2)
      [.listen 1, .emit 5000 (demoEvent 0 "one"), .commit 1, .subscribe 1 "c-1", .register 1,
        .hear 1]).brokers.map (fun b => b.subs.map fun x => (x.seen, x.peak)) =
      [[], [([demoEvent 5000 "one", demoEvent 5000 "one"], 1)]] ∧
    (TransitionSystem.run (Relay.step demoDatabase) (Relay.initial 2)
      [.listen 1, .emit 5000 (demoEvent 0 "one"), .commit 1, .subscribe 1 "c-1", .register 1,
        .hear 1]).emitted = [demoEvent 5000 "one"] := by
  decide +kernel

end Timeline

end KaaS
