import Mathlib.Data.List.AList
import Mathlib.Data.Finset.Card
import Mathlib.Data.List.Sort
import Mathlib.Data.Prod.Lex
import KaaS.Library.Distinct
import KaaS.Library.Text

/-!
# A page of audit events

The audit tab shows what the API servers of a cluster logged. Each of them is read, so that the
events come in any order and some of them several times; `assemble` makes a page of them. It sorts
the newest first, passes over an event whose audit ID was seen, **then** asks whether the query
matches, and cuts what is left at the limit.

A page is therefore one of the **set** of events that were read, as long as no two of them share
both timestamp and audit ID; and it is the first part of what the query matches among the newest of
each audit ID (`page_of_events`).

How texts are compared without regard to case is left open (`Folding`).
-/

namespace KaaS.Audit

open Distinct OrderDual Text

/-! ### Events and queries -/

structure Resource where
  apiGroup : String := ""
  type : String := ""
  subresource : String := ""
  namespaceName : String := ""
  name : String := ""
  deriving DecidableEq

structure Event where
  auditID : String
  timestamp : String
  stage : String := ""
  level : String := ""
  verb : String := ""
  user : String := ""
  groups : List String := []
  sourceIPs : List String := []
  userAgent : String := ""
  resource : Resource := {}
  requestURI : String := ""
  responseCode : ℤ := 0
  deriving DecidableEq

def Event.denied (e : Event) : Bool := e.responseCode ≥ 400

structure Query where
  limit : ℤ := 0
  verb : String := ""
  namespaceName : String := ""
  user : String := ""
  resource : String := ""
  search : String := ""

def defaultLimit : ℤ := 200

def maxLimit : ℤ := 1000

def Query.normalized (q : Query) : Query :=
  let q := if q.limit ≤ 0 then { q with limit := defaultLimit } else q
  if q.limit > maxLimit then { q with limit := maxLimit } else q

structure Folding where
  toLower : String → String
  equalFold : String → String → Bool

def Folding.containsFold (F : Folding) (haystack needle : String) : Bool :=
  contains (F.toLower haystack) (F.toLower needle)

def Query.matches (F : Folding) (q : Query) (e : Event) : Bool :=
  if q.verb ≠ "" ∧ !F.equalFold e.verb q.verb then false
  else if q.namespaceName ≠ "" ∧ !F.equalFold e.resource.namespaceName q.namespaceName then false
  else if q.user ≠ "" ∧ !F.containsFold e.user q.user then false
  else if q.resource ≠ "" ∧ !F.containsFold e.resource.type q.resource then false
  else q.search == "" || [e.user, e.verb, e.resource.type, e.resource.name,
    e.resource.namespaceName, e.requestURI].any (F.containsFold · q.search)

/-! ### The statistics -/

structure VerbCount where
  verb : String
  count : ℕ
  deriving DecidableEq

structure Stats where
  total : ℕ
  denied : ℕ
  users : ℕ
  namespaces : ℕ
  byVerb : List VerbCount
  deriving DecidableEq

structure Tally where
  users : Finset String := ∅
  namespaces : Finset String := ∅
  denied : ℕ := 0
  verbs : AList (fun _ : String => ℕ) := ∅

def Tally.add (t : Tally) (e : Event) : Tally where
  users := if e.user ≠ "" then insert e.user t.users else t.users
  namespaces := if e.resource.namespaceName ≠ "" then insert e.resource.namespaceName t.namespaces
    else t.namespaces
  denied := if e.denied then t.denied + 1 else t.denied
  verbs := if e.verb ≠ "" then t.verbs.insert e.verb ((t.verbs.lookup e.verb).getD 0 + 1)
    else t.verbs

/-- The most frequent first, then by name. -/
def VerbCount.le (a b : VerbCount) : Prop :=
  toLex (toDual a.count, a.verb) ≤ toLex (toDual b.count, b.verb)

instance (a b : VerbCount) : Decidable (a.le b) := inferInstanceAs (Decidable (toLex _ ≤ toLex _))

def statsOf (events : List Event) : Stats :=
  let t := events.foldl Tally.add {}
  { total := events.length
    denied := t.denied
    users := t.users.card
    namespaces := t.namespaces.card
    byVerb := (t.verbs.entries.map fun v => ⟨v.1, v.2⟩).insertionSort VerbCount.le }

/-! ### The page -/

structure Page where
  events : List Event
  stats : Stats
  generatedAt : String
  truncated : Bool

/-- Newest first, and by audit ID at one time. -/
def Event.le (a b : Event) : Prop :=
  toLex (b.timestamp, b.auditID) ≤ toLex (a.timestamp, a.auditID)

instance (a b : Event) : Decidable (a.le b) := inferInstanceAs (Decidable (toLex _ ≤ toLex _))

structure Gathered where
  seen : List String := []
  matched : List Event := []

def Gathered.add (F : Folding) (q : Query) (s : Gathered) (e : Event) : Gathered :=
  if e.auditID ≠ "" ∧ e.auditID ∈ s.seen then s
  else
    { seen := if e.auditID ≠ "" then e.auditID :: s.seen else s.seen
      matched := if q.matches F e then s.matched ++ [e] else s.matched }

def assemble (F : Folding) (now : String) (events : List Event) (q : Query) : Page :=
  let q := q.normalized
  let s := (events.insertionSort Event.le).foldl (Gathered.add F q) {}
  let limit := q.limit.toNat
  let truncated := decide (s.matched.length > limit)
  let matched := if truncated then s.matched.take limit else s.matched
  { events := matched, stats := statsOf matched, generatedAt := now, truncated }

/-! ### What a page is to be -/

/-- **The newest of each audit ID**, and all events without one, in descending order of time. -/
structure Newest (events kept : List Event) : Prop where
  order : kept.Pairwise fun a b => b.timestamp ≤ a.timestamp
  anonymous : (kept.filter (·.auditID = "")).Perm (events.filter (·.auditID = ""))
  once : ((kept.map (·.auditID)).filter (· ≠ "")).Nodup
  greatest : ∀ e ∈ kept, e.auditID ≠ "" → e ∈ events ∧
    ∀ e' ∈ events, e'.auditID = e.auditID → e'.timestamp ≤ e.timestamp
  every : ∀ e ∈ events, e.auditID ≠ "" → ∃ e' ∈ kept, e'.auditID = e.auditID

structure Counts (events : List Event) (st : Stats) : Prop where
  total : st.total = events.length
  denied : st.denied = events.countP (·.denied)
  users : st.users = ((events.map (·.user)).toFinset.erase "").card
  namespaces : st.namespaces = ((events.map (·.resource.namespaceName)).toFinset.erase "").card
  verbs : ∀ v n, ⟨v, n⟩ ∈ st.byVerb ↔ v ≠ "" ∧ 0 < n ∧ n = (events.map (·.verb)).count v
  once : (st.byVerb.map (·.verb)).Nodup
  order : st.byVerb.Pairwise VerbCount.le

/-! ### Counting -/

variable {F : Folding} {q : Query} {events : List Event}

/-- What the walk has counted after these events. -/
private structure Counted (events : List Event) (t : Tally) : Prop where
  users : t.users = (events.map (·.user)).toFinset.erase ""
  namespaces : t.namespaces = (events.map (·.resource.namespaceName)).toFinset.erase ""
  denied : t.denied = events.countP (·.denied)
  verbs : ∀ v, t.verbs.lookup v =
    let n := (events.map (·.verb)).count v
    if v ≠ "" ∧ 0 < n then some n else none

private theorem insert_nonblank (f : Event → String) (events : List Event) (e : Event) :
    (if f e ≠ "" then insert (f e) ((events.map f).toFinset.erase "")
      else (events.map f).toFinset.erase "") = ((events ++ [e]).map f).toFinset.erase "" := by
  have hlast : ((events ++ [e]).map f).toFinset = insert (f e) (events.map f).toFinset := by
    ext v
    simp
  rw [hlast]
  split_ifs with hv
  · rw [Finset.erase_insert_of_ne hv]
  · rw [not_ne_iff.mp hv, Finset.erase_insert_eq_erase]

private theorem Counted.add {t : Tally} (h : Counted events t) (e : Event) :
    Counted (events ++ [e]) (t.add e) where
  users := by rw [Tally.add, h.users, insert_nonblank]
  namespaces := by rw [Tally.add, h.namespaces, insert_nonblank fun e => e.resource.namespaceName]
  denied := by
    rw [Tally.add, h.denied, List.countP_append, List.countP_singleton]
    split_ifs <;> rfl
  verbs v := by
    have hcount : ((events ++ [e]).map (·.verb)).count v =
        (events.map (·.verb)).count v + if e.verb = v then 1 else 0 := by
      simp [List.count_singleton]
    rw [Tally.add, hcount]
    by_cases hv : e.verb = v
    · subst hv
      by_cases hblank : e.verb = ""
      · simp [hblank, h.verbs]
      · by_cases hseen : 0 < (events.map (·.verb)).count e.verb
        · simp [hblank, h.verbs, hseen]
        · simp [hblank, h.verbs, Nat.eq_zero_of_not_pos hseen]
    · have hkeep : (if e.verb ≠ "" then t.verbs.insert e.verb ((t.verbs.lookup e.verb).getD 0 + 1)
          else t.verbs).lookup v = t.verbs.lookup v := by
        split
        · exact AList.lookup_insert_ne (Ne.symm hv)
        · rfl
      rw [hkeep, h.verbs, if_neg hv, Nat.add_zero]

private theorem counted_foldl (events : List Event) :
    Counted events (events.foldl Tally.add {}) := by
  induction events using List.reverseRecOn with
  | nil => exact ⟨rfl, rfl, rfl, fun v => by simp⟩
  | append_singleton events e ih =>
    rw [List.foldl_append, List.foldl_cons, List.foldl_nil]
    exact ih.add e

private instance : Std.Total VerbCount.le := ⟨fun _ _ => le_total (toLex _) (toLex _)⟩

private instance : IsTrans VerbCount VerbCount.le := ⟨fun _ _ _ hab hbc =>
  le_trans (show toLex _ ≤ toLex _ from hab) hbc⟩

theorem counts_statsOf (events : List Event) : Counts events (statsOf events) := by
  have h := counted_foldl events
  have hperm := List.perm_insertionSort VerbCount.le
    ((events.foldl Tally.add {}).verbs.entries.map fun v => (⟨v.1, v.2⟩ : VerbCount))
  refine ⟨rfl, h.denied, congrArg Finset.card h.users, congrArg Finset.card h.namespaces,
    fun v n => ?_, ?_, List.pairwise_insertionSort _ _⟩
  · have hentry : ⟨v, n⟩ ∈ (statsOf events).byVerb ↔
        (events.foldl Tally.add {}).verbs.lookup v = some n := by
      rw [statsOf, hperm.mem_iff, List.mem_map, ← Option.mem_def, AList.mem_lookup_iff]
      constructor
      · rintro ⟨⟨v', n'⟩, hmem, heq⟩
        obtain ⟨rfl, rfl⟩ := VerbCount.mk.inj heq
        exact hmem
      · exact fun hmem => ⟨_, hmem, rfl⟩
    rw [hentry, h.verbs]
    constructor
    · intro hsome
      dsimp only at hsome
      split_ifs at hsome with hv
      exact Option.some.inj hsome ▸ ⟨hv.1, hv.2, rfl⟩
    · rintro ⟨hv, hpos, rfl⟩
      exact if_pos ⟨hv, hpos⟩
  · rw [statsOf, (hperm.map _).nodup_iff, List.map_map]
    exact (events.foldl Tally.add {}).verbs.nodupKeys

/-! ### Keeping the newest -/

/-- The key under which an event is kept once. -/
def Event.key (e : Event) : Option String := if e.auditID = "" then none else some e.auditID

private theorem key_of_eq {e : Event} (h : e.auditID = "") : e.key = none := if_pos h

private theorem key_of_ne {e : Event} (h : e.auditID ≠ "") : e.key = some e.auditID := if_neg h

private theorem isNone_key (e : Event) : e.key.isNone = decide (e.auditID = "") := by
  unfold Event.key
  split_ifs with h <;> simp [h]

private theorem auditIDs_eq (l : List Event) :
    (l.map (·.auditID)).filter (· ≠ "") = l.filterMap Event.key := by
  induction l with
  | nil => rfl
  | cons e l ih =>
    by_cases hblank : e.auditID = ""
    · rw [List.filterMap_cons_none (key_of_eq hblank), ← ih]
      simp [hblank]
    · rw [List.filterMap_cons_some (key_of_ne hblank), ← ih]
      simp [hblank]

private theorem matched_foldl (l : List Event) (s : Gathered) :
    (l.foldl (Gathered.add F q) s).matched =
      s.matched ++ (keepFirst Event.key s.seen l).filter (q.matches F) := by
  have hnext (s : Gathered) (e : Event) (kept : List Event) :
      (if q.matches F e then s.matched ++ [e] else s.matched) ++ kept.filter (q.matches F) =
        s.matched ++ (e :: kept).filter (q.matches F) := by
    rw [List.filter_cons]
    split_ifs <;> simp
  induction l generalizing s with
  | nil => simp [keepFirst]
  | cons e l ih =>
    rw [List.foldl_cons, ih]
    by_cases hblank : e.auditID = ""
    · rw [keepFirst_cons_of_none (key_of_eq hblank), ← hnext]
      simp [Gathered.add, hblank]
    by_cases hseen : e.auditID ∈ s.seen
    · rw [keepFirst_cons_of_seen (key_of_ne hblank) hseen, Gathered.add, if_pos ⟨hblank, hseen⟩]
    · rw [keepFirst_cons_of_new (key_of_ne hblank) hseen, ← hnext]
      simp [Gathered.add, hblank, hseen]

/-- The events among which the query is asked. -/
def newestOf (events : List Event) : List Event :=
  keepFirst Event.key [] (events.insertionSort Event.le)

theorem matches_normalized (q : Query) : q.normalized.matches F = q.matches F := by
  unfold Query.normalized
  dsimp only
  split_ifs <;> rfl

theorem assemble_eq (F : Folding) (now : String) (events : List Event) (q : Query) :
    assemble F now events q =
      let matched := (newestOf events).filter (q.matches F)
      let limit := q.normalized.limit.toNat
      ⟨matched.take limit, statsOf (matched.take limit), now, limit < matched.length⟩ := by
  have hcut (l : List Event) (n : ℕ) :
      (if decide (l.length > n) then l.take n else l) = l.take n := by
    split_ifs with h
    · rfl
    · exact (List.take_of_length_le (by simpa using h)).symm
  simp only [assemble, matched_foldl, hcut, matches_normalized, List.nil_append]
  rfl

private instance : Std.Total Event.le := ⟨fun _ _ => le_total (toLex _) (toLex _)⟩

private instance : IsTrans Event Event.le := ⟨fun _ _ _ hab hbc =>
  le_trans (show toLex _ ≤ toLex _ from hbc) hab⟩

private theorem Event.le.timestamp_le {a b : Event} (h : a.le b) : b.timestamp ≤ a.timestamp :=
  Prod.Lex.monotone_fst _ _ h

theorem newest_newestOf (events : List Event) : Newest events (newestOf events) := by
  have hsorted := List.pairwise_insertionSort Event.le events
  have hperm := List.perm_insertionSort Event.le events
  refine ⟨?_, ?_, ?_, fun e he hid => ?_, fun e he hid => ?_⟩
  · exact (hsorted.sublist (keepFirst_sublist _ _)).imp Event.le.timestamp_le
  · simp only [← isNone_key, newestOf, filter_keepFirst]
    exact hperm.filter _
  · rw [auditIDs_eq]
    exact nodup_keepFirst _ _
  · have hmem := hperm.mem_iff.mp (mem_of_mem_keepFirst he)
    refine ⟨hmem, fun e' he' hsame => ?_⟩
    rcases eq_or_rel_of_mem_keepFirst hsorted he (key_of_ne hid) (hperm.mem_iff.mpr he')
      (hsame ▸ key_of_ne (hsame ▸ hid)) with rfl | hle
    · exact le_rfl
    · exact hle.timestamp_le
  · obtain ⟨e', he', hkey⟩ :=
      exists_mem_keepFirst (hperm.mem_iff.mpr he) (key_of_ne hid) List.not_mem_nil
    refine ⟨e', he', ?_⟩
    unfold Event.key at hkey
    split_ifs at hkey
    exact Option.some.inj hkey

/-- **The order and the copies do not matter**: what is kept is the same. -/
theorem newestOf_eq {extra events' : List Event}
    (hkeys : ∀ a ∈ events, ∀ b ∈ events, a.timestamp = b.timestamp → a.auditID = b.auditID → a = b)
    (hextra : ∀ e ∈ extra, e ∈ events ∧ e.auditID ≠ "") (hperm : events'.Perm (extra ++ events)) :
    newestOf events' = newestOf events := by
  have hsort' := List.perm_insertionSort Event.le events'
  have hsort := List.perm_insertionSort Event.le events
  have hmem (e : Event) : e ∈ events' ↔ e ∈ events := by
    rw [hperm.mem_iff, List.mem_append]
    exact ⟨fun h => h.elim (fun he => (hextra e he).1) id, .inr⟩
  refine keepFirst_eq_of_sorted (List.pairwise_insertionSort _ _) (List.pairwise_insertionSort _ _)
    (fun a ha b hb hab hba => ?_) (fun e => ?_) ?_
  · have hsame := Prod.ext_iff.mp (toLex.injective (le_antisymm hba hab))
    exact hkeys a ((hmem a).mp (hsort'.mem_iff.mp ha)) b ((hmem b).mp (hsort'.mem_iff.mp hb))
      hsame.1 hsame.2
  · rw [hsort'.mem_iff, hsort.mem_iff, hmem]
  · have hcopies : (extra ++ events).filter (fun e => e.key.isNone) =
        events.filter fun e => e.key.isNone := by
      rw [List.filter_append, List.filter_eq_nil_iff.mpr, List.nil_append]
      intro e he
      rw [isNone_key]
      simpa using (hextra e he).2
    exact ((hsort'.filter _).trans (hcopies ▸ hperm.filter _)).trans (hsort.filter _).symm

/-- **A page**: the same for every order of the events and with further copies of those that have an
audit ID; the first of what the query matches among the newest of each audit ID. -/
theorem page_of_events (F : Folding) (events : List Event) (q : Query)
    (hkeys : ∀ a ∈ events, ∀ b ∈ events,
      a.timestamp = b.timestamp → a.auditID = b.auditID → a = b) :
    (∀ (extra events' : List Event) (now now' : String),
      (∀ e ∈ extra, e ∈ events ∧ e.auditID ≠ "") → events'.Perm (extra ++ events) →
        { assemble F now' events' q with generatedAt := now } = assemble F now events q) ∧
    ∃ kept, Newest events kept ∧ ∀ now, let page := assemble F now events q
      let matched := kept.filter (q.matches F)
      let limit := q.normalized.limit.toNat
      page.events = matched.take limit ∧ (page.truncated = true ↔ limit < matched.length) ∧
        Counts page.events page.stats := by
  refine ⟨fun extra events' now now' hextra hperm => ?_, newestOf events, newest_newestOf events,
    fun now => ?_⟩
  · rw [assemble_eq, assemble_eq, newestOf_eq hkeys hextra hperm]
  · rw [assemble_eq]
    exact ⟨rfl, decide_eq_true_iff, counts_statsOf _⟩

/-- A deletion as two API servers logged it, and a probe without an audit ID. -/
def polled : List Event :=
  [{ auditID := "7f", timestamp := "2026-03-01T10:00:00Z", verb := "delete", user := "alice",
      stage := "RequestReceived" },
    { auditID := "7f", timestamp := "2026-03-01T10:00:01Z", verb := "delete", user := "alice",
      stage := "ResponseComplete", responseCode := 403 },
    { auditID := "", timestamp := "2026-03-01T09:59:00Z", verb := "get", user := "probe" }]

theorem page_of_events_polled :
    { assemble ⟨id, (· == ·)⟩ "10:02" (polled.take 2 ++ polled.reverse) {} with
      generatedAt := "10:01" } = assemble ⟨id, (· == ·)⟩ "10:01" polled {} :=
  (page_of_events _ polled {} (by decide)).1 (polled.take 2) _ _ _ (by decide) (by decide)

end KaaS.Audit
