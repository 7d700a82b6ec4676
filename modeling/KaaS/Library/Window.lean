import Mathlib.Data.List.Basic
import Mathlib.Data.List.TakeWhile

/-!
# Counting in fixed windows

A limiter keeps a **counter**: how many attempts were rejected since its window started. An attempt
passes while the counter is below a maximum or its window is over, it is then answered, and a
rejection is counted in a step of its own, which also starts a new window if the last one is over.
An accepted attempt clears the counter.

Between passing and being counted an attempt is unknown to the counter. `Step` is the limiter for
attempts that come **one at a time**: the next one passes only when the last one is through. Then no
window that an accepted attempt does not fall into has more than the maximum of rejections in it
(`Inv.rejections_le`).
-/

namespace RateLimit

/-! ### Counters -/

structure Counter where
  failures : Int
  start : Int
  deriving DecidableEq

def Counter.expired (window now : Int) (c : Counter) : Prop := window < now - c.start

instance (window now : Int) (c : Counter) : Decidable (c.expired window now) :=
  inferInstanceAs (Decidable (window < now - c.start))

/-- An attempt passes the check. Where there is no counter, nothing was rejected lately. -/
def passes (max window now : Int) : Option Counter → Bool
  | none => true
  | some c => decide (c.failures < max) || decide (c.expired window now)

def record (window now : Int) : Option Counter → Counter
  | none => ⟨1, now⟩
  | some c => if c.expired window now then ⟨1, now⟩ else { c with failures := c.failures + 1 }

/-! ### One attempt at a time -/

structure Answer where
  time : Int
  accepted : Bool

/-- How far the attempt in progress has come. -/
inductive Stage
  | idle | passed | rejected | accepted
  deriving DecidableEq

/-- A limiter with the answers so far, latest first, and the windows that were started. -/
@[ext]
structure Limiter where
  now : Int
  counter : Option Counter := none
  stage : Stage := .idle
  answers : List Answer := []
  starts : List Int := []

/-- **One step** of a limiter. -/
inductive Step (max window : Int) (l : Limiter) : Limiter → Prop
  | wait {t : Int} (h : l.now ≤ t) : Step max window l { l with now := t }
  | pass (hidle : l.stage = .idle) (h : passes max window l.now l.counter = true) :
      Step max window l { l with stage := .passed }
  | reject (h : l.stage = .passed) :
      Step max window l
        { l with stage := .rejected, answers := ⟨l.now, false⟩ :: l.answers }
  | accept (h : l.stage = .passed) :
      Step max window l
        { l with stage := .accepted, answers := ⟨l.now, true⟩ :: l.answers }
  | record (h : l.stage = .rejected) :
      Step max window l
        { l with
          stage := .idle
          counter := some (record window l.now l.counter)
          starts := (record window l.now l.counter).start :: l.starts }
  | clear (h : l.stage = .accepted) : Step max window l { l with stage := .idle, counter := none }
  | leave (h : l.stage ≠ .rejected) : Step max window l { l with stage := .idle }
  | prune {c : Counter} (hc : l.counter = some c) (h : c.expired window l.now) :
      Step max window l { l with counter := none }

/-- The answer falls into the window that started at `start`. -/
def Answer.within (window start : Int) (a : Answer) : Prop :=
  start ≤ a.time ∧ a.time ≤ start + window

instance (window start : Int) (a : Answer) : Decidable (a.within window start) :=
  inferInstanceAs (Decidable (_ ∧ _))

def rejections (window start : Int) (answers : List Answer) : List Answer :=
  answers.filter fun a => !a.accepted && decide (a.within window start)

/-! ### The invariant -/

section Invariant

variable {max window : Int} {l l' : Limiter}

/-- The rejections since the last accepted attempt. -/
def recent (answers : List Answer) : List Answer := answers.takeWhile fun a => !a.accepted

/-- Those of them that were counted. -/
def Limiter.settled (l : Limiter) : List Answer :=
  if l.stage = .rejected then (recent l.answers).tail else recent l.answers

/-- What is known of a window that was started. -/
inductive Accounted (max window : Int) (l : Limiter) (start : Int) : Prop
  /-- It is the window of the counter, and nothing was accepted since. -/
  | current {c : Counter} (hc : l.counter = some c) (hstart : c.start = start)
      (h : ∀ a ∈ l.answers, a.accepted = true → a.time < start)
  /-- It is over. -/
  | ended (hover : start + window < l.now) (h : (rejections window start l.answers).length ≤ max)
  /-- An attempt was accepted in it. -/
  | broken {a : Answer} (ha : a ∈ l.answers) (haccepted : a.accepted = true)
      (h : a.within window start)

structure Inv (max window : Int) (l : Limiter) : Prop where
  sorted : l.answers.Pairwise fun a b => b.time ≤ a.time
  past : ∀ a ∈ l.answers, a.time ≤ l.now
  begun : ∀ c, l.counter = some c → c.start ≤ l.now
  pending : l.stage = .rejected → ∃ t rest, l.answers = ⟨t, false⟩ :: rest ∧
    ∀ c, l.counter = some c → t ≤ c.start + window → c.failures < max
  clearing : l.stage = .accepted → ∃ t rest, l.answers = ⟨t, true⟩ :: rest ∧
    ∀ c, l.counter = some c → c.start ≤ t
  cap : ∀ c, l.counter = some c → c.failures ≤ max
  free : l.stage = .passed → ∀ c, l.counter = some c → c.failures < max ∨ c.expired window l.now
  counted : ∀ c, l.counter = some c →
    ((l.settled.filter fun a => decide (c.start ≤ a.time)).length : Int) ≤ c.failures
  early : ∀ a ∈ l.settled, match l.counter with
    | none => a.time < l.now
    | some c => a.time ≤ c.start + window
  windows : ∀ start ∈ l.starts, Accounted max window l start

private theorem recent_cons_accepted (t : Int) (rest : List Answer) :
    recent (⟨t, true⟩ :: rest) = [] := rfl

private theorem recent_cons_rejected (t : Int) (rest : List Answer) :
    recent (⟨t, false⟩ :: rest) = ⟨t, false⟩ :: recent rest := rfl

/-- What was accepted before a window started bounds what can fall into it. -/
private theorem rejections_eq_recent {start : Int} {answers : List Answer}
    (hsorted : answers.Pairwise fun a b => b.time ≤ a.time)
    (h : ∀ a ∈ answers, a.accepted = true → a.time < start) :
    rejections window start answers =
      (recent answers).filter fun a => decide (a.within window start) := by
  induction answers with
  | nil => rfl
  | cons a rest ih =>
    obtain ⟨hle, hrest⟩ := List.pairwise_cons.mp hsorted
    obtain ⟨t, _ | _⟩ := a
    · have ih := ih hrest fun b hb => h b (List.mem_cons_of_mem _ hb)
      rw [recent_cons_rejected, List.filter_cons, ← ih, rejections, List.filter_cons]
      rfl
    · have ht : t < start := h _ List.mem_cons_self rfl
      -- the others were answered no later
      rw [recent_cons_accepted, List.filter_nil, rejections, List.filter_eq_nil_iff]
      intro b hb
      have hbt : b.time ≤ t := by
        rcases List.mem_cons.mp hb with rfl | hb
        · exact Int.le_refl t
        · exact hle b hb
      have hout : ¬b.within window start := fun hin => absurd hin.1 (by omega)
      simp [hout]

private theorem Inv.current_le (h : Inv max window l) {c : Counter} (hc : l.counter = some c)
    (hbefore : ∀ a ∈ l.answers, a.accepted = true → a.time < c.start) :
    (rejections window c.start l.answers).length ≤ max := by
  have hcounted := h.counted c hc
  have hcap := h.cap c hc
  have hfilter : ∀ as : List Answer,
      (as.filter fun a => decide (a.within window c.start)).length ≤
        (as.filter fun a => decide (c.start ≤ a.time)).length := by
    intro as
    refine (List.monotone_filter_right as fun a ha => ?_).length_le
    exact decide_eq_true (of_decide_eq_true ha).1
  rw [rejections_eq_recent h.sorted hbefore]
  by_cases hstage : l.stage = .rejected
  · obtain ⟨t, rest, hanswers, hlast⟩ := h.pending hstage
    have hlast := hlast c hc
    rw [Limiter.settled, if_pos hstage, hanswers, recent_cons_rejected, List.tail_cons] at hcounted
    have hrest := hfilter (recent rest)
    rw [hanswers, recent_cons_rejected, List.filter_cons]
    -- the rejection that is still to be counted
    split
    · rename_i hin
      have hlast := hlast (of_decide_eq_true hin).2
      rw [List.length_cons]
      omega
    · omega
  · rw [Limiter.settled, if_neg hstage] at hcounted
    have hrest := hfilter (recent l.answers)
    omega

private theorem Inv.accounted_of_expired (h : Inv max window l) {start : Int} {c : Counter}
    (hc : l.counter = some c) (hexpired : c.expired window l.now)
    (hacc : Accounted max window l start) (counter : Option Counter) (stage : Stage)
    (starts : List Int) : Accounted max window { l with counter, stage, starts } start := by
  cases hacc with
  | @current d hd hstart hbefore =>
    obtain rfl : c = d := Option.some.inj (hc.symm.trans hd)
    subst hstart
    refine .ended ?_ (h.current_le hc hbefore)
    have hover : window < l.now - c.start := hexpired
    exact (by omega : c.start + window < l.now)
  | ended hover hle => exact .ended hover hle
  | broken ha haccepted hin => exact .broken ha haccepted hin

private theorem Accounted.later {start : Int} (h : Accounted max window l start)
    (hcounter : l'.counter = l.counter) (hanswers : l'.answers = l.answers)
    (hnow : l.now ≤ l'.now) : Accounted max window l' start := by
  cases h with
  | current hc hstart hbefore =>
    exact .current (hcounter.trans hc) hstart (hanswers ▸ hbefore)
  | ended hover hle => exact .ended (Int.lt_of_lt_of_le hover hnow) (hanswers ▸ hle)
  | broken ha haccepted hin => exact .broken (hanswers ▸ ha) haccepted hin

private theorem Inv.wait {t : Int} (h : Inv max window l) (ht : l.now ≤ t) :
    Inv max window { l with now := t } := by
  refine { h with
    past := fun a ha => Int.le_trans (h.past a ha) ht
    begun := fun c hc => Int.le_trans (h.begun c hc) ht
    free := fun hstage c hc => ?_
    early := fun a ha => ?_
    windows := fun start hstart => (h.windows start hstart).later rfl rfl ht }
  · refine (h.free hstage c hc).imp_right fun hexpired => ?_
    have hexpired : window < l.now - c.start := hexpired
    exact (by omega : window < t - c.start)
  · have hearly := h.early a ha
    cases hc : l.counter with
    | none =>
      rw [hc] at hearly
      exact Int.lt_of_lt_of_le hearly ht
    | some c =>
      rw [hc] at hearly
      exact hearly

private theorem Inv.at_stage {stage : Stage} (h : Inv max window l) (hold : l.stage ≠ .rejected)
    (hnew : stage ≠ .rejected) (hnew' : stage ≠ .accepted)
    (hfree : stage = .passed → ∀ c, l.counter = some c →
      c.failures < max ∨ c.expired window l.now) :
    Inv max window { l with stage } := by
  have hsettled : Limiter.settled { l with stage } = l.settled := by
    rw [Limiter.settled, Limiter.settled, if_neg hnew, if_neg hold]
  refine { h with
    pending := fun hstage => absurd hstage hnew
    clearing := fun hstage => absurd hstage hnew'
    free := hfree
    counted := fun c hc => ?_
    early := fun a ha => ?_
    windows := fun start hstart => (h.windows start hstart).later rfl rfl (Int.le_refl _) }
  · rw [hsettled]
    exact h.counted c hc
  · rw [hsettled] at ha
    exact h.early a ha

private theorem Inv.reject (h : Inv max window l) (hstage : l.stage = .passed) :
    Inv max window { l with stage := .rejected, answers := ⟨l.now, false⟩ :: l.answers } := by
  have hsettled : Limiter.settled
      { l with stage := .rejected, answers := ⟨l.now, false⟩ :: l.answers } = l.settled := by
    rw [Limiter.settled, Limiter.settled, if_pos rfl, hstage, if_neg (by decide)]
    rfl
  refine { h with
    sorted := List.pairwise_cons.mpr ⟨h.past, h.sorted⟩
    past := List.forall_mem_cons.mpr ⟨Int.le_refl _, h.past⟩
    pending := fun _ => ⟨l.now, l.answers, rfl, fun c hc hin => ?_⟩
    clearing := fun hstage => by cases hstage
    free := fun hstage => by cases hstage
    counted := fun c hc => ?_
    early := fun a ha => ?_
    windows := fun start hstart => ?_ }
  · -- the attempt has passed
    refine (h.free hstage c hc).resolve_right fun hexpired => ?_
    have hexpired : window < l.now - c.start := hexpired
    omega
  · rw [hsettled]
    exact h.counted c hc
  · rw [hsettled] at ha
    exact h.early a ha
  · cases h.windows start hstart with
    | current hc hstart hbefore =>
      refine .current hc hstart fun a ha haccepted => ?_
      rcases List.mem_cons.mp ha with rfl | ha
      · cases haccepted
      · exact hbefore a ha haccepted
    | ended hover hle =>
      have hout : ¬Answer.within window start ⟨l.now, false⟩ := by
        intro hin
        have hin : l.now ≤ start + window := hin.2
        omega
      refine .ended hover ?_
      rw [rejections, List.filter_cons_of_neg (by simp [hout])]
      exact hle
    | broken ha haccepted hin => exact .broken (List.mem_cons_of_mem _ ha) haccepted hin

private theorem Inv.accept (h : Inv max window l) :
    Inv max window { l with stage := .accepted, answers := ⟨l.now, true⟩ :: l.answers } := by
  refine { h with
    sorted := List.pairwise_cons.mpr ⟨h.past, h.sorted⟩
    past := List.forall_mem_cons.mpr ⟨Int.le_refl _, h.past⟩
    pending := fun hstage => by cases hstage
    clearing := fun _ => ⟨l.now, l.answers, rfl, h.begun⟩
    free := fun hstage => by cases hstage
    counted := fun c hc => ?_
    early := fun a ha => by cases ha
    windows := fun start hstart => ?_ }
  · have hcounted := h.counted c hc
    exact (by omega : (0 : Int) ≤ c.failures)
  · cases h.windows start hstart with
    | @current c hc hstart hbefore =>
      subst hstart
      have hbegun := h.begun c hc
      by_cases hin : l.now ≤ c.start + window
      · exact .broken List.mem_cons_self rfl ⟨hbegun, hin⟩
      · exact .ended (Int.not_le.mp hin) (h.current_le hc hbefore)
    | ended hover hle => exact .ended hover hle
    | broken ha haccepted hin => exact .broken (List.mem_cons_of_mem _ ha) haccepted hin

private theorem Inv.drop (h : Inv max window l) (hearly : ∀ a ∈ l.settled, a.time < l.now)
    (hwindows : ∀ start ∈ l.starts, Accounted max window { l with counter := none } start) :
    Inv max window { l with counter := none } := by
  refine { h with
    begun := fun c hc => by cases hc
    pending := fun hstage => ?_
    clearing := fun hstage => ?_
    cap := fun c hc => by cases hc
    free := fun _ c hc => by cases hc
    counted := fun c hc => by cases hc
    early := hearly
    windows := hwindows }
  · obtain ⟨t, rest, hanswers, -⟩ := h.pending hstage
    exact ⟨t, rest, hanswers, fun c hc => by cases hc⟩
  · obtain ⟨t, rest, hanswers, -⟩ := h.clearing hstage
    exact ⟨t, rest, hanswers, fun c hc => by cases hc⟩

private theorem Inv.prune (h : Inv max window l) {c : Counter} (hc : l.counter = some c)
    (hexpired : c.expired window l.now) : Inv max window { l with counter := none } := by
  refine h.drop (fun a ha => ?_) fun start hstart =>
    h.accounted_of_expired hc hexpired (h.windows start hstart) none l.stage l.starts
  have hearly := h.early a ha
  rw [hc] at hearly
  have hearly : a.time ≤ c.start + window := hearly
  have hexpired : window < l.now - c.start := hexpired
  omega

private theorem Inv.clear (h : Inv max window l) (hstage : l.stage = .accepted) :
    Inv max window { l with stage := .idle, counter := none } := by
  obtain ⟨t, rest, hanswers, hbegun⟩ := h.clearing hstage
  have hsettled : l.settled = [] := by
    rw [Limiter.settled, hstage, if_neg (by decide), hanswers, recent_cons_accepted]
  have hdropped : Inv max window { l with counter := none } := by
    refine h.drop (fun a ha => by rw [hsettled] at ha; cases ha) fun start hstart => ?_
    cases h.windows start hstart with
    | @current c hc hstart hbefore =>
      -- the attempt was accepted after the counter's window started
      have hlt := hbefore ⟨t, true⟩ (hanswers ▸ List.mem_cons_self) rfl
      have hle := hbegun c hc
      have hlt : t < start := hlt
      omega
    | ended hover hle => exact .ended hover hle
    | broken ha haccepted hin => exact .broken ha haccepted hin
  refine hdropped.at_stage ?_ (by decide) (by decide) fun hidle => by cases hidle
  exact fun hrejected => by cases hstage.symm.trans hrejected

private theorem Inv.restart (h : Inv max window l) (hwindow : 0 ≤ window) (hmax : 1 ≤ max)
    (hstage : l.stage = .rejected) (hearly : ∀ a ∈ l.settled, a.time < l.now)
    (hwindows : ∀ start ∈ l.starts, Accounted max window
      { l with stage := .idle, counter := some ⟨1, l.now⟩, starts := l.now :: l.starts } start) :
    Inv max window
      { l with stage := .idle, counter := some ⟨1, l.now⟩, starts := l.now :: l.starts } := by
  obtain ⟨t, rest, hanswers, -⟩ := h.pending hstage
  have hold : l.settled = recent rest := by
    rw [Limiter.settled, if_pos hstage, hanswers, recent_cons_rejected, List.tail_cons]
  have hnew : Limiter.settled
      { l with stage := .idle, counter := some ⟨1, l.now⟩, starts := l.now :: l.starts } =
        ⟨t, false⟩ :: l.settled := by
    rw [Limiter.settled, if_neg (by simp), hanswers, recent_cons_rejected, hold]
  refine { h with
    begun := fun c hc => ?_
    pending := fun hstage => by cases hstage
    clearing := fun hstage => by cases hstage
    cap := fun c hc => ?_
    free := fun hstage => by cases hstage
    counted := fun c hc => ?_
    early := fun a ha => ?_
    windows := List.forall_mem_cons.mpr ⟨?_, hwindows⟩ }
  · obtain rfl := Option.some.inj hc
    exact Int.le_refl _
  · obtain rfl := Option.some.inj hc
    exact hmax
  · obtain rfl := Option.some.inj hc
    have hnone : (l.settled.filter fun a => decide (l.now ≤ a.time)) = [] := by
      rw [List.filter_eq_nil_iff]
      intro a ha hle
      have hle := of_decide_eq_true hle
      have hlt := hearly a ha
      omega
    rw [hnew, List.filter_cons, hnone]
    split <;> simp
  · rw [hnew] at ha
    have hpast : a.time ≤ l.now := by
      rcases List.mem_cons.mp ha with rfl | ha
      · exact h.past _ (hanswers ▸ List.mem_cons_self)
      · exact Int.le_of_lt (hearly a ha)
    exact (by omega : a.time ≤ l.now + window)
  · by_cases hnow : ∃ a ∈ l.answers, a.accepted = true ∧ l.now ≤ a.time
    · obtain ⟨a, ha, haccepted, hle⟩ := hnow
      have hpast := h.past a ha
      exact .broken ha haccepted ⟨hle, by omega⟩
    · refine .current rfl rfl fun a ha haccepted => ?_
      by_contra hle
      exact hnow ⟨a, ha, haccepted, Int.not_lt.mp hle⟩

private theorem Inv.continue (h : Inv max window l) (hstage : l.stage = .rejected) {c : Counter}
    (hc : l.counter = some c) (hlive : ¬c.expired window l.now) :
    Inv max window
      { l with
        stage := .idle
        counter := some { c with failures := c.failures + 1 }
        starts := c.start :: l.starts } := by
  obtain ⟨t, rest, hanswers, hroom⟩ := h.pending hstage
  have hlive : l.now ≤ c.start + window := by
    have hlive := Int.not_lt.mp hlive
    omega
  have ht : t ≤ l.now := h.past ⟨t, false⟩ (hanswers ▸ List.mem_cons_self)
  have hroom := hroom c hc (by omega)
  have hold : l.settled = recent rest := by
    rw [Limiter.settled, if_pos hstage, hanswers, recent_cons_rejected, List.tail_cons]
  have hnew : Limiter.settled { l with
      stage := .idle
      counter := some { c with failures := c.failures + 1 }
      starts := c.start :: l.starts } = ⟨t, false⟩ :: l.settled := by
    rw [Limiter.settled, if_neg (by simp), hanswers, recent_cons_rejected, hold]
  refine { h with
    begun := fun d hd => ?_
    pending := fun hstage => by cases hstage
    clearing := fun hstage => by cases hstage
    cap := fun d hd => ?_
    free := fun hstage => by cases hstage
    counted := fun d hd => ?_
    early := fun a ha => ?_
    windows := List.forall_mem_cons.mpr ⟨?_, fun start hstart => ?_⟩ }
  · obtain rfl := Option.some.inj hd
    exact h.begun c hc
  · obtain rfl := Option.some.inj hd
    exact hroom
  · obtain rfl := Option.some.inj hd
    have hcounted := h.counted c hc
    rw [hnew, List.filter_cons]
    dsimp only
    split
    · rw [List.length_cons]
      omega
    · omega
  · rw [hnew] at ha
    rcases List.mem_cons.mp ha with rfl | ha
    · exact (by omega : t ≤ c.start + window)
    · have hearly := h.early a ha
      rw [hc] at hearly
      exact hearly
  · by_cases hin : ∃ a ∈ l.answers, a.accepted = true ∧ c.start ≤ a.time
    · obtain ⟨a, ha, haccepted, hle⟩ := hin
      have hpast := h.past a ha
      exact .broken ha haccepted ⟨hle, by omega⟩
    · refine .current rfl rfl fun a ha haccepted => ?_
      by_contra hle
      exact hin ⟨a, ha, haccepted, Int.not_lt.mp hle⟩
  · cases h.windows start hstart with
    | @current d hd hstart hbefore =>
      obtain rfl : c = d := Option.some.inj (hc.symm.trans hd)
      exact .current rfl hstart hbefore
    | ended hover hle => exact .ended hover hle
    | broken ha haccepted hin => exact .broken ha haccepted hin

private theorem Inv.record (h : Inv max window l) (hwindow : 0 ≤ window) (hmax : 1 ≤ max)
    (hstage : l.stage = .rejected) :
    Inv max window { l with
      stage := .idle
      counter := some (RateLimit.record window l.now l.counter)
      starts := (RateLimit.record window l.now l.counter).start :: l.starts } := by
  cases hc : l.counter with
  | none =>
    refine h.restart hwindow hmax hstage (fun a ha => ?_) fun start hstart => ?_
    · have hearly := h.early a ha
      rwa [hc] at hearly
    · cases h.windows start hstart with
      | current hd => cases hc.symm.trans hd
      | ended hover hle => exact .ended hover hle
      | broken ha haccepted hin => exact .broken ha haccepted hin
  | some c =>
    by_cases hexpired : c.expired window l.now
    · simp only [RateLimit.record, if_pos hexpired]
      refine h.restart hwindow hmax hstage (fun a ha => ?_) fun start hstart =>
        h.accounted_of_expired hc hexpired (h.windows start hstart) _ _ _
      have hearly := h.early a ha
      rw [hc] at hearly
      have hearly : a.time ≤ c.start + window := hearly
      have hexpired : window < l.now - c.start := hexpired
      omega
    · simp only [RateLimit.record, if_neg hexpired]
      exact h.continue hstage hc hexpired

/-- **Every step** keeps the invariant. -/
theorem Inv.step (hwindow : 0 ≤ window) (hmax : 1 ≤ max) (h : Inv max window l)
    (hstep : Step max window l l') : Inv max window l' := by
  cases hstep with
  | wait ht => exact h.wait ht
  | pass hidle hpass =>
    refine h.at_stage (by rw [hidle]; decide) (by decide) (by decide) fun _ c hc => ?_
    rw [hc] at hpass
    simpa [passes] using hpass
  | reject hstage => exact h.reject hstage
  | accept => exact h.accept
  | record hstage => exact h.record hwindow hmax hstage
  | clear hstage => exact h.clear hstage
  | leave hstage => exact h.at_stage hstage (by decide) (by decide) fun hidle => by cases hidle
  | prune hc hexpired => exact h.prune hc hexpired

theorem inv_initial (max window now : Int) : Inv max window { now } where
  sorted := List.Pairwise.nil
  past := fun a ha => by cases ha
  begun := fun c hc => by cases hc
  pending := fun hstage => by cases hstage
  clearing := fun hstage => by cases hstage
  cap := fun c hc => by cases hc
  free := fun hstage => by cases hstage
  counted := fun c hc => by cases hc
  early := fun a ha => by cases ha
  windows := fun start hstart => by cases hstart

/-- **No more than the maximum of rejections** falls into a window that was started and that no
accepted attempt falls into. -/
theorem Inv.rejections_le (h : Inv max window l) {start : Int} (hstart : start ∈ l.starts)
    (hnone : ∀ a ∈ l.answers, a.accepted = true → ¬a.within window start) :
    (rejections window start l.answers).length ≤ max := by
  cases h.windows start hstart with
  | current hc hstart hbefore =>
    subst hstart
    exact h.current_le hc hbefore
  | ended hover hle => exact hle
  | broken ha haccepted hin => exact absurd hin (hnone _ ha haccepted)

end Invariant

end RateLimit
