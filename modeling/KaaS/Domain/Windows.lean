import KaaS.Domain.Maintenance
import KaaS.Library.Inet

/-!
# Maintenance windows

A deployment's maintenance window is written `HH:MM-HH:MM`, after a list of weekdays if it is not
daily. What it means is simple on the **circle of the week**, ten thousand and eighty minutes long:
on each of its days a window opens at the first time of day and stays open until the second time of
day comes round. `MaintenanceWindow.allows` tells it from the weekday and the minute of the day
instead, and looks at the day before where a window crosses midnight.

The two agree for every window that can be written (`allows_iff_opened`), the one that crosses
midnight at the end of the week included. A window that is not configured is always open; with its
start and end both zero it is one of a whole day, every day.
-/

namespace KaaS

open Text Guard

/-! ### Reading a window -/

/-- The fields of a text, between its white space. -/
def fields (s : String) : List String :=
  ((s.toList.splitOnP isSpace).filter (· ≠ [])).map String.ofList

/-- Lower case as far as it can give an ASCII letter: apart from the ASCII capitals two letters have
one as their lower case, the dotted capital I and the Kelvin sign. -/
def lowerChar (ch : Char) : Char :=
  if ch.toNat = 0x130 then 'i' else if ch.toNat = 0x212a then 'k' else ch.toLower

def weekdayNames : List (String × ℕ) :=
  [("sun", 0), ("sunday", 0), ("mon", 1), ("monday", 1), ("tue", 2), ("tuesday", 2), ("wed", 3),
    ("wednesday", 3), ("thu", 4), ("thursday", 4), ("fri", 5), ("friday", 5), ("sat", 6),
    ("saturday", 6)]

def weekday? (name : String) : Option ℕ :=
  weekdayNames.lookup (String.ofList ((trimSpace name).toList.map lowerChar))

/-- A number of two digits, or of one if it need not have two, at the start of a text. -/
def getnum (fixed : Bool) : List Char → Option (ℕ × List Char)
  | [] => none
  | a :: rest =>
    if !a.isDigit then none
    else match rest with
      | [] => if fixed then none else some (a.toNat - '0'.toNat, [])
      | b :: rest =>
        if b.isDigit then some ((a.toNat - '0'.toNat) * 10 + (b.toNat - '0'.toNat), rest)
        else if fixed then none
        else some (a.toNat - '0'.toNat, b :: rest)

/-- The minutes since midnight of a time of day `HH:MM`. -/
def parseClock (s : String) : Except String ℕ :=
  match getnum false (trimSpace s).toList with
  | some (hour, ':' :: rest) =>
    match getnum true rest with
    | some (min, []) =>
      if hour < 24 ∧ min < 60 then pure (hour * 60 + min)
      else throw ("maintenance window: " ++ quote s ++ " is not HH:MM")
    | _ => throw ("maintenance window: " ++ quote s ++ " is not HH:MM")
  | _ => throw ("maintenance window: " ++ quote s ++ " is not HH:MM")

/-- **A location** reads an instant as weekday and minute of the day. -/
structure Location where
  read : Time → ℕ × ℤ
  weekday_lt : ∀ t, (read t).1 < 7
  mins_nonneg : ∀ t, 0 ≤ (read t).2
  mins_lt : ∀ t, (read t).2 < 1440

/-- UTC, with the Unix epoch as the instant zero: a Thursday. -/
def utc : Location where
  read t := (((t / (24 * Duration.hour) + 4) % 7).toNat, t / Duration.minute % 1440)
  weekday_lt t := by
    have h := Int.emod_lt_of_pos (t / (24 * Duration.hour) + 4) (show (0 : ℤ) < 7 by decide)
    omega
  mins_nonneg t := Int.emod_nonneg _ (by decide)
  mins_lt t := Int.emod_lt_of_pos _ (by decide)

def parseDay (name : String) : Except String ℕ :=
  match weekday? name with
  | some d => pure d
  | none => throw ("maintenance window: unknown weekday " ++ quote name)

def parseDays (names : String) : Except String (List ℕ) := (split names ',').mapM parseDay

/-- The first and the second time of day of a span. -/
def parseSpan (span : String) : Except String (ℕ × ℕ) :=
  match Inet.cut span.toList '-' with
  | none => throw ("maintenance window: " ++ quote span ++ " is not HH:MM-HH:MM")
  | some (first, last) => do
    let start ← parseClock (String.ofList first)
    let stop ← parseClock (String.ofList last)
    refuseIf (start = stop) ("maintenance window: " ++ quote span ++ " is empty")
    pure (start, stop)

/-- The location of a time zone, UTC if none is configured. The zones are those of the host's
database. -/
def zoneOf (loadLocation : String → Except String Location) (tz : String) :
    Except String Location :=
  if tz = "" then pure utc
  else (loadLocation tz).mapError fun e =>
    "maintenance window: timezone " ++ quote tz ++ ": " ++ e

/-- A maintenance window and its time zone, as they are configured. -/
def parseMaintenanceWindow (loadLocation : String → Except String Location) (spec tz : String) :
    Except String MaintenanceWindow := do
  let spec := trimSpace spec
  if spec = "" then pure {}
  else
    let loc ← zoneOf loadLocation tz
    match fields spec with
    | [span] => do
      let times ← parseSpan span
      pure { start := times.1, stop := times.2, loc := loc.read, set := true }
    | [names, span] => do
      let days ← parseDays names
      let times ← parseSpan span
      pure { days, start := times.1, stop := times.2, loc := loc.read, set := true }
    | _ => throw ("maintenance window: want " ++ quote "HH:MM-HH:MM" ++ " or " ++
        quote "Days HH:MM-HH:MM" ++ ", got " ++ quote spec)

/-! ### The circle of the week -/

def weekMinutes : ℤ := 7 * 1440

def minuteOfWeek (local' : ℕ × ℤ) : ℤ := local'.1 * 1440 + local'.2

/-- **The weekdays a specification selects**: those it lists, or all. -/
def selectedDays (spec : String) : List ℕ :=
  match fields (trimSpace spec) with
  | [names, _] => (split names ',').filterMap weekday?
  | _ => List.range 7

namespace MaintenanceWindow

/-- How long the window is open. One that does not end after its start ends on the next day. -/
def length (w : MaintenanceWindow) : ℤ :=
  if w.stop > w.start then w.stop - w.start else w.stop + 1440 - w.start

/-- **The window opened on a day is open** at a minute of the week: the way from its opening round
the circle to the minute is shorter than the window. -/
def OpenAt (w : MaintenanceWindow) (day : ℕ) (minute : ℤ) : Prop :=
  (minute - (day * 1440 + w.start)) % weekMinutes < w.length

section Circle

variable {w : MaintenanceWindow} {weekday : ℕ} {mins : ℤ}

private theorem openAt_iff_of_lt (hwd : weekday < 7) (hmins : 0 ≤ mins ∧ mins < 1440)
    (hstart : 0 ≤ w.start) (hstop : w.stop < 1440) (h : w.stop > w.start) {d : ℕ} (hd : d < 7) :
    w.OpenAt d (minuteOfWeek (weekday, mins)) ↔ d = weekday ∧ w.start ≤ mins ∧ mins < w.stop := by
  simp only [OpenAt, length, minuteOfWeek, weekMinutes, if_pos h]
  omega

private theorem openAt_iff_of_le (hwd : weekday < 7) (hmins : 0 ≤ mins ∧ mins < 1440)
    (hstart : 0 ≤ w.start ∧ w.start < 1440) (hstop : 0 ≤ w.stop) (h : ¬w.stop > w.start) {d : ℕ}
    (hd : d < 7) :
    w.OpenAt d (minuteOfWeek (weekday, mins)) ↔
      d = weekday ∧ w.start ≤ mins ∨ d = (weekday + 6) % 7 ∧ mins < w.stop := by
  simp only [OpenAt, length, minuteOfWeek, weekMinutes, if_neg h]
  omega

/-- **The test of a window** is whether one opened on a day of it is open. -/
theorem allows_iff_exists_openAt {t : Time} (hset : w.set = true) (hwd : (w.loc t).1 < 7)
    (hmins : 0 ≤ (w.loc t).2 ∧ (w.loc t).2 < 1440) (hstart : 0 ≤ w.start ∧ w.start < 1440)
    (hstop : 0 ≤ w.stop ∧ w.stop < 1440) :
    w.allows t = true ↔
      ∃ d < 7, w.dayOK d = true ∧ w.OpenAt d (minuteOfWeek (w.loc t)) := by
  rcases hloc : w.loc t with ⟨weekday, mins⟩
  simp only [hloc] at hwd hmins
  simp only [allows, hset, hloc, Bool.not_true, Bool.false_eq_true, if_false]
  by_cases h : w.stop > w.start
  · rw [if_pos h, Bool.and_eq_true, Bool.and_eq_true, decide_eq_true_eq, decide_eq_true_eq]
    constructor
    · rintro ⟨⟨hday, hge⟩, hlt⟩
      exact ⟨weekday, hwd, hday,
        (openAt_iff_of_lt hwd hmins hstart.1 hstop.2 h hwd).mpr ⟨rfl, hge, hlt⟩⟩
    · rintro ⟨d, hd, hday, hopen⟩
      obtain ⟨rfl, hge, hlt⟩ := (openAt_iff_of_lt hwd hmins hstart.1 hstop.2 h hd).mp hopen
      exact ⟨⟨hday, hge⟩, hlt⟩
  -- past the start the window of the day is open, before the end that of the day before
  · rw [if_neg h]
    have hiff {d : ℕ} (hd : d < 7) := openAt_iff_of_le hwd hmins hstart hstop.1 h hd
    have hyesterday : (weekday + 6) % 7 < 7 := Nat.mod_lt _ (by decide)
    split_ifs with hlate hearly
    · constructor
      · intro hday
        exact ⟨weekday, hwd, hday, (hiff hwd).mpr (.inl ⟨rfl, hlate⟩)⟩
      · rintro ⟨d, hd, hday, hopen⟩
        rcases (hiff hd).mp hopen with ⟨rfl, -⟩ | ⟨-, hlt⟩
        · exact hday
        · omega
    · constructor
      · intro hday
        exact ⟨_, hyesterday, hday, (hiff hyesterday).mpr (.inr ⟨rfl, hearly⟩)⟩
      · rintro ⟨d, hd, hday, hopen⟩
        rcases (hiff hd).mp hopen with ⟨-, hge⟩ | ⟨rfl, -⟩
        · exact absurd hge hlate
        · exact hday
    · simp only [false_iff]
      rintro ⟨d, hd, -, hopen⟩
      rcases (hiff hd).mp hopen with ⟨-, hge⟩ | ⟨-, hlt⟩
      · exact hlate hge
      · exact hearly hlt

end Circle

end MaintenanceWindow

/-! ### What can be written -/

private theorem parseClock_lt {s : String} {m : ℕ} (h : parseClock s = .ok m) : m < 1440 := by
  unfold parseClock at h
  split at h
  · split at h
    · split at h
      · simp only [pure_eq_ok] at h
        omega
      · simp at h
    · simp at h
  · simp at h

private theorem parseSpan_bounds {span : String} {times : ℕ × ℕ} (h : parseSpan span = .ok times) :
    (0 ≤ (times.1 : ℤ) ∧ (times.1 : ℤ) < 1440) ∧ 0 ≤ (times.2 : ℤ) ∧ (times.2 : ℤ) < 1440 := by
  unfold parseSpan at h
  split at h
  · simp at h
  · simp only [bind_eq_ok, pure_eq_ok] at h
    obtain ⟨start, hstart, stop, hstop, -, -, rfl⟩ := h
    have hs := parseClock_lt hstart
    have he := parseClock_lt hstop
    omega

private theorem weekday?_lt {name : String} {d : ℕ} (h : weekday? name = some d) : d < 7 := by
  have hall : ∀ p ∈ weekdayNames, p.2 < 7 := by decide
  obtain ⟨l₁, l₂, heq, -⟩ := List.lookup_eq_some_iff.mp h
  refine hall (String.ofList ((trimSpace name).toList.map lowerChar), d) ?_
  rw [heq]
  exact List.mem_append_right _ List.mem_cons_self

private theorem parseDay_eq_ok {name : String} {d : ℕ} (h : parseDay name = .ok d) :
    weekday? name = some d := by
  unfold parseDay at h
  split at h
  · rename_i hd
    exact hd.trans (congrArg some (pure_eq_ok.mp h))
  · simp at h

private theorem mapM_parseDay {l : List String} {days : List ℕ} (h : l.mapM parseDay = .ok days) :
    days.length = l.length ∧ days = l.filterMap weekday? := by
  induction l generalizing days with
  | nil =>
    obtain rfl := pure_eq_ok.mp h
    exact ⟨rfl, rfl⟩
  | cons name l ih =>
    simp only [List.mapM_cons, bind_eq_ok, pure_eq_ok] at h
    obtain ⟨d, hd, rest, hrest, rfl⟩ := h
    obtain ⟨hlen, rfl⟩ := ih hrest
    rw [List.filterMap_cons_some (parseDay_eq_ok hd)]
    exact ⟨congrArg (· + 1) hlen, rfl⟩

private theorem parseDays_eq_ok {names : String} {days : List ℕ} (h : parseDays names = .ok days) :
    days ≠ [] ∧ days = (split names ',').filterMap weekday? := by
  obtain ⟨hlen, hdays⟩ := mapM_parseDay h
  refine ⟨fun hnil => ?_, hdays⟩
  rw [hnil, split, List.length_map, List.length_nil] at hlen
  exact List.splitOn_ne_nil _ _ (List.length_eq_zero_iff.mp hlen.symm)

/-- **A configured window**: its times are times of a day, its days those of the specification, and
its location reads instants as such. -/
structure Configured (spec : String) (w : MaintenanceWindow) : Prop where
  set : w.set = true
  loc : ∃ location : Location, w.loc = location.read
  start : 0 ≤ w.start ∧ w.start < 1440
  stop : 0 ≤ w.stop ∧ w.stop < 1440
  days : ∀ d, d < 7 ∧ w.dayOK d = true ↔ d ∈ selectedDays spec

theorem configured_of_parse {load : String → Except String Location} {spec tz : String}
    {w : MaintenanceWindow} (h : parseMaintenanceWindow load spec tz = .ok w) :
    trimSpace spec = "" ∧ w = {} ∨ Configured spec w := by
  unfold parseMaintenanceWindow at h
  dsimp only at h
  split at h
  · rename_i hblank
    exact .inl ⟨hblank, (pure_eq_ok.mp h).symm⟩
  · refine .inr ?_
    rw [bind_eq_ok] at h
    obtain ⟨location, -, h⟩ := h
    split at h
    · rename_i span hfields
      simp only [bind_eq_ok, pure_eq_ok] at h
      obtain ⟨times, htimes, rfl⟩ := h
      obtain ⟨hstart, hstop⟩ := parseSpan_bounds htimes
      refine ⟨rfl, ⟨location, rfl⟩, hstart, hstop, fun d => ?_⟩
      simp [selectedDays, hfields, MaintenanceWindow.dayOK]
    · rename_i names span hfields
      simp only [bind_eq_ok, pure_eq_ok] at h
      obtain ⟨days, hdays, times, htimes, rfl⟩ := h
      obtain ⟨hstart, hstop⟩ := parseSpan_bounds htimes
      obtain ⟨hne, hnamed⟩ := parseDays_eq_ok hdays
      refine ⟨rfl, ⟨location, rfl⟩, hstart, hstop, fun d => ?_⟩
      simp only [selectedDays, hfields, ← hnamed, MaintenanceWindow.dayOK, Bool.or_eq_true,
        beq_iff_eq, hne, false_or, List.contains_iff_mem]
      refine ⟨fun hd => hd.2, fun hd => ⟨?_, hd⟩⟩
      rw [hnamed] at hd
      obtain ⟨name, -, hname⟩ := List.mem_filterMap.mp hd
      exact weekday?_lt hname
    · simp at h

/-- **A window is what it reads as.** For every specification that is accepted and every instant,
the window allows the instant exactly when, on the circle of the week, the instant lies in the
window opened on one of the days the specification selects. -/
theorem allows_iff_opened (load : String → Except String Location) (spec tz : String)
    (w : MaintenanceWindow) (h : parseMaintenanceWindow load spec tz = .ok w) (t : Time) :
    w.allows t = true ↔ ∃ d ∈ selectedDays spec, w.OpenAt d (minuteOfWeek (w.loc t)) := by
  rcases configured_of_parse h with ⟨hblank, rfl⟩ | hw
  · have hdays : selectedDays spec = List.range 7 := by
      rw [selectedDays, hblank]
      rfl
    rw [hdays]
    refine iff_of_true rfl ⟨0, by decide, ?_⟩
    simp [MaintenanceWindow.OpenAt, MaintenanceWindow.length, minuteOfWeek, weekMinutes]
  · obtain ⟨location, hloc⟩ := hw.loc
    have hwd : (w.loc t).1 < 7 := hloc ▸ location.weekday_lt t
    have hmins : 0 ≤ (w.loc t).2 ∧ (w.loc t).2 < 1440 :=
      hloc ▸ ⟨location.mins_nonneg t, location.mins_lt t⟩
    rw [MaintenanceWindow.allows_iff_exists_openAt hw.set hwd hmins hw.start hw.stop]
    constructor
    · rintro ⟨d, hd, hday, hopen⟩
      exact ⟨d, (hw.days d).mp ⟨hd, hday⟩, hopen⟩
    · rintro ⟨d, hd, hopen⟩
      obtain ⟨hlt, hday⟩ := (hw.days d).mpr hd
      exact ⟨d, hlt, hday, hopen⟩

private theorem parse_saturdayNight :
    parseMaintenanceWindow (fun _ => throw "no database") " Wed,Sat 22:00-2:30 " "" = .ok
      { days := [3, 6], start := 1320, stop := 150, loc := utc.read, set := true } := by
  have htrim : trimSpace " Wed,Sat 22:00-2:30 " = "Wed,Sat 22:00-2:30" := by decide +kernel
  have hfields : fields "Wed,Sat 22:00-2:30" = ["Wed,Sat", "22:00-2:30"] := by decide +kernel
  have hdays : parseDays "Wed,Sat" = .ok [3, 6] := by decide +kernel
  have hspan : parseSpan "22:00-2:30" = .ok (1320, 150) := by decide +kernel
  have hne : ¬"Wed,Sat 22:00-2:30" = "" := by decide +kernel
  simp only [parseMaintenanceWindow, htrim, if_neg hne, hfields, hdays, hspan, zoneOf, if_true]
  rfl

/-- A window that crosses the end of the week, early on the Sunday after it opened. -/
theorem allows_iff_opened_saturdayNight :
    ∃ w, parseMaintenanceWindow (fun _ => throw "no database") " Wed,Sat 22:00-2:30 " "" = .ok w ∧
      w.allows (3 * (24 * Duration.hour) + Duration.hour) = true ∧
      ∃ d ∈ selectedDays " Wed,Sat 22:00-2:30 ",
        w.OpenAt d (minuteOfWeek (w.loc (3 * (24 * Duration.hour) + Duration.hour))) :=
  ⟨_, parse_saturdayNight, by decide +kernel,
    (allows_iff_opened _ _ _ _ parse_saturdayNight _).mp (by decide +kernel)⟩

end KaaS
