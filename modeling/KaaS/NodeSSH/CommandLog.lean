import Mathlib.Data.List.DropRight
import Mathlib.Data.List.TakeWhile

/-!
# The command lines of a session

A session in a shell on a node leaves a record of the lines that were typed. `CommandRecorder` sees
the keystrokes of the session byte by byte and edits a line with them, which it never lets grow over
`maxCommandLen` bytes.

It is to report what an editor **with unbounded lines** would submit (`typedLines`): the first
`maxCommands` lines that are not blank, trimmed, **then** clipped. The recorder clips first. What it
has of a line is its start, until a deletion takes back a byte that it did not keep; and of that
start it trims what it reports. `Faithful` says of a session that it comes to neither, and then
the record is right however the bytes were cut into frames (`records_of_faithful`).
-/

namespace KaaS

/-! ### The recorder -/

def maxCommands : ℕ := 500

def maxCommandLen : ℕ := 1024

/-- Where in an escape sequence the keystrokes are. -/
inductive EscState where
  | outside
  | sawEsc
  | inSequence
  deriving DecidableEq

/-- The line that is being typed, and what was recorded of those before. -/
structure CommandLog where
  line : List UInt8 := []
  commands : List (List UInt8) := []
  truncated : Bool := false

structure CommandRecorder extends CommandLog where
  esc : EscState := .outside

/-- White space, of the bytes that a line can have. -/
def isBlank (b : UInt8) : Bool := b == 0x20 || (0x09 ≤ b && b ≤ 0x0d)

def trimBytes (l : List UInt8) : List UInt8 := (l.dropWhile isBlank).rdropWhile isBlank

def CommandLog.commit (r : CommandLog) : CommandLog :=
  let cmd := trimBytes r.line
  if cmd = [] then { r with line := [] }
  else if r.commands.length ≥ maxCommands then { r with line := [], truncated := true }
  else { r with line := [], commands := r.commands ++ [cmd] }

def CommandLog.backspace (r : CommandLog) : CommandLog :=
  if r.line.length > 0 then { r with line := r.line.take (r.line.length - 1) } else r

def CommandLog.append (r : CommandLog) (b : UInt8) : CommandLog :=
  if r.line.length < maxCommandLen then { r with line := r.line ++ [b] } else r

def CommandRecorder.feedByte (r : CommandRecorder) (b : UInt8) : CommandRecorder :=
  match r.esc with
  | .sawEsc => { r with esc := if b = 0x5b ∨ b = 0x4f then .inSequence else .outside }
  | .inSequence => if b ≥ 0x40 ∧ b ≤ 0x7e then { r with esc := .outside } else r
  | .outside =>
    if b = 0x1b then { r with esc := .sawEsc }
    else if b = 0x0d ∨ b = 0x0a then { r with toCommandLog := r.commit }
    else if b = 0x7f ∨ b = 0x08 then { r with toCommandLog := r.backspace }
    else if b = 0x03 ∨ b = 0x15 then { r with line := [] }
    else if b ≥ 0x20 ∧ b < 0x7f then { r with toCommandLog := r.append b }
    else r

def CommandRecorder.feed (r : CommandRecorder) (data : List UInt8) : CommandRecorder :=
  data.foldl feedByte r

/-- A message of the browser: keystrokes, or a control message as text. -/
structure Frame where
  isText : Bool
  data : List UInt8

def CommandRecorder.readMessage (r : CommandRecorder) (f : Frame) : CommandRecorder :=
  if f.isText then r else r.feed f.data

/-- The recorder after the messages of a session. -/
def recorded (frames : List Frame) : CommandRecorder :=
  frames.foldl CommandRecorder.readMessage {}

/-! ### An editor with unbounded lines -/

inductive Key where
  | enter
  | erase
  | clear
  | char (b : UInt8)

/-- The key of a byte outside of escape sequences. -/
def keyOf (b : UInt8) : Option Key :=
  if b = 0x0d ∨ b = 0x0a then some .enter
  else if b = 0x7f ∨ b = 0x08 then some .erase
  else if b = 0x03 ∨ b = 0x15 then some .clear
  else if b ≥ 0x20 ∧ b < 0x7f then some (.char b)
  else none

/-- The keys of a stream, without its escape sequences. -/
def keysFrom : EscState → List UInt8 → List Key
  | _, [] => []
  | .sawEsc, b :: bs => keysFrom (if b = 0x5b ∨ b = 0x4f then .inSequence else .outside) bs
  | .inSequence, b :: bs => keysFrom (if b ≥ 0x40 ∧ b ≤ 0x7e then .outside else .inSequence) bs
  | .outside, b :: bs =>
    if b = 0x1b then keysFrom .sawEsc bs else (keyOf b).toList ++ keysFrom .outside bs

/-- The lines that are submitted, from a line that was begun. -/
def typedLines : List UInt8 → List Key → List (List UInt8)
  | _, [] => []
  | line, .enter :: ks => line :: typedLines [] ks
  | line, .erase :: ks => typedLines line.dropLast ks
  | _, .clear :: ks => typedLines [] ks
  | line, .char b :: ks => typedLines (line ++ [b]) ks

/-- All commands of a stream: the lines that are not blank, trimmed. -/
def typedCommands (stream : List UInt8) : List (List UInt8) :=
  ((typedLines [] (keysFrom .outside stream)).map trimBytes).filter (· ≠ [])

/-- **The record of a stream is right**, however it is cut into frames. -/
def Records (stream : List UInt8) : Prop :=
  ∀ frames : List Frame, (frames.filter (!·.isText)).flatMap (·.data) = stream →
    (recorded frames).commands =
        ((typedCommands stream).take maxCommands).map (·.take maxCommandLen) ∧
      ((recorded frames).truncated = true ↔ maxCommands < (typedCommands stream).length)

/-! ### Sessions in which clipping first makes no difference -/

/-- **Clipping and trimming commute** on the line: it fits with the blanks before its text, or it
has none and is not cut behind one. -/
def LineFits (typed : List UInt8) : Prop :=
  trimBytes typed = [] ∨
    (typed.takeWhile isBlank).length + (trimBytes typed).length ≤ maxCommandLen ∨
    (typed.takeWhile isBlank = [] ∧ ∀ b ∈ typed[maxCommandLen - 1]?, isBlank b = false)

/-- The line that is being typed will be submitted. -/
def submits : List Key → Bool
  | [] => false
  | .enter :: _ => true
  | .clear :: _ => false
  | .erase :: ks => submits ks
  | .char _ :: ks => submits ks

/-- No deletion takes back a byte beyond the limit of a line that is submitted, and every line that
is submitted fits. -/
def FaithfulFrom : List UInt8 → List Key → Prop
  | _, [] => True
  | line, .enter :: ks => LineFits line ∧ FaithfulFrom [] ks
  | line, .erase :: ks =>
    (submits ks = true → line.length ≤ maxCommandLen) ∧ FaithfulFrom line.dropLast ks
  | _, .clear :: ks => FaithfulFrom [] ks
  | line, .char b :: ks => FaithfulFrom (line ++ [b]) ks

def Faithful (stream : List UInt8) : Prop := FaithfulFrom [] (keysFrom .outside stream)

instance (line : List UInt8) : Decidable (LineFits line) := inferInstanceAs (Decidable (_ ∨ _))

instance FaithfulFrom.decidable : ∀ line ks, Decidable (FaithfulFrom line ks)
  | _, [] => inferInstanceAs (Decidable True)
  | _, .enter :: ks => @instDecidableAnd _ _ inferInstance (decidable [] ks)
  | line, .erase :: ks => @instDecidableAnd _ _ inferInstance (decidable line.dropLast ks)
  | _, .clear :: ks => decidable [] ks
  | line, .char b :: ks => decidable (line ++ [b]) ks

instance (stream : List UInt8) : Decidable (Faithful stream) :=
  inferInstanceAs (Decidable (FaithfulFrom _ _))

/-! ### Trimming -/

private theorem trimBytes_append {lead text tail : List UInt8} (hlead : ∀ b ∈ lead, isBlank b)
    (htail : ∀ b ∈ tail, isBlank b) (hfirst : ∀ b ∈ text.head?, isBlank b = false)
    (hlast : ∀ b ∈ text.getLast?, isBlank b = false) :
    trimBytes (lead ++ (text ++ tail)) = text := by
  have hdrop : (text ++ tail).dropWhile isBlank = if text = [] then [] else text ++ tail := by
    cases text with
    | nil => simpa using htail
    | cons b text => simp [hfirst b rfl]
  have hend : (text ++ tail).rdropWhile isBlank = text.rdropWhile isBlank := by
    rw [List.rdropWhile, List.reverse_append,
      List.dropWhile_append_of_pos fun b hb => htail b (List.mem_reverse.mp hb)]
    rfl
  rw [trimBytes, List.dropWhile_append_of_pos hlead, hdrop]
  split_ifs with hnil
  · rw [hnil, List.rdropWhile_nil]
  · rw [hend, List.rdropWhile_eq_self_iff]
    intro hne
    simp [hlast _ (List.getLast?_eq_some_getLast hne)]

theorem trimBytes_take {line : List UInt8} (h : LineFits line) :
    trimBytes (line.take maxCommandLen) = (trimBytes line).take maxCommandLen := by
  have hline : line = line.takeWhile isBlank ++
      (trimBytes line ++ (line.dropWhile isBlank).rtakeWhile isBlank) := by
    rw [trimBytes, List.rdropWhile_append_rtakeWhile, List.takeWhile_append_dropWhile]
  have hlead : ∀ b ∈ line.takeWhile isBlank, isBlank b := fun b => List.mem_takeWhile_imp
  have htail : ∀ b ∈ (line.dropWhile isBlank).rtakeWhile isBlank, isBlank b := fun b =>
    List.mem_rtakeWhile_imp
  have hfirst : ∀ b ∈ (trimBytes line).head?, isBlank b = false := by
    intro b hb
    have hhead : (line.dropWhile isBlank).head? = some b := by
      rw [← List.rdropWhile_append_rtakeWhile (p := isBlank) (l := line.dropWhile isBlank),
        List.head?_append, ← trimBytes, Option.mem_def.mp hb, Option.some_or]
    have hnot := List.head?_dropWhile_not isBlank line
    rw [hhead] at hnot
    simpa using hnot
  have hlast : ∀ b ∈ (trimBytes line).getLast?, isBlank b = false := by
    intro b hb
    have hne : trimBytes line ≠ [] := by
      rintro hnil
      simp [hnil] at hb
    rw [List.getLast?_eq_some_getLast hne] at hb
    exact Option.some.inj hb ▸ Bool.eq_false_iff.mpr (List.rdropWhile_last_not _ _ hne)
  unfold LineFits at h
  generalize trimBytes line = text at *
  generalize line.takeWhile isBlank = lead at *
  generalize (line.dropWhile isBlank).rtakeWhile isBlank = tail at *
  subst hline
  have hcut {n : ℕ} : ∀ b ∈ tail.take n, isBlank b := fun b hb => htail b (List.mem_of_mem_take hb)
  by_cases hlen : lead.length + text.length ≤ maxCommandLen
  · have htake : (lead ++ (text ++ tail)).take maxCommandLen =
        lead ++ (text ++ tail.take (maxCommandLen - lead.length - text.length)) := by
      rw [List.take_append, List.take_append, List.take_of_length_le (by omega),
        List.take_of_length_le (by omega : text.length ≤ maxCommandLen - lead.length)]
    rw [htake, trimBytes_append hlead hcut hfirst hlast, List.take_of_length_le (by omega)]
  rcases h with rfl | hfit | ⟨rfl, hbyte⟩
  · have hblank : ∀ b ∈ (lead ++ ([] ++ tail)).take maxCommandLen, isBlank b := fun b hb =>
      (List.mem_append.mp (List.mem_of_mem_take hb)).elim (hlead b) (htail b)
    have htrim : trimBytes ((lead ++ ([] ++ tail)).take maxCommandLen ++ ([] ++ [])) = [] :=
      trimBytes_append hblank (by simp) (by simp) (by simp)
    simpa using htrim
  · exact absurd hfit hlen
  · rw [List.length_nil, Nat.zero_add, Nat.not_le] at hlen
    have htrim : trimBytes ([] ++ (text.take maxCommandLen ++ [])) = text.take maxCommandLen := by
      refine trimBytes_append (by simp) (by simp) (fun b hb => hfirst b ?_) fun b hb => hbyte b ?_
      · rwa [List.head?_take, if_neg (by decide)] at hb
      · rw [List.getLast?_take, if_neg (by decide),
          List.getElem?_eq_getElem (by omega : maxCommandLen - 1 < text.length)] at hb
        rw [List.nil_append, List.getElem?_append_left (by omega),
          List.getElem?_eq_getElem (by omega : maxCommandLen - 1 < text.length)]
        simpa using hb
    rw [List.nil_append, List.take_append_of_le_length hlen.le]
    simpa using htrim

/-! ### Keystrokes -/

def CommandLog.press (r : CommandLog) : Key → CommandLog
  | .enter => r.commit
  | .erase => r.backspace
  | .clear => { r with line := [] }
  | .char b => r.append b

private theorem feedByte_outside {r : CommandRecorder} {b : UInt8} (hesc : r.esc = .outside)
    (hb : b ≠ 0x1b) :
    r.feedByte b = { r with toCommandLog := (keyOf b).elim r.toCommandLog r.press } := by
  simp only [CommandRecorder.feedByte, hesc, if_neg hb, keyOf]
  split_ifs <;> simp only [Option.elim, CommandLog.press, ← hesc]

private theorem toCommandLog_feed (bs : List UInt8) (r : CommandRecorder) :
    (r.feed bs).toCommandLog = (keysFrom r.esc bs).foldl CommandLog.press r.toCommandLog := by
  induction bs generalizing r with
  | nil => cases hesc : r.esc <;> rfl
  | cons b bs ih =>
    rw [CommandRecorder.feed, List.foldl_cons, ← CommandRecorder.feed, ih]
    cases hesc : r.esc with
    | sawEsc => simp only [CommandRecorder.feedByte, hesc, keysFrom]
    | inSequence =>
      simp only [CommandRecorder.feedByte, hesc, keysFrom]
      split_ifs <;> simp [hesc]
    | outside =>
      rw [keysFrom]
      split_ifs with hb
      · simp only [CommandRecorder.feedByte, hesc, hb, if_true]
      · rw [feedByte_outside hesc hb]
        cases hkey : keyOf b <;> simp [hesc]

theorem recorded_eq (frames : List Frame) :
    recorded frames = CommandRecorder.feed {} ((frames.filter (!·.isText)).flatMap (·.data)) := by
  have hfrom (r : CommandRecorder) : frames.foldl CommandRecorder.readMessage r =
      r.feed ((frames.filter (!·.isText)).flatMap (·.data)) := by
    induction frames generalizing r with
    | nil => rfl
    | cons f frames ih =>
      rw [List.foldl_cons, ih, CommandRecorder.readMessage]
      cases htext : f.isText with
      | true => simp [htext]
      | false => simp [htext, CommandRecorder.feed]
  exact hfrom {}

/-! ### The record -/

/-- The recorder has the first of all these commands. -/
private structure HasFirst (r : CommandLog) (all : List (List UInt8)) : Prop where
  commands : r.commands = all.take maxCommands
  truncated : r.truncated = decide (maxCommands < all.length)

variable {r : CommandLog} {all : List (List UInt8)} {line : List UInt8}

private theorem HasFirst.commit (h : HasFirst r all) :
    HasFirst r.commit (all ++ [trimBytes r.line].filter (· ≠ [])) := by
  unfold CommandLog.commit
  dsimp only
  split_ifs with hblank hfull
  · simpa [hblank] using (⟨h.commands, h.truncated⟩ : HasFirst { r with line := [] } all)
  · rw [h.commands, List.length_take] at hfull
    have hlen : maxCommands ≤ all.length := by omega
    refine ⟨?_, ?_⟩
    · rw [List.take_append_of_le_length hlen]
      exact h.commands
    · simp [hblank, Nat.lt_succ_of_le hlen]
  · rw [h.commands, List.length_take] at hfull
    have hlen : all.length < maxCommands := by omega
    refine ⟨?_, ?_⟩
    · simp only [h.commands, List.take_of_length_le hlen.le]
      rw [List.take_of_length_le (by simp [hblank]; omega)]
      simp [hblank]
    · rw [h.truncated]
      simp [hblank]
      omega

private theorem backspace_eq (r : CommandLog) :
    r.backspace = { r with line := r.line.dropLast } := by
  unfold CommandLog.backspace
  split_ifs with hpos
  · rw [List.dropLast_eq_take]
  · obtain ⟨line, commands, truncated⟩ := r
    obtain rfl := List.eq_nil_of_length_eq_zero (Nat.eq_zero_of_not_pos hpos)
    rfl

private theorem HasFirst.foldl_press {ks : List Key} (h : HasFirst r all)
    (hline : submits ks = true → r.line = line.take maxCommandLen) (hks : FaithfulFrom line ks) :
    HasFirst (ks.foldl CommandLog.press r) (all ++
      (((typedLines line ks).map trimBytes).filter (· ≠ [])).map (·.take maxCommandLen)) := by
  induction ks generalizing r all line with
  | nil => simpa [typedLines] using h
  | cons k ks ih =>
    cases k with
    | enter =>
      obtain ⟨hfits, hks⟩ := hks
      have hcommit := h.commit
      rw [hline rfl, trimBytes_take hfits] at hcommit
      have hclear : r.commit.line = ([] : List UInt8).take maxCommandLen := by
        unfold CommandLog.commit
        dsimp only
        split_ifs <;> rfl
      have hrest := ih hcommit (fun _ => hclear) hks
      have hclip : [(trimBytes line).take maxCommandLen].filter (· ≠ []) =
          ([trimBytes line].filter (· ≠ [])).map (·.take maxCommandLen) := by
        by_cases hnil : trimBytes line = [] <;> simp [hnil, maxCommandLen]
      rw [hclip, List.append_assoc, ← List.map_append, ← List.filter_append] at hrest
      exact hrest
    | erase =>
      obtain ⟨hlen, hks⟩ := hks
      rw [List.foldl_cons, CommandLog.press, backspace_eq]
      refine ih ⟨h.commands, h.truncated⟩ (fun hsub => ?_) hks
      rw [hline hsub, List.take_of_length_le (hlen hsub), List.take_of_length_le]
      exact (List.dropLast_sublist line).length_le.trans (hlen hsub)
    | clear => exact ih ⟨h.commands, h.truncated⟩ (fun _ => rfl) hks
    | char b =>
      rw [List.foldl_cons, CommandLog.press, CommandLog.append]
      split_ifs with hroom
      · refine ih ⟨h.commands, h.truncated⟩ (fun hsub => ?_) hks
        rw [hline hsub, List.length_take] at hroom
        have hlen : line.length < maxCommandLen := by omega
        simp only [hline hsub, List.take_of_length_le hlen.le]
        rw [List.take_of_length_le (by rw [List.length_append]; exact hlen)]
      · refine ih h (fun hsub => ?_) hks
        rw [hline hsub, List.length_take] at hroom
        rw [hline hsub, List.take_append_of_le_length (by omega)]

/-- **The record of a session that is faithful is right.** -/
theorem records_of_faithful (stream : List UInt8) (h : Faithful stream) : Records stream := by
  intro frames hframes
  have hfirst : HasFirst (recorded frames).toCommandLog
      ((typedCommands stream).map (·.take maxCommandLen)) := by
    rw [recorded_eq, hframes, toCommandLog_feed]
    have hnone : HasFirst {} [] := ⟨rfl, rfl⟩
    exact hnone.foldl_press (fun _ => rfl) h
  rw [List.map_take]
  refine ⟨hfirst.commands, ?_⟩
  rw [hfirst.truncated, decide_eq_true_iff, List.length_map]

/-- A recalled line is no trace of what ran, `lz` is corrected to `ls`. -/
theorem records_of_faithful_corrected :
    Records [0x1b, 0x5b, 0x41, 0x6c, 0x7a, 0x7f, 0x73, 0x0d] :=
  records_of_faithful _ (by decide)

/-! ### A deletion beyond the limit -/

private theorem keysFrom_replicate (n : ℕ) (rest : List UInt8) :
    keysFrom .outside (List.replicate n 0x61 ++ rest) =
      List.replicate n (.char 0x61) ++ keysFrom .outside rest := by
  induction n with
  | zero => rfl
  | succ n ih =>
    rw [List.replicate_succ, List.cons_append, keysFrom, ih]
    rfl

private theorem typedLines_replicate (n : ℕ) (b : UInt8) (line : List UInt8) (ks : List Key) :
    typedLines line (List.replicate n (.char b) ++ ks) =
      typedLines (line ++ List.replicate n b) ks := by
  induction n generalizing line with
  | zero => simp
  | succ n ih =>
    rw [List.replicate_succ, List.cons_append, typedLines, ih, List.replicate_succ,
      List.append_assoc, List.singleton_append]

private theorem foldl_press_replicate (n : ℕ) (b : UInt8)
    (h : r.line.length ≤ maxCommandLen) : (List.replicate n (.char b)).foldl CommandLog.press r =
      { r with line := (r.line ++ List.replicate n b).take maxCommandLen } := by
  induction n generalizing r with
  | zero => simp [List.take_of_length_le h]
  | succ n ih =>
    rw [List.replicate_succ, List.foldl_cons, CommandLog.press, CommandLog.append]
    split_ifs with hroom
    · rw [ih (by rw [List.length_append]; exact hroom), List.append_assoc, List.singleton_append,
        List.replicate_succ]
    · rw [ih h, List.take_append_of_le_length (by omega), List.take_append_of_le_length (by omega)]

private theorem trimBytes_replicate (n : ℕ) :
    trimBytes (List.replicate n 0x61) = List.replicate n 0x61 := by
  have hnot : ∀ b ∈ List.replicate n (0x61 : UInt8), isBlank b = false := fun b hb => by
    rw [List.eq_of_mem_replicate hb]
    decide
  have htrim : trimBytes ([] ++ (List.replicate n 0x61 ++ [])) = List.replicate n 0x61 :=
    trimBytes_append (by simp) (by simp) (fun b hb => hnot b (List.mem_of_mem_head? hb))
      fun b hb => hnot b (List.mem_of_mem_getLast? hb)
  simpa using htrim

/-- A line of one byte too many, which is then deleted. -/
def overlong : List UInt8 := List.replicate (maxCommandLen + 1) 0x61 ++ [0x7f, 0x0d]

/-- **A deletion beyond the limit takes the last byte that was kept**: of a line of 1024 bytes,
after one too many was deleted, 1023 are recorded. -/
theorem kept_byte_deleted :
    (recorded [⟨false, overlong⟩]).commands = [List.replicate (maxCommandLen - 1) 0x61] ∧
      ¬Records overlong := by
  have hkeys : keysFrom .outside overlong =
      List.replicate (maxCommandLen + 1) (.char 0x61) ++ [.erase, .enter] := keysFrom_replicate _ _
  have hsome {n : ℕ} (hn : 0 < n) : List.replicate n (0x61 : UInt8) ≠ [] := fun h =>
    hn.ne' (by simpa using h)
  have hshort : (recorded [⟨false, overlong⟩]).commands =
      [List.replicate (maxCommandLen - 1) 0x61] := by
    have hfeed : (recorded [⟨false, overlong⟩]).toCommandLog =
        (keysFrom .outside overlong).foldl CommandLog.press {} := by
      rw [recorded_eq, toCommandLog_feed]
      simp
    have hmin : min maxCommandLen (maxCommandLen + 1) - 1 = maxCommandLen - 1 := by omega
    rw [hfeed, hkeys, List.foldl_append, foldl_press_replicate _ _ (Nat.zero_le _)]
    simp only [List.foldl_cons, List.foldl_nil, CommandLog.press, backspace_eq, List.nil_append,
      List.take_replicate, List.dropLast_replicate, CommandLog.commit, trimBytes_replicate, hmin,
      if_neg (hsome (by decide : 0 < maxCommandLen - 1)), if_neg (by decide : ¬0 ≥ maxCommands),
      List.length_nil]
  have htyped : typedCommands overlong = [List.replicate maxCommandLen 0x61] := by
    rw [typedCommands, hkeys, typedLines_replicate, List.nil_append]
    simp only [typedLines, List.dropLast_replicate, List.map_cons, List.map_nil,
      trimBytes_replicate, Nat.add_sub_cancel]
    exact List.filter_cons_of_pos (decide_eq_true (hsome (by decide)))
  refine ⟨hshort, fun h => ?_⟩
  have hright := (h [⟨false, overlong⟩] (List.append_nil _)).1
  rw [hshort, htyped] at hright
  have hlengths := congrArg (List.map List.length) hright
  simp only [List.map_take, List.map_cons, List.map_nil, List.length_replicate,
    List.length_take] at hlengths
  exact absurd hlengths (by decide)

end KaaS
