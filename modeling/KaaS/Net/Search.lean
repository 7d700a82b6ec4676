import KaaS.Net.Pool

/-!
# The search for a free block

`autoAllocate` goes through the blocks of the supernet from the lowest on and takes the first that
overlaps nothing. Its loop counts in 32 bits and stops at the first address after the supernet. Of
a supernet that ends **with the address space** there is no such address: the bound is zero, the
loop is not entered, and the search reports that nothing is free. Everywhere else it finds the
lowest free block, and fails only where there is none.
-/

namespace KaaS.Netpool

open Text Guard Inet

/-! ### The loop -/

/-- The loop of the search in 32-bit arithmetic, with a bound on its rounds; nothing if the bound is
too low. -/
def searchFrom (free : ℕ → Bool) (start stop step : ℕ) : ℕ → ℕ → Option (Option ℕ)
  | 0, _ => none
  | rounds + 1, addr =>
    if addr < stop ∧ addr ≥ start then
      if free addr then some (some addr)
      else searchFrom free start stop step rounds ((addr + step) % 2 ^ 32)
    else some none

/-- **The loop ends** at the bound, after as many rounds as there are blocks left. -/
theorem searchFrom_eq {free : ℕ → Bool} {start stop step addr blocks rounds : ℕ}
    (hstart : start ≤ addr) (hstop : stop < 2 ^ 32) (hstep : 0 < step)
    (hblocks : addr + step * blocks = stop) (hrounds : blocks < rounds) :
    searchFrom free start stop step rounds addr =
      some ((List.range' addr blocks step).find? free) := by
  induction blocks generalizing addr rounds with
  | zero =>
    obtain ⟨rounds, rfl⟩ := Nat.exists_eq_succ_of_ne_zero (Nat.ne_of_gt hrounds)
    rw [searchFrom, if_neg (by omega)]
    rfl
  | succ blocks ih =>
    obtain ⟨rounds, rfl⟩ := Nat.exists_eq_succ_of_ne_zero (Nat.ne_of_gt (by omega : 0 < rounds))
    have hnext : addr + step + step * blocks = stop := by
      rw [← hblocks, Nat.mul_succ]
      omega
    have hinside : addr < stop ∧ addr ≥ start := by omega
    have hwrap : (addr + step) % 2 ^ 32 = addr + step := Nat.mod_eq_of_lt (by omega)
    rw [searchFrom, if_pos hinside, List.range'_succ, List.find?_cons]
    cases hfree : free addr with
    | true => rfl
    | false =>
      rw [if_neg (by simp), hwrap]
      exact ih (by omega) hnext (by omega)

/-! ### Blocks of a supernet -/

/-- **What the configuration accepts**: the checks before the search. -/
structure Accepted (cfg : Settings) (super : Net) (start : ℕ) : Prop where
  read : parseCIDR cfg.supernet = some super
  v4 : to4 super.ip = some start
  le : (super.ones : ℤ) ≤ cfg.blockLength
  max : cfg.blockLength ≤ maxPrefix

/-- A block of the wanted length inside the supernet that overlaps nothing. -/
structure Free (cfg : Settings) (super : Net) (start : ℕ) (reserved used : List Net) (b : Block) :
    Prop where
  ones : (b.ones : ℤ) = cfg.blockLength
  low : start ≤ b.base
  high : b.base + b.size ≤ start + 2 ^ super.hostBits
  clear : ∀ r ∈ reserved, b.net.Disjoint r
  free : ∀ n ∈ used, b.net.Disjoint n

/-- The address at which the loop stops and the distance of two blocks, in 32 bits. -/
def stopOf (super : Net) (start : ℕ) : ℕ := (start + 2 ^ super.hostBits % 2 ^ 32) % 2 ^ 32

def stepOf (cfg : Settings) (super : Net) : ℕ :=
  2 ^ (super.bits - cfg.blockLength.toNat) % 2 ^ 32

def isFree (cfg : Settings) (super : Net) (reserved used : List Net) (addr : ℕ) : Bool :=
  !(overlaps ⟨ofV4 addr, cfg.blockLength.toNat, super.bits⟩ reserved ||
    overlaps ⟨ofV4 addr, cfg.blockLength.toNat, super.bits⟩ used)

theorem overlaps_eq_false_iff {n : Net} {list : List Net} :
    overlaps n list = false ↔ ∀ o ∈ list, n.Disjoint o := by
  refine ⟨disjoint_of_overlaps, fun h => ?_⟩
  have hself (m : Net) : m.contains m.ip = true := Net.contains_iff.mpr ⟨rfl, rfl⟩
  have hnone : list.find? (fun o => n.contains o.ip || o.contains n.ip) = none := by
    refine List.find?_eq_none.mpr fun o ho hoverlap => ?_
    rcases Bool.or_eq_true_iff.mp hoverlap with hn | ho'
    · exact h o ho o.ip ⟨hn, hself o⟩
    · exact h o ho n.ip ⟨hself n, ho'⟩
  simp [overlaps, overlapName, hnone]

section Accepted

variable {cfg : Settings} {super : Net} {start : ℕ} {reserved used : List Net}

private theorem Accepted.exists_block (h : Accepted cfg super start) :
    ∃ b : Block, b.net = super ∧ b.base = start ∧ (b.ones : ℤ) ≤ cfg.blockLength := by
  have hle := h.le
  have hmax := h.max
  simp only [maxPrefix] at hmax
  obtain ⟨b, rfl⟩ := exists_net_eq h.read h.v4 (by omega)
  exact ⟨b, rfl, Option.some.inj (b.to4_net.symm.trans h.v4), hle⟩

theorem Accepted.autoAllocate_eq (h : Accepted cfg super start) (reserved used : List Net) :
    autoAllocate cfg reserved used =
      match (blockStarts start (stopOf super start) (stepOf cfg super)).find?
        (isFree cfg super reserved used) with
      | some addr => .ok (⟨ofV4 addr, cfg.blockLength.toNat, super.bits⟩ : Net).text
      | none => .error ("no free /" ++ toString cfg.blockLength.toNat ++
        " network available in supernet " ++ super.text ++ " (too many clusters)") := by
  have hread : readCIDR cfg.supernet = .ok super := readCIDR_eq_ok.mpr h.read
  have hchecked : ¬(cfg.blockLength < super.ones ∨ cfg.blockLength > maxPrefix) := by
    have hle := h.le
    have hmax := h.max
    omega
  simp only [autoAllocate, hread, Except.mapError, bind, Except.bind, h.v4, refuseIf,
    if_neg hchecked]
  rfl

/-- The supernet does not end with the address space. -/
theorem stopOf_eq (hend : start + 2 ^ super.hostBits < 2 ^ 32) :
    stopOf super start = start + 2 ^ super.hostBits := by
  rw [stopOf, Nat.mod_eq_of_lt (a := 2 ^ super.hostBits) (by omega), Nat.mod_eq_of_lt hend]

/-- The supernet ends with the address space. -/
theorem stopOf_eq_zero (h : Accepted cfg super start)
    (hend : ¬start + 2 ^ super.hostBits < 2 ^ 32) : stopOf super start = 0 := by
  obtain ⟨b, rfl, rfl, -⟩ := h.exists_block
  have hle : b.base + 2 ^ b.net.hostBits ≤ 2 ^ 32 := b.base_add_size_le
  have heq : b.base + 2 ^ b.net.hostBits = 2 ^ 32 := by omega
  rw [stopOf, Nat.add_mod_mod, heq, Nat.mod_self]

theorem blockStarts_zero (start step : ℕ) : blockStarts start 0 step = [] := by
  have hnone : (0 - start + step - 1) / step = 0 := by
    rcases Nat.eq_zero_or_pos step with rfl | hstep
    · exact Nat.div_zero _
    · exact Nat.div_eq_of_lt (by omega)
  rw [blockStarts, hnone, List.range'_zero]

private theorem stepOf_eq (h : Accepted cfg super start)
    (hend : start + 2 ^ super.hostBits < 2 ^ 32) :
    stepOf cfg super = 2 ^ (32 - cfg.blockLength.toNat) ∧ 0 < cfg.blockLength.toNat ∧
      stepOf cfg super ∣ start ∧ stepOf cfg super ∣ 2 ^ super.hostBits := by
  obtain ⟨b, rfl, rfl, hle⟩ := h.exists_block
  have hones : 0 < b.ones := by
    refine Nat.pos_of_ne_zero fun hzero => ?_
    simp only [Block.hostBits_net, hzero] at hend
    omega
  have hstep : stepOf cfg b.net = 2 ^ (32 - cfg.blockLength.toNat) :=
    Nat.mod_eq_of_lt (Nat.pow_lt_pow_right (by omega) (by simp only [Block.bits_net]; omega))
  have hdvd : 2 ^ (32 - cfg.blockLength.toNat) ∣ b.size := Nat.pow_dvd_pow 2 (by omega)
  rw [hstep]
  exact ⟨rfl, by omega, hdvd.trans b.aligned, hdvd⟩

/-- **The addresses of the loop** are the bases of the blocks in the supernet. -/
theorem mem_blockStarts_iff (h : Accepted cfg super start)
    (hend : start + 2 ^ super.hostBits < 2 ^ 32) {addr : ℕ} :
    addr ∈ blockStarts start (stopOf super start) (stepOf cfg super) ↔
      ∃ b : Block, b.base = addr ∧ (b.ones : ℤ) = cfg.blockLength ∧ start ≤ b.base ∧
        b.base + b.size ≤ start + 2 ^ super.hostBits := by
  obtain ⟨hstep, hpos, hstart, hsize⟩ := stepOf_eq h hend
  have hmax := h.max
  simp only [maxPrefix] at hmax
  rw [stopOf_eq hend]
  constructor
  · intro haddr
    obtain ⟨hlow, hhigh, i, hi⟩ := mem_blockStarts haddr
    have haligned : stepOf cfg super ∣ addr := by
      rw [hi]
      exact Nat.dvd_add hstart (Nat.dvd_mul_right _ i)
    refine ⟨⟨addr, cfg.blockLength.toNat, by omega, by omega, hstep ▸ haligned⟩, rfl, ?_, hlow, ?_⟩
    · simp only
      omega
    -- both ends are multiples of the distance, so the block does not stick out
    · obtain ⟨m, hm⟩ := Nat.dvd_add hstart hsize
      obtain ⟨k, hk⟩ := haligned
      show addr + 2 ^ (32 - cfg.blockLength.toNat) ≤ _
      rw [← hstep, hm, hk, ← Nat.mul_succ]
      rw [hm, hk] at hhigh
      exact Nat.mul_le_mul_left _ (Nat.lt_of_mul_lt_mul_left hhigh)
  · rintro ⟨b, rfl, hones, hlow, hhigh⟩
    have hb : b.ones = cfg.blockLength.toNat := by omega
    have hbsize : b.size = stepOf cfg super := by rw [hstep, ← hb]; rfl
    have haligned : stepOf cfg super ∣ b.base := hbsize ▸ b.aligned
    obtain ⟨i, hi⟩ := Nat.dvd_sub haligned hstart
    obtain ⟨m, hm⟩ := hsize
    have hspos : 0 < stepOf cfg super := hbsize ▸ b.size_pos
    have hcount : (start + 2 ^ super.hostBits - start + stepOf cfg super - 1) / stepOf cfg super
        = m := by
      rw [Nat.add_sub_cancel_left, hm, Nat.div_eq_iff hspos]
      rw [Nat.mul_comm]
      omega
    rw [blockStarts, hcount]
    refine List.mem_range'.mpr ⟨i, ?_, by omega⟩
    have hlt : stepOf cfg super * i < stepOf cfg super * m := by omega
    exact Nat.lt_of_mul_lt_mul_left hlt

theorem isFree_iff (h : Accepted cfg super start) {b : Block}
    (hones : (b.ones : ℤ) = cfg.blockLength) :
    isFree cfg super reserved used b.base = true ↔
      (∀ r ∈ reserved, b.net.Disjoint r) ∧ ∀ n ∈ used, b.net.Disjoint n := by
  obtain ⟨s, rfl, -, -⟩ := h.exists_block
  have hnet : (⟨ofV4 b.base, cfg.blockLength.toNat, s.net.bits⟩ : Net) = b.net := by
    rw [← hones]
    rfl
  rw [isFree, hnet, Bool.not_eq_true', Bool.or_eq_false_iff, overlaps_eq_false_iff,
    overlaps_eq_false_iff]

/-- **The search does what it is for**: it ends, what it returns is the lowest free block, and it
fails exactly where there is none. -/
structure AllocatesLowest (cfg : Settings) (super : Net) (start : ℕ) (reserved used : List Net) :
    Prop where
  terminates : ∃ enough, ∀ rounds ≥ enough,
    searchFrom (isFree cfg super reserved used) start (stopOf super start) (stepOf cfg super)
      rounds start = some ((blockStarts start (stopOf super start) (stepOf cfg super)).find?
        (isFree cfg super reserved used))
  lowest : ∀ text, autoAllocate cfg reserved used = .ok text →
    ∃ b, Free cfg super start reserved used b ∧ text = b.net.text ∧
      ∀ b', Free cfg super start reserved used b' → b.base ≤ b'.base
  fails_iff : (∃ e, autoAllocate cfg reserved used = .error e) ↔
    ∀ b, ¬Free cfg super start reserved used b

theorem searchFrom_terminates (h : Accepted cfg super start) :
    ∃ enough, ∀ rounds ≥ enough,
      searchFrom (isFree cfg super reserved used) start (stopOf super start) (stepOf cfg super)
        rounds start = some ((blockStarts start (stopOf super start) (stepOf cfg super)).find?
          (isFree cfg super reserved used)) := by
  by_cases hend : start + 2 ^ super.hostBits < 2 ^ 32
  · obtain ⟨hstep, -, -, m, hm⟩ := stepOf_eq h hend
    have hspos : 0 < stepOf cfg super := hstep ▸ Nat.two_pow_pos _
    have hcount : (start + 2 ^ super.hostBits - start + stepOf cfg super - 1) / stepOf cfg super
        = m := by
      rw [Nat.add_sub_cancel_left, hm, Nat.div_eq_iff hspos, Nat.mul_comm]
      omega
    refine ⟨m + 1, fun rounds hrounds => ?_⟩
    rw [stopOf_eq hend, blockStarts, hcount]
    exact searchFrom_eq le_rfl hend hspos (by rw [hm]) hrounds
  · refine ⟨1, fun rounds hrounds => ?_⟩
    obtain ⟨rounds, rfl⟩ := Nat.exists_eq_succ_of_ne_zero (Nat.ne_of_gt hrounds)
    rw [stopOf_eq_zero h hend, blockStarts_zero, searchFrom, if_neg (by omega)]
    rfl

private theorem free_of_find? (h : Accepted cfg super start)
    (hend : start + 2 ^ super.hostBits < 2 ^ 32) {addr : ℕ}
    (hfind : (blockStarts start (stopOf super start) (stepOf cfg super)).find?
      (isFree cfg super reserved used) = some addr) :
    ∃ b, Free cfg super start reserved used b ∧ b.base = addr ∧
      ∀ b', Free cfg super start reserved used b' → b.base ≤ b'.base := by
  obtain ⟨hfree, before, after, hsplit, hbefore⟩ := List.find?_eq_some_iff_append.mp hfind
  have hmem : addr ∈ blockStarts start (stopOf super start) (stepOf cfg super) :=
    List.mem_of_find?_eq_some hfind
  obtain ⟨b, rfl, hones, hlow, hhigh⟩ := (mem_blockStarts_iff h hend).mp hmem
  obtain ⟨hclear, hused⟩ := (isFree_iff h hones).mp hfree
  refine ⟨b, ⟨hones, hlow, hhigh, hclear, hused⟩, rfl, fun b' hb' => ?_⟩
  have hmem' := (mem_blockStarts_iff h hend).mpr ⟨b', rfl, hb'.ones, hb'.low, hb'.high⟩
  have hspos : 0 < stepOf cfg super := (stepOf_eq h hend).1 ▸ Nat.two_pow_pos _
  have hordered : (blockStarts start (stopOf super start) (stepOf cfg super)).Pairwise (· < ·) :=
    List.pairwise_lt_range' _ hspos
  rw [hsplit] at hmem' hordered
  rcases List.mem_append.mp hmem' with hmem' | hmem'
  · have hnot := hbefore _ hmem'
    rw [(isFree_iff h hb'.ones).mpr ⟨hb'.clear, hb'.free⟩] at hnot
    exact absurd hnot (by simp)
  · rcases List.mem_cons.mp hmem' with heq | hafter
    · exact heq.ge
    · exact ((List.pairwise_cons.mp (List.pairwise_append.mp hordered).2.1).1 _ hafter).le

private theorem not_free_of_find? (h : Accepted cfg super start)
    (hend : start + 2 ^ super.hostBits < 2 ^ 32)
    (hfind : (blockStarts start (stopOf super start) (stepOf cfg super)).find?
      (isFree cfg super reserved used) = none) (b : Block) :
    ¬Free cfg super start reserved used b := by
  intro hb
  have hmem := (mem_blockStarts_iff h hend).mpr ⟨b, rfl, hb.ones, hb.low, hb.high⟩
  have hfree := (isFree_iff h hb.ones).mpr ⟨hb.clear, hb.free⟩
  exact List.find?_eq_none.mp hfind _ hmem hfree

/-- A supernet that ends with the address space gives nothing. -/
theorem exists_error_of_wrap (h : Accepted cfg super start)
    (hend : ¬start + 2 ^ super.hostBits < 2 ^ 32) (reserved used : List Net) :
    ∃ e, autoAllocate cfg reserved used = .error e := by
  have heq := h.autoAllocate_eq reserved used
  rw [stopOf_eq_zero h hend, blockStarts_zero] at heq
  exact ⟨_, heq⟩

/-- The search is right exactly if the supernet does not end with the address space, or nothing in
it is free. -/
theorem allocatesLowest_iff (cfg : Settings) (super : Net) (start : ℕ) (reserved used : List Net)
    (h : Accepted cfg super start) :
    AllocatesLowest cfg super start reserved used ↔
      start + 2 ^ super.hostBits < 2 ^ 32 ∨ ∀ b, ¬Free cfg super start reserved used b := by
  have heq := h.autoAllocate_eq reserved used
  by_cases hend : start + 2 ^ super.hostBits < 2 ^ 32
  · refine ⟨fun _ => .inl hend, fun _ => ?_⟩
    cases hfind : (blockStarts start (stopOf super start) (stepOf cfg super)).find?
        (isFree cfg super reserved used) with
    | none =>
      have hnone := not_free_of_find? h hend hfind
      rw [hfind] at heq
      refine ⟨searchFrom_terminates h, fun text htext => ?_, fun _ => hnone, fun _ => ⟨_, heq⟩⟩
      rw [heq] at htext
      simp at htext
    | some addr =>
      obtain ⟨b, hb, rfl, hlowest⟩ := free_of_find? h hend hfind
      have hnet : (⟨ofV4 b.base, cfg.blockLength.toNat, super.bits⟩ : Net) = b.net := by
        obtain ⟨s, rfl, -, -⟩ := h.exists_block
        rw [← hb.ones]
        rfl
      rw [hfind] at heq
      simp only [hnet] at heq
      refine ⟨searchFrom_terminates h, fun text htext => ?_, ?_, fun hnone => ?_⟩
      · rw [heq] at htext
        exact ⟨b, hb, (Except.ok.inj htext).symm, hlowest⟩
      · rintro ⟨e, he⟩
        rw [heq] at he
        simp at he
      · exact absurd hb (hnone b)
  · obtain ⟨e, he⟩ := exists_error_of_wrap h hend reserved used
    refine ⟨fun hlowest => .inr (hlowest.fails_iff.mp ⟨e, he⟩), fun hcond => ?_⟩
    have hnone := hcond.resolve_left hend
    refine ⟨searchFrom_terminates h, fun text htext => ?_, fun _ => hnone, fun _ => ⟨e, he⟩⟩
    rw [he] at htext
    simp at htext

end Accepted

theorem accepted_upper :
    Accepted { supernet := "192.0.0.0/2" } ⟨ofV4 (192 * 2 ^ 24), 2, 32⟩ (192 * 2 ^ 24) :=
  ⟨by decide +kernel, by decide +kernel, by decide, by decide⟩

theorem allocatesLowest_default :
    AllocatesLowest {} ⟨ofV4 (10 * 2 ^ 24 + 200 * 2 ^ 16), 16, 32⟩ (10 * 2 ^ 24 + 200 * 2 ^ 16) []
      [] :=
  (allocatesLowest_iff _ _ _ [] [] ⟨by decide +kernel, by decide +kernel, by decide, by decide⟩).mpr
    (.inl (by decide))

/-- With every block free, nothing is allocated. -/
theorem nothing_allocated_upper :
    Accepted { supernet := "192.0.0.0/2" } ⟨ofV4 (192 * 2 ^ 24), 2, 32⟩ (192 * 2 ^ 24) ∧
    autoAllocate { supernet := "192.0.0.0/2" } [] [] =
      .error "no free /24 network available in supernet 192.0.0.0/2 (too many clusters)" ∧
    (∃ b, Free { supernet := "192.0.0.0/2" } ⟨ofV4 (192 * 2 ^ 24), 2, 32⟩ (192 * 2 ^ 24) [] [] b) ∧
    ¬AllocatesLowest { supernet := "192.0.0.0/2" } ⟨ofV4 (192 * 2 ^ 24), 2, 32⟩ (192 * 2 ^ 24) []
      [] := by
  have hfree : Free { supernet := "192.0.0.0/2" } ⟨ofV4 (192 * 2 ^ 24), 2, 32⟩ (192 * 2 ^ 24) [] []
      ⟨192 * 2 ^ 24, 24, by decide, by decide, by decide⟩ :=
    ⟨by decide, by decide, by decide, by simp, by simp⟩
  have herror : autoAllocate { supernet := "192.0.0.0/2" } [] [] =
      .error "no free /24 network available in supernet 192.0.0.0/2 (too many clusters)" := by
    rw [accepted_upper.autoAllocate_eq]
    decide +kernel
  exact ⟨accepted_upper, herror, ⟨_, hfree⟩, fun h => h.fails_iff.mp ⟨_, herror⟩ _ hfree⟩

end KaaS.Netpool
