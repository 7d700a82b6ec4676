import KaaS.App.Addressing
import Mathlib.Data.Set.Card

/-!
# The scan of an address range

`allocateStatic` walks from the first address of the operator's range to the last with a counter of
32 bits. A range may end with **the last address there is**, and such a walk would not end; it is
never started, since the range is refused unless both its ends are usable hosts of the network, and
a usable host has an address after it. What the walk returns are the lowest free hosts, and it fails
exactly where there are too few of them.

The configuration checks that the range and the network can be read (`validateSharedNet`), not that
one lies in the other. A range that leaves the network, if only by its network address, is refused
at every allocation, however many of its addresses are free hosts.
-/

namespace KaaS.Netpool

open Text Guard Inet

/-! ### The loop -/

/-- The loop in 32-bit arithmetic, with a bound on its rounds; nothing if the bound is too low. -/
def scanStatic (taken : String → Bool) (last n : ℕ) : ℕ → ℕ → List String → Option (List String)
  | 0, _, _ => none
  | rounds + 1, v, out =>
    if v ≤ last ∧ out.length < n then
      let ip := dotted v
      scanStatic taken last n rounds ((v + 1) % 2 ^ 32) (if taken ip then out else out ++ [ip])
    else some out

/-- **The loop ends** after the last address, if there is one after that. -/
theorem scanStatic_eq {taken : String → Bool} {last n v left rounds : ℕ} {out : List String}
    (hlast : last + 1 < 2 ^ 32) (hleft : v + left = last + 1) (hrounds : left < rounds)
    (hout : out.length ≤ n) :
    scanStatic taken last n rounds v out =
      some ((out ++ ((List.range' v left).map dotted).filter fun ip => !taken ip).take n) := by
  induction left generalizing v rounds out with
  | zero =>
    obtain ⟨rounds, rfl⟩ := Nat.exists_eq_succ_of_ne_zero (Nat.ne_of_gt hrounds)
    rw [scanStatic, if_neg (by omega), List.range'_zero, List.map_nil, List.filter_nil,
      List.append_nil, List.take_of_length_le hout]
  | succ left ih =>
    obtain ⟨rounds, rfl⟩ := Nat.exists_eq_succ_of_ne_zero (Nat.ne_of_gt (by omega : 0 < rounds))
    have hwrap : (v + 1) % 2 ^ 32 = v + 1 := Nat.mod_eq_of_lt (by omega)
    have hnext : v + 1 + left = last + 1 := by omega
    have hround : left < rounds := by omega
    rw [scanStatic, List.range'_succ, List.map_cons, List.filter_cons, hwrap]
    rcases Nat.lt_or_ge out.length n with hmore | henough
    · rw [if_pos ⟨by omega, hmore⟩]
      cases htaken : taken (dotted v) with
      | true => simpa only [htaken, Bool.not_true, if_true, Bool.false_eq_true, if_false]
          using ih hnext hround hout
      | false =>
        have hone : (out ++ [dotted v]).length ≤ n := by
          rw [List.length_append, List.length_singleton]
          omega
        simpa only [htaken, List.append_assoc, List.singleton_append, Bool.not_false, if_true,
          Bool.false_eq_true, if_false] using ih hnext hround hone
    -- as many as asked for: what is left of the range is not looked at
    · rw [if_neg (by omega), List.take_append_of_le_length henough, List.take_of_length_le hout]

/-- What is checked of a range before the loop. -/
def staticBounds (rangeSpec cidr : String) : Except String (ℕ × ℕ) := do
  let range ← parseRange rangeSpec
  refuseIf ((containsIP cidr (dotted range.1)).toOption ≠ some true) ("ip range start " ++
    dotted range.1 ++ " is not a usable host in " ++ cidr)
  refuseIf ((containsIP cidr (dotted range.2)).toOption ≠ some true) ("ip range end " ++
    dotted range.2 ++ " is not a usable host in " ++ cidr)
  pure range

/-- The allocation with its loop, of so many rounds at most. -/
def allocateStaticWithin (rounds : ℕ) (rangeSpec cidr gateway : String) (used : List String)
    (n : ℕ) : Option (Except String (List String)) :=
  match staticBounds rangeSpec cidr with
  | .error e => some (.error e)
  | .ok range =>
    (scanStatic (fun ip => used.contains ip || ip == gateway) range.2 n rounds range.1 []).map
      fun out =>
        if out.length < n then .error ("ip range " ++ rangeSpec ++ " exhausted: need " ++
          toString n ++ " addresses, only " ++ toString out.length ++ " free")
        else .ok out

/-! ### What the loop returns -/

/-- **Free for a machine**: a usable host in the range, neither the gateway nor in use. -/
structure FreeHost (net : Net) (range : ℕ × ℕ) (gateway : ℕ) (used : List ℕ) (v : ℕ) : Prop where
  low : range.1 ≤ v
  high : v ≤ range.2
  host : net.Host v
  gateway : v ≠ gateway
  unused : v ∉ used

/-- The `n` lowest numbers with a property, in ascending order. -/
structure IsLowest (n : ℕ) (p : ℕ → Prop) (l : List ℕ) : Prop where
  length : l.length = n
  ascending : l.Pairwise (· < ·)
  sound : ∀ v ∈ l, p v
  lowest : ∀ v, p v → v ∉ l → ∀ w ∈ l, w < v

theorem isLowest_take {p : ℕ → Prop} {all : List ℕ} {n : ℕ} (hall : all.Pairwise (· < ·))
    (hmem : ∀ v, v ∈ all ↔ p v) (hn : n ≤ all.length) : IsLowest n p (all.take n) where
  length := List.length_take_of_le hn
  ascending := hall.sublist (List.take_sublist ..)
  sound v hv := (hmem v).mp (List.mem_of_mem_take hv)
  lowest v hv hout w hw := by
    have hsplit : v ∈ all.take n ++ all.drop n := by
      rw [List.take_append_drop]
      exact (hmem v).mpr hv
    rcases List.mem_append.mp hsplit with h | h
    · exact absurd h hout
    · rw [← List.take_append_drop n all] at hall
      exact (List.pairwise_append.mp hall).2.2 w hw v h

/-- **The allocation does what it is for**: it ends, what it returns are the texts of the lowest
free hosts, and it fails exactly where an end of the range is no usable host or the free hosts are
too few. -/
structure AllocatesHosts (rangeSpec cidr : String) (range : ℕ × ℕ) (net : Net) (gateway : ℕ)
    (used : List ℕ) (n : ℕ) : Prop where
  terminates : ∀ rounds > 2 ^ 32,
    allocateStaticWithin rounds rangeSpec cidr (dotted gateway) (used.map dotted) n =
      some (allocateStatic rangeSpec cidr (dotted gateway) (used.map dotted) n)
  lowest : ∀ out, allocateStatic rangeSpec cidr (dotted gateway) (used.map dotted) n = .ok out →
    ∃ l, IsLowest n (FreeHost net range gateway used) l ∧ out = l.map dotted
  fails_iff : (∃ e, allocateStatic rangeSpec cidr (dotted gateway) (used.map dotted) n = .error e) ↔
    ¬net.Host range.1 ∨ ¬net.Host range.2 ∨
      {v | FreeHost net range gateway used v}.ncard < n

section Allocation

variable {rangeSpec cidr : String} {range : ℕ × ℕ} {net : Net} {gateway n : ℕ} {used : List ℕ}

/-- The free hosts in ascending order, as numbers. -/
def freeHosts (range : ℕ × ℕ) (gateway : ℕ) (used : List ℕ) : List ℕ :=
  (List.range' range.1 (range.2 + 1 - range.1)).filter fun v => !(used.contains v || v == gateway)

private theorem host_lt (hcidr : parseCIDR cidr = some net) {v : ℕ} (h : net.Host v) :
    v + 1 < 2 ^ 32 := by
  obtain ⟨base, hbase, -, hhigh⟩ := h
  obtain ⟨b, rfl, -, hbits⟩ := exists_block hcidr hbase
  have hend := b.base_add_size_le
  rw [show b.size = 2 ^ b.net.hostBits from rfl, hbits] at hend
  omega

theorem mem_freeHosts_iff (hfirst : net.Host range.1) (hlast : net.Host range.2) {v : ℕ} :
    v ∈ freeHosts range gateway used ↔ FreeHost net range gateway used v := by
  obtain ⟨base, hbase, hlow, -⟩ := hfirst
  obtain ⟨base', hbase', -, hhigh⟩ := hlast
  obtain rfl : base = base' := Option.some.inj (hbase.symm.trans hbase')
  simp only [freeHosts, List.mem_filter, List.mem_range'_1, Bool.not_eq_true',
    Bool.or_eq_false_iff, beq_eq_false_iff_ne, List.contains_eq_mem, decide_eq_false_iff_not]
  constructor
  · rintro ⟨hv, hunused, hgateway⟩
    exact ⟨by omega, by omega, ⟨base, hbase, by omega, by omega⟩, hgateway, hunused⟩
  · intro h
    have hl := h.low
    have hh := h.high
    exact ⟨by omega, h.unused, h.gateway⟩

theorem ascending_freeHosts (range : ℕ × ℕ) (gateway : ℕ) (used : List ℕ) :
    (freeHosts range gateway used).Pairwise (· < ·) :=
  (List.pairwise_lt_range' 1).filter _

theorem filter_dotted_eq (hrange : range.2 < 2 ^ 32) (hgateway : gateway < 2 ^ 32)
    (hused : ∀ v ∈ used, v < 2 ^ 32) :
    (((List.range' range.1 (range.2 + 1 - range.1)).map dotted).filter fun ip =>
      !((used.map dotted).contains ip || ip == dotted gateway)) =
      (freeHosts range gateway used).map dotted := by
  rw [List.filter_map, freeHosts]
  congr 1
  refine List.filter_congr fun v hv => ?_
  rw [List.mem_range'_1] at hv
  have hlt : v < 2 ^ 32 := by omega
  have hcontains : (used.map dotted).contains (dotted v) = used.contains v := by
    simp only [List.contains_eq_mem, decide_eq_decide]
    constructor
    · intro h
      obtain ⟨u, hu, hdotted⟩ := List.mem_map.mp h
      obtain rfl := dotted_inj (hused u hu) hlt hdotted
      exact hu
    · exact List.mem_map_of_mem
  have hgate : (dotted v == dotted gateway) = (v == gateway) := by
    rw [Bool.eq_iff_iff, beq_iff_eq, beq_iff_eq]
    exact ⟨dotted_inj hlt hgateway, congrArg dotted⟩
  rw [Function.comp_apply, hcontains, hgate]

theorem staticBounds_eq_ok_iff (hrange : parseRange rangeSpec = .ok range)
    (hcidr : parseCIDR cidr = some net) {r : ℕ × ℕ} :
    staticBounds rangeSpec cidr = .ok r ↔ r = range ∧ net.Host range.1 ∧ net.Host range.2 := by
  obtain ⟨hle, hlt⟩ := parseRange_le hrange
  have hfirst := containsIP_dotted_iff hcidr (hle.trans_lt hlt)
  have hlast := containsIP_dotted_iff hcidr hlt
  simp only [staticBounds, hrange, bind_eq_ok, refuseIf_eq_ok, not_not, pure_eq_ok,
    Except.ok.injEq, exists_eq_left', hfirst, hlast]
  constructor
  · rintro ⟨-, h, -, h', rfl⟩
    exact ⟨rfl, h, h'⟩
  · rintro ⟨rfl, h, h'⟩
    exact ⟨(), h, (), h', rfl⟩

theorem allocateStatic_eq (gateway : String) (used : List String) (n : ℕ) :
    allocateStatic rangeSpec cidr gateway used n = (do
      let range ← staticBounds rangeSpec cidr
      let out := (((List.range' range.1 (range.2 + 1 - range.1)).map dotted).filter fun ip =>
        !(used.contains ip || ip == gateway)).take n
      refuseIf (out.length < n) ("ip range " ++ rangeSpec ++ " exhausted: need " ++ toString n ++
        " addresses, only " ++ toString out.length ++ " free")
      pure out) := by
  simp only [allocateStatic, staticBounds, bind_assoc, pure_bind]

/-- There are as many free hosts as the list has. -/
theorem ncard_freeHost (hfirst : net.Host range.1) (hlast : net.Host range.2) :
    {v | FreeHost net range gateway used v}.ncard = (freeHosts range gateway used).length := by
  have hset : {v | FreeHost net range gateway used v} =
      ((freeHosts range gateway used).toFinset : Set ℕ) := by
    ext v
    rw [Finset.mem_coe, List.mem_toFinset, mem_freeHosts_iff hfirst hlast]
    rfl
  have hnodup : (freeHosts range gateway used).Nodup :=
    (ascending_freeHosts range gateway used).imp Nat.ne_of_lt
  rw [hset, Set.ncard_coe_finset, List.toFinset_card_of_nodup hnodup]

theorem allocateStaticWithin_eq (hrange : parseRange rangeSpec = .ok range)
    (hcidr : parseCIDR cidr = some net) (gateway : String) (used : List String) {rounds : ℕ}
    (hrounds : rounds > 2 ^ 32) :
    allocateStaticWithin rounds rangeSpec cidr gateway used n =
      some (allocateStatic rangeSpec cidr gateway used n) := by
  rw [allocateStaticWithin, allocateStatic_eq]
  cases hbounds : staticBounds rangeSpec cidr with
  | error e => rfl
  | ok r =>
    obtain ⟨rfl, -, hlast⟩ := (staticBounds_eq_ok_iff hrange hcidr).mp hbounds
    have hle := (parseRange_le hrange).1
    have hend := host_lt hcidr hlast
    have hleft : r.1 + (r.2 + 1 - r.1) = r.2 + 1 := by omega
    have henough : r.2 + 1 - r.1 < rounds := by omega
    have hscan (taken : String → Bool) : scanStatic taken r.2 n rounds r.1 [] = _ :=
      scanStatic_eq hend hleft henough (Nat.zero_le n)
    simp only [hscan, List.nil_append, Option.map_some, bind, Except.bind, refuseIf]
    split_ifs <;> rfl

/-- **An allocation from a range that was read**, with the gateway and what is in use in dotted
decimal. -/
theorem allocatesHosts (rangeSpec cidr : String) (range : ℕ × ℕ) (net : Net) (gateway : ℕ)
    (used : List ℕ) (n : ℕ) (hrange : parseRange rangeSpec = .ok range)
    (hcidr : parseCIDR cidr = some net) (hgateway : gateway < 2 ^ 32)
    (hused : ∀ v ∈ used, v < 2 ^ 32) :
    AllocatesHosts rangeSpec cidr range net gateway used n := by
  have hbounds {r : ℕ × ℕ} := staticBounds_eq_ok_iff (r := r) hrange hcidr
  have hfree := filter_dotted_eq (parseRange_le hrange).2 hgateway hused
  have hok (out : List String) :
      allocateStatic rangeSpec cidr (dotted gateway) (used.map dotted) n = .ok out ↔
        (net.Host range.1 ∧ net.Host range.2) ∧ n ≤ (freeHosts range gateway used).length ∧
          out = ((freeHosts range gateway used).take n).map dotted := by
    simp only [allocateStatic_eq, bind_eq_ok, refuseIf_eq_ok, pure_eq_ok, hbounds]
    constructor
    · rintro ⟨r, ⟨rfl, hends⟩, -, hlen, rfl⟩
      rw [hfree, ← List.map_take] at hlen ⊢
      rw [List.length_map, List.length_take] at hlen
      exact ⟨hends, by omega, rfl⟩
    · rintro ⟨hends, hlen, rfl⟩
      refine ⟨range, ⟨rfl, hends⟩, (), ?_, ?_⟩
      · rw [hfree, ← List.map_take, List.length_map, List.length_take]
        omega
      · rw [hfree, ← List.map_take]
  refine ⟨fun rounds => allocateStaticWithin_eq hrange hcidr _ _, fun out h => ?_, ?_⟩
  · obtain ⟨hends, hlen, rfl⟩ := (hok out).mp h
    exact ⟨_, isLowest_take (ascending_freeHosts range gateway used)
      (fun v => mem_freeHosts_iff hends.1 hends.2) hlen, rfl⟩
  · constructor
    · rintro ⟨e, he⟩
      by_contra hnot
      push Not at hnot
      obtain ⟨hfirst, hlast, hcard⟩ := hnot
      rw [ncard_freeHost hfirst hlast] at hcard
      rw [(hok _).mpr ⟨⟨hfirst, hlast⟩, hcard, rfl⟩] at he
      simp at he
    · intro hfew
      cases hres : allocateStatic rangeSpec cidr (dotted gateway) (used.map dotted) n with
      | error e => exact ⟨e, rfl⟩
      | ok out =>
        obtain ⟨⟨hfirst, hlast⟩, hlen, -⟩ := (hok out).mp hres
        rw [ncard_freeHost hfirst hlast] at hfew
        rcases hfew with h | h | h
        · exact absurd hfirst h
        · exact absurd hlast h
        · omega

/-- A range whose first address is in use and whose second is the gateway. -/
theorem allocatesHosts_labRange :
    parseRange " 172.23.252.50 - 172.23.252.60 " = .ok (2887253042, 2887253052) ∧
      AllocatesHosts " 172.23.252.50 - 172.23.252.60 " "172.23.252.0/24" (2887253042, 2887253052)
        ⟨ofV4 2887252992, 24, 32⟩ 2887253043 [2887253042] 3 := by
  have hrange : parseRange " 172.23.252.50 - 172.23.252.60 " = .ok (2887253042, 2887253052) := by
    decide +kernel
  exact ⟨hrange, allocatesHosts _ _ _ _ _ _ _ hrange (by decide +kernel) (by decide)
    (by decide)⟩

/-- A shared network whose range starts at the network address. -/
def fromTheFirst : SharedNetSettings where
  network := "vlan7"
  netMode := "static"
  netCIDR := "10.0.0.0/24"
  netGateway := "10.0.0.254"
  netDNS := "10.0.0.254"
  netRange := "10.0.0.0-10.0.0.20"

/-- **A range that starts at the network address** is accepted by the configuration, and nothing is
allocated from it, though its twenty other addresses are free hosts. -/
theorem range_refused :
    validateSharedNet fromTheFirst "KAAS_VSPHERE" = .ok () ∧
      parseRange fromTheFirst.netRange = .ok (167772160, 167772180) ∧
      parseCIDR fromTheFirst.netCIDR = some ⟨ofV4 167772160, 24, 32⟩ ∧
      fromTheFirst.netGateway = dotted 167772414 ∧
      (∀ v ∈ List.range' 167772161 20,
        FreeHost ⟨ofV4 167772160, 24, 32⟩ (167772160, 167772180) 167772414 [] v) ∧
      allocateStatic fromTheFirst.netRange fromTheFirst.netCIDR fromTheFirst.netGateway [] 1 =
        .error "ip range start 10.0.0.0 is not a usable host in 10.0.0.0/24" := by
  refine ⟨by decide +kernel, by decide +kernel, by decide +kernel, by decide +kernel,
    fun v hv => ?_, by decide +kernel⟩
  rw [List.mem_range'_1] at hv
  have hhost : (⟨ofV4 167772160, 24, 32⟩ : Net).Host v :=
    ⟨167772160, to4_ofV4 (by decide), by omega, by simp only [Net.hostBits]; omega⟩
  exact ⟨by omega, by omega, hhost, by omega, List.not_mem_nil⟩

end Allocation

end KaaS.Netpool
