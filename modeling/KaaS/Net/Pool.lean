import KaaS.Domain.Desired
import KaaS.Library.Inet

/-!
# The networks of KVM clusters

Every KVM cluster has a node network of its own. `Netpool.allocate` takes the one the request
names, or the first free block of the platform's supernet, and refuses what overlaps a reserved
range or the network of a live cluster. The block is stored as text, and the gateway, the API VIP
and the load balancer's address are read off that text.

What is allocated is a block that is **disjoint** from every reserved range and every used network
(`Netpool.exists_block_of_allocate`), and large enough for the three addresses to be different
hosts of it (`Netpool.hosts_of_block`).
-/

namespace KaaS.Netpool

open Text Guard Inet

structure Settings where
  supernet : String := "10.200.0.0/16"
  /-- `KAAS_NET_PREFIX` -/
  blockLength : Int := 24
  reserved : String := join "," ["10.244.0.0/16", "10.96.0.0/12", "10.88.0.0/16", "10.89.0.0/16",
    "192.168.122.0/24"]

def minPrefix : ℕ := 16

def maxPrefix : ℕ := 28

def vipOffsetFromTop : ℕ := 6

def lbOffsetFromTop : ℕ := 7

/-- A network, or the error of `net.ParseCIDR`. -/
def readCIDR (s : String) : Except String Net :=
  match parseCIDR s with
  | some n => pure n
  | none => throw ("invalid CIDR address: " ++ s)

/-- The network of the list that overlaps, or nothing. -/
def overlapName (n : Net) (list : List Net) : String :=
  match list.find? fun o => n.contains o.ip || o.contains n.ip with
  | some o => o.text
  | none => ""

def overlaps (n : Net) (list : List Net) : Bool := overlapName n list != ""

def usedNets (existing : List Cluster) : List Net :=
  (existing.filter fun c => c.deletedAt.isNone && c.networkCIDR != "").filterMap fun c =>
    parseCIDR c.networkCIDR

def reservedNets (cfg : Settings) : Except String (List Net) :=
  (((split cfg.reserved ',').map trimSpace).filter (· != "")).mapM fun s =>
    (readCIDR s).mapError fun e => "KAAS_NET_RESERVED entry " ++ quote s ++ " invalid: " ++ e

def validateRequested (requested : String) (reserved used : List Net) : Except String String := do
  let n ← (readCIDR (trimSpace requested)).mapError fun e =>
    "network_cidr " ++ quote requested ++ " is not a valid CIDR: " ++ e
  refuseIf ((to4 n.ip).isNone) ("network_cidr " ++ quote requested ++ " must be IPv4")
  refuseIf (n.ones < minPrefix ∨ n.ones > maxPrefix) ("network_cidr prefix /" ++ toString n.ones ++
    " out of range - must be between /" ++ toString minPrefix ++ " and /" ++ toString maxPrefix)
  refuseIf (overlaps n reserved) ("network_cidr " ++ n.text ++ " overlaps a reserved range (" ++
    overlapName n reserved ++ ") - pick a different block")
  refuseIf (overlaps n used) ("network_cidr " ++ n.text ++
    " overlaps another cluster's network (" ++ overlapName n used ++ ")")
  pure n.text

/-- The addresses from `start` up to `stop` in steps. The end is computed in 32 bits, so that a
supernet that ends with the address space has none. -/
def blockStarts (start stop step : ℕ) : List ℕ :=
  List.range' start ((stop - start + step - 1) / step) step

def autoAllocate (cfg : Settings) (reserved used : List Net) : Except String String := do
  let super ← (readCIDR cfg.supernet).mapError fun e => "KAAS_NET_SUPERNET invalid: " ++ e
  match to4 super.ip with
  | none => throw ("KAAS_NET_SUPERNET " ++ super.text ++ " must be IPv4")
  | some start =>
    refuseIf (cfg.blockLength < super.ones ∨ cfg.blockLength > maxPrefix) ("KAAS_NET_PREFIX /" ++
      toString cfg.blockLength ++ " invalid for supernet " ++ super.text ++ " (must be between /" ++
      toString super.ones ++ " and /" ++ toString maxPrefix ++ ")")
    let length := cfg.blockLength.toNat
    let stop := (start + 2 ^ super.hostBits % 2 ^ 32) % 2 ^ 32
    let step := 2 ^ (super.bits - length) % 2 ^ 32
    let candidate (addr : ℕ) : Net := ⟨ofV4 addr, length, super.bits⟩
    match (blockStarts start stop step).find? fun addr =>
        !(overlaps (candidate addr) reserved || overlaps (candidate addr) used) with
    | some addr => pure (candidate addr).text
    | none => throw ("no free /" ++ toString length ++ " network available in supernet " ++
        super.text ++ " (too many clusters)")

def allocate (cfg : Settings) (existing : List Cluster) (requested : String) :
    Except String String := do
  let reserved ← reservedNets cfg
  let used := usedNets existing
  if trimSpace requested ≠ "" then validateRequested requested reserved used
  else autoAllocate cfg reserved used

/-- The first address of a stored network, and how many it has in 32 bits. -/
def networkAndSize (cidr : String) : Except String (ℕ × ℕ) := do
  let n ← (readCIDR cidr).mapError fun e => "network " ++ quote cidr ++ ": " ++ e
  match to4 n.ip with
  | none => throw ("network " ++ quote cidr ++ " is not IPv4")
  | some network => pure (network, 2 ^ n.hostBits % 2 ^ 32)

/-- A host so far from the top of a network, or nearer to it where the network is tiny. -/
def highHost (offset fallback : ℕ) (cidr : String) : Except String String := do
  let n ← networkAndSize cidr
  let off := if n.2 < offset + 3 then fallback else offset
  pure (dotted ((n.1 + n.2 + 2 ^ 32 - off) % 2 ^ 32))

def vip : String → Except String String := highHost vipOffsetFromTop 2

def loadBalancerIP : String → Except String String := highHost lbOffsetFromTop 3

def gateway (cidr : String) : Except String String := do
  let n ← networkAndSize cidr
  pure (dotted ((n.1 + 1) % 2 ^ 32))

/-! ### What is allocated -/

private theorem text_ne_empty (n : Net) : n.text ≠ "" := by
  intro h
  have hslash : '/' ∈ n.text.toList := by
    unfold Net.text
    split <;> simp
  simp [h] at hslash

theorem disjoint_of_overlaps {n : Net} {list : List Net} (h : overlaps n list = false) :
    ∀ o ∈ list, n.Disjoint o := by
  intro o ho
  simp only [overlaps, overlapName, bne_eq_false_iff_eq] at h
  split at h
  · exact absurd h (text_ne_empty _)
  · rename_i hnone
    have hno := List.find?_eq_none.mp hnone o ho
    simp only [Bool.or_eq_true, not_or, Bool.not_eq_true] at hno
    exact Net.disjoint_of_contains hno.1 hno.2

theorem readCIDR_eq_ok {s : String} {n : Net} : readCIDR s = .ok n ↔ parseCIDR s = some n := by
  unfold readCIDR
  split <;> simp [*]

/-- A block that may become a cluster's network. -/
structure Admissible (reserved used : List Net) (b : Block) : Prop where
  one_le : 1 ≤ b.ones
  le_max : b.ones ≤ maxPrefix
  clear : ∀ r ∈ reserved, b.net.Disjoint r
  free : ∀ n ∈ used, b.net.Disjoint n

private theorem exists_block_of_validateRequested {requested text : String}
    {reserved used : List Net} (h : validateRequested requested reserved used = .ok text) :
    ∃ b, Admissible reserved used b ∧ text = b.net.text := by
  simp only [validateRequested, bind_eq_ok, mapError_eq_ok, readCIDR_eq_ok, refuseIf_eq_ok,
    pure_eq_ok, not_or, Bool.not_eq_true, Option.isNone_eq_false_iff] at h
  obtain ⟨n, hn, -, h4, -, ⟨hmin, hmax⟩, -, hreserved, -, hused, rfl⟩ := h
  obtain ⟨base, hbase⟩ := Option.isSome_iff_exists.mp h4
  simp only [minPrefix, maxPrefix] at hmin hmax
  obtain ⟨b, rfl⟩ := exists_net_eq hn hbase (by omega)
  have hones : b.net.ones = b.ones := rfl
  exact ⟨b, ⟨by omega, by simp only [maxPrefix]; omega, disjoint_of_overlaps hreserved,
    disjoint_of_overlaps hused⟩, rfl⟩

theorem mem_blockStarts {start stop step addr : ℕ}
    (h : addr ∈ blockStarts start stop step) :
    start ≤ addr ∧ addr < stop ∧ ∃ i, addr = start + step * i := by
  obtain ⟨i, hi, rfl⟩ := List.mem_range'.mp h
  rcases Nat.eq_zero_or_pos step with rfl | hstep
  · simp at hi
  · refine ⟨Nat.le_add_right _ _, ?_, i, rfl⟩
    have hle := (Nat.le_div_iff_mul_le hstep).mp (Nat.succ_le_of_lt hi)
    rw [Nat.succ_mul, Nat.mul_comm i] at hle
    omega

private theorem exists_block_of_autoAllocate {cfg : Settings} {text : String}
    {reserved used : List Net} (h : autoAllocate cfg reserved used = .ok text) :
    ∃ b, Admissible reserved used b ∧ text = b.net.text := by
  simp only [autoAllocate, bind_eq_ok, mapError_eq_ok, readCIDR_eq_ok] at h
  obtain ⟨super, hsuper, h⟩ := h
  split at h
  · simp at h
  · rename_i start hstart
    simp only [bind_eq_ok, refuseIf_eq_ok, not_or, Int.not_lt] at h
    obtain ⟨-, ⟨hle, hmax⟩, h⟩ := h
    obtain ⟨length, hlength⟩ := Int.eq_ofNat_of_zero_le (Int.le_trans (Int.natCast_nonneg _) hle)
    simp only [hlength, maxPrefix, Int.toNat_natCast] at hle hmax h
    obtain ⟨super, rfl⟩ := exists_net_eq hsuper hstart (by omega)
    obtain rfl : super.base = start := Option.some.inj (super.to4_net.symm.trans hstart)
    split at h
    · rename_i addr hfind
      obtain ⟨hlow, hhigh, i, haddr⟩ := mem_blockStarts (List.mem_of_find?_eq_some hfind)
      have hfree := List.find?_some hfind
      simp only [Bool.not_eq_true', Bool.or_eq_false_iff] at hfree
      rw [pure_eq_ok] at h
      have hones : super.net.ones = super.ones := rfl
      -- a supernet of all addresses has no size in 32 bits, and the loop is not entered
      have hpos : 1 ≤ super.ones := by
        refine Nat.one_le_iff_ne_zero.mpr fun hzero => ?_
        have hbase := super.base_lt
        simp only [Block.hostBits_net, hzero] at hhigh
        omega
      have hlt : addr < 2 ^ 32 := hhigh.trans (Nat.mod_lt _ (by omega))
      have hstep : 2 ^ (32 - length) % 2 ^ 32 = 2 ^ (32 - length) :=
        Nat.mod_eq_of_lt (Nat.pow_lt_pow_right (by omega) (by omega))
      have haligned : 2 ^ (32 - length) ∣ addr := by
        rw [haddr]
        refine Nat.dvd_add ((Nat.pow_dvd_pow 2 (by omega)).trans super.aligned) ?_
        rw [Block.bits_net, hstep]
        exact Nat.dvd_mul_right _ i
      exact ⟨⟨addr, length, by omega, hlt, haligned⟩, ⟨by simp only; omega, by
        simp only [maxPrefix]; omega, disjoint_of_overlaps hfree.1, disjoint_of_overlaps hfree.2⟩,
        h.symm⟩
    · simp at h

/-- **What is allocated** is a block that overlaps neither a reserved range nor a used network. -/
theorem exists_block_of_allocate {cfg : Settings} {existing : List Cluster}
    {requested text : String} (h : allocate cfg existing requested = .ok text) :
    ∃ reserved b, reservedNets cfg = .ok reserved ∧
      Admissible reserved (usedNets existing) b ∧ text = b.net.text := by
  simp only [allocate, bind_eq_ok] at h
  obtain ⟨reserved, hreserved, h⟩ := h
  split at h
  · obtain ⟨b, hb, htext⟩ := exists_block_of_validateRequested h
    exact ⟨reserved, b, hreserved, hb, htext⟩
  · obtain ⟨b, hb, htext⟩ := exists_block_of_autoAllocate h
    exact ⟨reserved, b, hreserved, hb, htext⟩

/-! ### The addresses of a network -/

section Hosts

variable {b : Block}

private theorem host_of_lt {x : ℕ} (hlow : b.base < x) (hhigh : x + 1 < b.base + b.size) :
    b.net.Host x :=
  ⟨b.base, b.to4_net, hlow, hhigh⟩

private theorem networkAndSize_text (hone : 1 ≤ b.ones) :
    networkAndSize b.net.text = .ok (b.base, b.size) := by
  have hsize : 2 ^ b.net.hostBits % 2 ^ 32 = b.size :=
    Nat.mod_eq_of_lt (Nat.pow_lt_pow_right (by omega) (by simp only [Block.hostBits_net]; omega))
  simp only [networkAndSize, bind_eq_ok, mapError_eq_ok, readCIDR_eq_ok]
  refine ⟨b.net, b.parseCIDR_text, ?_⟩
  simp only [Block.to4_net, hsize, pure_eq_ok]

private theorem sixteen_le_size (hmax : b.ones ≤ maxPrefix) : 16 ≤ b.size := by
  simp only [maxPrefix] at hmax
  exact Nat.pow_le_pow_right (n := 2) (by omega) (by omega : 4 ≤ 32 - b.ones)

private theorem highHost_text {offset fallback : ℕ} (hone : 1 ≤ b.ones) (hpos : 0 < offset)
    (hoffset : offset + 3 ≤ b.size) :
    highHost offset fallback b.net.text = .ok (dotted (b.base + b.size - offset)) := by
  have hend := b.base_add_size_le
  simp only [highHost, bind_eq_ok, pure_eq_ok]
  refine ⟨(b.base, b.size), networkAndSize_text hone, congrArg dotted ?_⟩
  simp only [Nat.not_lt.mpr hoffset, if_false]
  omega

theorem highHosts_of_block (hone : 1 ≤ b.ones) (hmax : b.ones ≤ maxPrefix) :
    16 ≤ b.size ∧ vip b.net.text = .ok (dotted (b.base + b.size - 6)) ∧
      loadBalancerIP b.net.text = .ok (dotted (b.base + b.size - 7)) := by
  have hsize := sixteen_le_size hmax
  exact ⟨hsize, highHost_text hone (by decide) (by simp only [vipOffsetFromTop]; omega),
    highHost_text hone (by decide) (by simp only [lbOffsetFromTop]; omega)⟩

/-- **The gateway, the VIP and the load balancer's address** of an allocated network are three
different hosts of it, the gateway the first. -/
theorem hosts_of_block (hone : 1 ≤ b.ones) (hmax : b.ones ≤ maxPrefix) :
    ∃ v l, gateway b.net.text = .ok (dotted (b.base + 1)) ∧ vip b.net.text = .ok (dotted v) ∧
      loadBalancerIP b.net.text = .ok (dotted l) ∧ b.net.Host (b.base + 1) ∧ b.net.Host v ∧
      b.net.Host l ∧ b.base + 1 ≠ v ∧ b.base + 1 ≠ l ∧ v ≠ l := by
  obtain ⟨hsize, hvip, hlb⟩ := highHosts_of_block hone hmax
  have hend := b.base_add_size_le
  refine ⟨b.base + b.size - 6, b.base + b.size - 7, ?_, hvip, hlb, ?_⟩
  · simp only [gateway, bind_eq_ok, pure_eq_ok]
    exact ⟨_, networkAndSize_text hone, congrArg dotted (Nat.mod_eq_of_lt (by omega))⟩
  · exact ⟨host_of_lt (by omega) (by omega), host_of_lt (by omega) (by omega),
      host_of_lt (by omega) (by omega), by omega, by omega, by omega⟩

end Hosts

end KaaS.Netpool
