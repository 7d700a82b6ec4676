import KaaS.Net.Pool

/-!
# Addresses on a shared network

Where clusters share the operator's network, node addresses come from a range of it:
`Netpool.allocateStatic` takes the lowest addresses of the range that are not in use. What is in
use is a set of **texts**; an allocated address is written in dotted decimal, so the comparison
decides what it should where the texts in use are dotted decimal, too.
-/

namespace KaaS.Netpool

open Text Guard Inet

def parseRange (spec : String) : Except String (ℕ × ℕ) :=
  match cut (trimSpace spec).toList '-' with
  | none => throw ("ip range " ++ quote spec ++ " must be \"<from>-<to>\"")
  | some (first, last) =>
    match (parseIP (trimSpace (String.ofList first))).bind to4,
        (parseIP (trimSpace (String.ofList last))).bind to4 with
    | some from4, some last4 => do
      refuseIf (from4 > last4) ("ip range " ++ quote spec ++ " is inverted (from > to)")
      pure (from4, last4)
    | _, _ => throw ("ip range " ++ quote spec ++ " must be two IPv4 addresses")

/-- The text is a usable host of the network. -/
def containsIP (cidr ip : String) : Except String Bool := do
  let n ← (readCIDR cidr).mapError fun e => "network " ++ quote cidr ++ ": " ++ e
  match (parseIP (trimSpace ip)).bind to4 with
  | none => throw ("ip " ++ quote ip ++ " is not a valid IPv4 address")
  | some v =>
    match to4 n.ip with
    -- an IPv6 network contains no IPv4 address
    | none => pure false
    | some network =>
      let size := 2 ^ n.hostBits % 2 ^ 32
      pure (n.contains (ofV4 v) &&
        !(v == network || v == (network + size + 2 ^ 32 - 1) % 2 ^ 32))

/-- The `n` lowest addresses of the range that are not in use. -/
def allocateStatic (rangeSpec cidr gateway : String) (used : List String) (n : ℕ) :
    Except String (List String) := do
  let range ← parseRange rangeSpec
  refuseIf ((containsIP cidr (dotted range.1)).toOption ≠ some true) ("ip range start " ++
    dotted range.1 ++ " is not a usable host in " ++ cidr)
  refuseIf ((containsIP cidr (dotted range.2)).toOption ≠ some true) ("ip range end " ++
    dotted range.2 ++ " is not a usable host in " ++ cidr)
  let free := ((List.range' range.1 (range.2 + 1 - range.1)).map dotted).filter fun ip =>
    !(used.contains ip || ip == gateway)
  let out := free.take n
  refuseIf (out.length < n) ("ip range " ++ rangeSpec ++ " exhausted: need " ++ toString n ++
    " addresses, only " ++ toString out.length ++ " free")
  pure out

/-! ### What is allocated -/

private theorem to4_parseIP {s : String} {v : ℕ} (h : (parseIP s).bind to4 = some v) :
    v < 2 ^ 32 ∧ parseIP s = some (ofV4 v) := by
  obtain ⟨x, hx, hv⟩ := Option.bind_eq_some_iff.mp h
  obtain ⟨hlt, rfl⟩ := to4_eq_some.mp hv
  exact ⟨hlt, hx⟩

/-- **What passes the check** is the text of a host of the network. -/
theorem host_of_containsIP {cidr ip : String} (h : containsIP cidr ip = .ok true) :
    ∃ n v, parseCIDR cidr = some n ∧ parseIP (trimSpace ip) = some (ofV4 v) ∧ v < 2 ^ 32 ∧
      n.Host v := by
  simp only [containsIP, bind_eq_ok, mapError_eq_ok, readCIDR_eq_ok] at h
  obtain ⟨n, hn, h⟩ := h
  split at h
  · simp at h
  · rename_i v hv
    obtain ⟨hlt, hip⟩ := to4_parseIP hv
    split at h
    · simp at h
    · rename_i network hnetwork
      simp only [pure_eq_ok, Bool.and_eq_true, Bool.not_eq_true', Bool.or_eq_false_iff,
        beq_eq_false_iff_ne] at h
      obtain ⟨hin, hfirst, hlast⟩ := h
      refine ⟨n, v, hn, hip, hlt, network, hnetwork, ?_⟩
      obtain ⟨hlow, hhigh⟩ := (contains_ofV4_iff hn hnetwork hlt).mp hin
      obtain ⟨b, rfl, -, hbits⟩ := exists_block hn hnetwork
      have hend := b.base_add_size_le
      rw [show b.size = 2 ^ b.net.hostBits from rfl, hbits] at hend
      -- a network of all addresses has no size in 32 bits
      have hsize : 2 ^ n.hostBits < 2 ^ 32 ∨ 2 ^ n.hostBits = 2 ^ 32 := by omega
      rcases hsize with hsize | hsize
      · rw [Nat.mod_eq_of_lt hsize] at hlast
        omega
      · rw [hsize] at *
        omega

private theorem host_of_containsIP_dotted {cidr : String} {x : ℕ} (hx : x < 2 ^ 32)
    (h : (containsIP cidr (dotted x)).toOption = some true) :
    ∃ n, parseCIDR cidr = some n ∧ n.Host x := by
  obtain ⟨n, v, hn, hip, -, hhost⟩ := host_of_containsIP (toOption_eq_some.mp h)
  rw [trimSpace_dotted, parseIP_dotted hx] at hip
  obtain rfl := ofV4_inj.mp (Option.some.inj hip)
  exact ⟨n, hn, hhost⟩

/-- **The check decides** whether an address is a usable host. -/
theorem containsIP_dotted_iff {cidr : String} {net : Net} {x : ℕ}
    (hcidr : parseCIDR cidr = some net) (hx : x < 2 ^ 32) :
    (containsIP cidr (dotted x)).toOption = some true ↔ net.Host x := by
  constructor
  · intro h
    obtain ⟨n, hn, hhost⟩ := host_of_containsIP_dotted hx h
    obtain rfl : net = n := Option.some.inj (hcidr.symm.trans hn)
    exact hhost
  · rintro ⟨base, hbase, hlow, hhigh⟩
    have hin : net.contains (ofV4 x) = true :=
      (contains_ofV4_iff hcidr hbase hx).mpr (by omega)
    obtain ⟨b, rfl, -, hbits⟩ := exists_block hcidr hbase
    have hend := b.base_add_size_le
    rw [show b.size = 2 ^ b.net.hostBits from rfl, hbits] at hend
    have hfirst : x ≠ b.base := by omega
    have hlast : x ≠ (b.base + 2 ^ net.hostBits % 2 ^ 32 + 2 ^ 32 - 1) % 2 ^ 32 := by
      rcases Nat.lt_or_ge (2 ^ net.hostBits) (2 ^ 32) with hsize | hsize
      · rw [Nat.mod_eq_of_lt hsize]
        omega
      -- the size of the whole address space is zero in 32 bits
      · have hall : 2 ^ net.hostBits = 2 ^ 32 := by omega
        rw [hall] at hhigh ⊢
        omega
    refine toOption_eq_some.mpr ?_
    simp only [containsIP, bind_eq_ok, mapError_eq_ok, readCIDR_eq_ok]
    refine ⟨net, hcidr, ?_⟩
    simp only [trimSpace_dotted, parseIP_dotted hx, Option.bind_some, to4_ofV4 hx, hbase, hin,
      beq_eq_false_iff_ne.mpr hfirst, beq_eq_false_iff_ne.mpr hlast]
    rfl

theorem parseRange_le {spec : String} {r : ℕ × ℕ} (h : parseRange spec = .ok r) :
    r.1 ≤ r.2 ∧ r.2 < 2 ^ 32 := by
  unfold parseRange at h
  split at h
  · simp at h
  · split at h
    · rename_i hfirst hlast
      simp only [bind_eq_ok, refuseIf_eq_ok, pure_eq_ok] at h
      obtain ⟨-, hle, rfl⟩ := h
      exact ⟨Nat.le_of_not_gt hle, (to4_parseIP hlast).1⟩
    · simp at h

/-- **Allocated addresses** are different hosts of the network in dotted decimal, none of them in
use or the gateway as a text. -/
theorem hosts_of_allocateStatic {rangeSpec cidr gateway : String} {used out : List String} {n : ℕ}
    (h : allocateStatic rangeSpec cidr gateway used n = .ok out) :
    out.length = n ∧ out.Nodup ∧ ∃ net, parseCIDR cidr = some net ∧
      ∀ ip ∈ out, (∃ v < 2 ^ 32, net.Host v ∧ ip = dotted v) ∧ ip ∉ used ∧ ip ≠ gateway := by
  simp only [allocateStatic, bind_eq_ok, refuseIf_eq_ok, not_not, Nat.not_lt, pure_eq_ok] at h
  obtain ⟨r, hr, -, hfirst, -, hlast, -, hlen, rfl⟩ := h
  obtain ⟨hle, hlt'⟩ := parseRange_le hr
  obtain ⟨net, hnet, base, hbase, hlow, -⟩ :=
    host_of_containsIP_dotted (hle.trans_lt hlt') hfirst
  obtain ⟨net', hnet', base', hbase', -, hhigh⟩ := host_of_containsIP_dotted hlt' hlast
  obtain rfl : net = net' := Option.some.inj (hnet.symm.trans hnet')
  obtain rfl : base = base' := Option.some.inj (hbase.symm.trans hbase')
  refine ⟨Nat.le_antisymm (List.length_take_le ..) hlen, ?_, net, hnet, fun ip hip => ?_⟩
  · refine ((List.Nodup.map_on ?_ List.nodup_range').filter _).sublist (List.take_sublist ..)
    intro x hx y hy hxy
    rw [List.mem_range'_1] at hx hy
    exact dotted_inj (by omega) (by omega) hxy
  · obtain ⟨hmem, hfree⟩ := List.mem_filter.mp (List.mem_of_mem_take hip)
    obtain ⟨v, hv, rfl⟩ := List.mem_map.mp hmem
    rw [List.mem_range'_1] at hv
    simp only [Bool.not_eq_true', Bool.or_eq_false_iff, beq_eq_false_iff_ne] at hfree
    refine ⟨⟨v, by omega, ⟨base, hbase, by omega, by omega⟩, rfl⟩, ?_, hfree.2⟩
    simpa using hfree.1

end KaaS.Netpool
