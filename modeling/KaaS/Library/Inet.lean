import KaaS.Library.Text
import Mathlib.Data.List.Induction
import Mathlib.Tactic.IntervalCases

/-!
# Internet addresses and their texts

An address is a number of 128 bits, and the IPv4 addresses are a block of them. `parseAddr`
reads the texts that Go's `netip.ParseAddr` accepts: dotted decimal, and the groups of IPv6 with
an ellipsis or a dotted tail. Dotted decimal **has one text per address** (`parse4_eq_some`);
an IPv4 address has further texts in the IPv6 form.

A network is an address and the length of its mask (`Net`). Two networks that do not contain each
other's address are **disjoint** (`Net.disjoint_of_contains`). The IPv4 networks that are written
back in canonical form are `Block`s, whose base is aligned, and their text is read back as they
are (`Block.parseCIDR_text`).
-/

namespace Inet

/-! ### Addresses -/

/-- The IPv4 address `n` among the addresses of 128 bits. -/
def ofV4 (n : ℕ) : ℕ := 0xffff * 2 ^ 32 + n

/-- The IPv4 address that an address of 128 bits stands for. -/
def to4 (x : ℕ) : Option ℕ := if x / 2 ^ 32 = 0xffff then some (x % 2 ^ 32) else none

theorem to4_eq_some {x n : ℕ} : to4 x = some n ↔ n < 2 ^ 32 ∧ x = ofV4 n := by
  simp only [to4, ofV4, Option.ite_none_right_eq_some, Option.some.injEq]
  omega

theorem to4_ofV4 {n : ℕ} (h : n < 2 ^ 32) : to4 (ofV4 n) = some n := to4_eq_some.mpr ⟨h, rfl⟩

theorem ofV4_inj {m n : ℕ} : ofV4 m = ofV4 n ↔ m = n := Nat.add_left_cancel_iff

/-! ### Dotted decimal -/

/-- A field of a dotted decimal text: digits without a leading zero, at most 255. -/
def octet? (ds : List Char) : Option ℕ :=
  if ds ≠ [] ∧ ds.all Char.isDigit ∧ (ds.head? = some '0' → ds = ['0']) ∧
      Nat.ofDigitChars 10 ds 0 ≤ 255 then
    some (Nat.ofDigitChars 10 ds 0)
  else none

def parse4 (s : List Char) : Option ℕ :=
  match (s.splitOn '.').map octet? with
  | [some a, some b, some c, some d] => some (((a * 256 + b) * 256 + c) * 256 + d)
  | _ => none

def octets (n : ℕ) : List ℕ := [n / 2 ^ 24 % 256, n / 2 ^ 16 % 256, n / 2 ^ 8 % 256, n % 256]

/-- The dotted decimal text of an IPv4 address. -/
def dotted (n : ℕ) : String :=
  String.ofList (['.'].intercalate ((octets n).map (Nat.toDigits 10)))

private theorem exists_digitChar {ch : Char} (h : ch.isDigit = true) :
    ∃ k < 10, ch = Nat.digitChar k ∧ ch.toNat - '0'.toNat = k := by
  have hrange : 48 ≤ ch.toNat ∧ ch.toNat ≤ 57 := by
    simp only [Char.isDigit, Bool.and_eq_true, decide_eq_true_eq] at h
    exact h
  refine ⟨ch.toNat - 48, by omega, ?_, rfl⟩
  have hch : ch = Char.ofNat ch.toNat := (Char.ofNat_toNat ch).symm
  obtain ⟨hlo, hhi⟩ := hrange
  generalize ch.toNat = k at *
  subst hch
  interval_cases k <;> rfl

theorem toDigits_ofDigitChars {ds : List Char} (hne : ds ≠ []) (hdigits : ds.all Char.isDigit)
    (hlead : ds.head? = some '0' → ds = ['0']) :
    Nat.toDigits 10 (Nat.ofDigitChars 10 ds 0) = ds := by
  -- from the right, as a numeral grows
  induction ds using List.reverseRecOn with
  | nil => exact absurd rfl hne
  | append_singleton init d ih =>
    simp only [List.all_append, List.all_cons, List.all_nil, Bool.and_true,
      Bool.and_eq_true] at hdigits
    obtain ⟨k, hk, hd, hval⟩ := exists_digitChar hdigits.2
    rw [Nat.ofDigitChars_append, Nat.ofDigitChars_cons, Nat.ofDigitChars_nil, hval]
    by_cases hinit : init = []
    · subst hinit
      rw [List.nil_append, hd]
      simpa [Nat.ofDigitChars_nil] using Nat.toDigits_of_lt_base hk
    · have hhead : init.head? ≠ some '0' := by
        intro h
        have := hlead (by rw [List.head?_append_of_ne_nil _ hinit, h])
        have hnil := List.append_inj_left' (this.trans (List.nil_append ['0']).symm) rfl
        exact hinit hnil
      have hvalue := ih hinit hdigits.1 (fun h => absurd h hhead)
      have hpos : 0 < Nat.ofDigitChars 10 init 0 := by
        refine Nat.pos_of_ne_zero fun h => hhead ?_
        rw [← hvalue, h]
        rfl
      rw [← Nat.toDigits_append_toDigits (by omega) hpos hk, hvalue, Nat.toDigits_of_lt_base hk, hd]

/-- **An octet has one text.** -/
theorem octet?_eq_some {ds : List Char} {n : ℕ} :
    octet? ds = some n ↔ n ≤ 255 ∧ ds = Nat.toDigits 10 n := by
  constructor
  · intro h
    simp only [octet?, Option.ite_none_right_eq_some, Option.some.injEq] at h
    obtain ⟨⟨hne, hdigits, hlead, hle⟩, rfl⟩ := h
    exact ⟨hle, (toDigits_ofDigitChars hne hdigits hlead).symm⟩
  · rintro ⟨hle, rfl⟩
    have hall : ∀ n < 256, octet? (Nat.toDigits 10 n) = some n := by decide +kernel
    exact hall n (by omega)

private theorem dot_not_mem_toDigits (n : ℕ) : '.' ∉ Nat.toDigits 10 n := by
  intro h
  have hdigit := Nat.isDigit_of_mem_toDigits (by omega) le_rfl h
  simp at hdigit

/-- **Dotted decimal has one text per address.** -/
theorem parse4_eq_some {s : List Char} {n : ℕ} :
    parse4 s = some n ↔ n < 2 ^ 32 ∧ s = (dotted n).toList := by
  constructor
  · intro h
    unfold parse4 at h
    split at h
    · rename_i a b c d hfields
      obtain rfl := Option.some.inj h
      obtain ⟨fa, rest, hsplit, ha, hfields⟩ := List.map_eq_cons_iff.mp hfields
      obtain ⟨fb, rest, rfl, hb, hfields⟩ := List.map_eq_cons_iff.mp hfields
      obtain ⟨fc, rest, rfl, hc, hfields⟩ := List.map_eq_cons_iff.mp hfields
      obtain ⟨fd, rest, rfl, hd, hfields⟩ := List.map_eq_cons_iff.mp hfields
      obtain rfl := List.map_eq_nil_iff.mp hfields
      obtain ⟨ha, rfl⟩ := octet?_eq_some.mp ha
      obtain ⟨hb, rfl⟩ := octet?_eq_some.mp hb
      obtain ⟨hc, rfl⟩ := octet?_eq_some.mp hc
      obtain ⟨hd, rfl⟩ := octet?_eq_some.mp hd
      refine ⟨by omega, ?_⟩
      have hoctets : octets (((a * 256 + b) * 256 + c) * 256 + d) = [a, b, c, d] := by
        simp only [octets, List.cons.injEq, and_true]
        omega
      have hjoin : ['.'].intercalate (s.splitOn '.') = s := List.intercalate_splitOn '.'
      rw [dotted, String.toList_ofList, hoctets, ← hjoin, hsplit]
      rfl
    · simp at h
  · rintro ⟨hn, rfl⟩
    have hsplit : (dotted n).toList.splitOn '.' = (octets n).map (Nat.toDigits 10) := by
      rw [dotted, String.toList_ofList]
      refine List.splitOn_intercalate '.' (fun l hl => ?_) (by simp [octets])
      obtain ⟨m, -, rfl⟩ := List.mem_map.mp hl
      exact dot_not_mem_toDigits m
    have hoctets : ((octets n).map (Nat.toDigits 10)).map octet? = (octets n).map some := by
      rw [List.map_map]
      refine List.map_congr_left fun m hm => octet?_eq_some.mpr ⟨?_, rfl⟩
      simp only [octets, List.mem_cons, List.not_mem_nil, or_false] at hm
      omega
    simp only [parse4, hsplit, hoctets]
    simp only [octets, List.map_cons, List.map_nil, Option.some.injEq]
    omega

/-! ### Groups of IPv6 -/

def isHex (ch : Char) : Bool :=
  ch.isDigit || ('a' ≤ ch && ch ≤ 'f') || ('A' ≤ ch && ch ≤ 'F')

def hexVal (ch : Char) : ℕ :=
  if ch.isDigit then ch.toNat - '0'.toNat
  else if 'a' ≤ ch then ch.toNat - 'a'.toNat + 10
  else ch.toNat - 'A'.toNat + 10

def groupVal (ds : List Char) : ℕ := ds.foldl (fun acc ch => 16 * acc + hexVal ch) 0

/-- The groups of an IPv6 text: `groups` are those already read, `ellipsis` is how many of them
stand before the `::`. What was not read is returned with them. -/
def parseGroups (groups : List ℕ) (ellipsis : Option ℕ) (s : List Char) :
    (room : ℕ) → Option (List ℕ × Option ℕ × List Char)
  | 0 => some (groups, ellipsis, s)
  | room + 1 =>
    let hex := s.takeWhile isHex
    let next := groups ++ [groupVal hex]
    if hex = [] ∨ 4 < hex.length then none
    else
      match s.dropWhile isHex with
      | [] => some (next, ellipsis, [])
      | '.' :: _ =>
        -- a dotted tail takes two groups, and without an ellipsis only the last two
        if (ellipsis = none ∧ groups.length ≠ 6) ∨ 8 < groups.length + 2 then none
        else (parse4 s).map fun n => (groups ++ [n / 2 ^ 16, n % 2 ^ 16], ellipsis, [])
      | [':'] => none
      | ':' :: ':' :: rest =>
        if ellipsis.isSome then none
        else if rest = [] then some (next, some next.length, [])
        else parseGroups next (some next.length) rest room
      | ':' :: rest => parseGroups next ellipsis rest room
      | _ => none

def ofGroups (groups : List ℕ) : ℕ := groups.foldl (fun acc g => acc * 2 ^ 16 + g) 0

/-- The value of the groups read, with zeros in place of the ellipsis. -/
def expand (groups : List ℕ) (ellipsis : Option ℕ) : Option ℕ :=
  match ellipsis with
  | none => if groups.length < 8 then none else some (ofGroups groups)
  | some e =>
    if groups.length < 8 then
      some (ofGroups (groups.take e ++ List.replicate (8 - groups.length) 0 ++ groups.drop e))
    else none

def parse6 (s : List Char) : Option ℕ :=
  let (ellipsis, s) : Option ℕ × List Char :=
    match s with
    | ':' :: ':' :: rest => (some 0, rest)
    | _ => (none, s)
  if ellipsis.isSome ∧ s = [] then some 0
  else
    match parseGroups [] ellipsis s 8 with
    | some (groups, ellipsis, []) => expand groups ellipsis
    | _ => none

/-- The address of a text, with the number of bits of its family. The first of `.`, `:` and `%`
tells the family; an address with a zone is not one. -/
def parseAddr (s : List Char) : Option (ℕ × ℕ) :=
  match s.find? fun ch => ch == '.' || ch == ':' || ch == '%' with
  | some '.' => (parse4 s).map fun n => (ofV4 n, 32)
  | some ':' => (parse6 s).map fun x => (x, 128)
  | _ => none

def parseIP (s : String) : Option ℕ := (parseAddr s.toList).map (·.1)

/-- The groups of an address of 128 bits. -/
def groupsOf (x : ℕ) : List ℕ := (List.range 8).map fun i => x / 2 ^ (16 * (7 - i)) % 2 ^ 16

/-- Where the first longest run of at least two zero groups stands, and how long it is. -/
def zeroRun (groups : List ℕ) : Option (ℕ × ℕ) :=
  (List.range groups.length).foldl (fun best i =>
    let len := ((groups.drop i).takeWhile (· == 0)).length
    if 2 ≤ len ∧ (best.map (·.2)).getD 0 < len then some (i, len) else best) none

def ipText (x : ℕ) : String :=
  match to4 x with
  | some n => dotted n
  | none =>
    let hex (groups : List ℕ) : String :=
      String.ofList ([':'].intercalate (groups.map (Nat.toDigits 16)))
    match zeroRun (groupsOf x) with
    | none => hex (groupsOf x)
    | some (i, len) => hex ((groupsOf x).take i) ++ "::" ++ hex ((groupsOf x).drop (i + len))

private theorem mem_dotted {n : ℕ} {ch : Char} (h : ch ∈ (dotted n).toList) :
    ch.isDigit = true ∨ ch = '.' := by
  have hdigit (m : ℕ) (hm : ch ∈ Nat.toDigits 10 m) : ch.isDigit = true :=
    Nat.isDigit_of_mem_toDigits (by omega) le_rfl hm
  simp only [dotted, octets, String.toList_ofList, List.map_cons, List.map_nil, List.intercalate,
    List.intersperse, List.flatten_cons, List.flatten_nil, List.mem_append, List.mem_singleton,
    List.not_mem_nil, or_false] at h
  rcases h with h | h | h | h | h | h | h
  · exact .inl (hdigit _ h)
  · exact .inr h
  · exact .inl (hdigit _ h)
  · exact .inr h
  · exact .inl (hdigit _ h)
  · exact .inr h
  · exact .inl (hdigit _ h)

theorem not_mem_dotted {ch : Char} (h : ch.isDigit = false) (hdot : ch ≠ '.') (n : ℕ) :
    ch ∉ (dotted n).toList := by
  intro hmem
  rcases mem_dotted hmem with hdigit | rfl
  · simp [h] at hdigit
  · exact hdot rfl

theorem trimSpace_dotted (n : ℕ) : Text.trimSpace (dotted n) = dotted n := by
  refine Text.trimSpace_eq_self fun ch hch => ?_
  rcases mem_dotted hch with hdigit | rfl
  · obtain ⟨k, hk, rfl, -⟩ := exists_digitChar hdigit
    interval_cases k <;> rfl
  · rfl

private theorem dot_mem_dotted (n : ℕ) : '.' ∈ (dotted n).toList := by
  simp [dotted, octets, List.intercalate]

theorem dotted_ne_empty (n : ℕ) : dotted n ≠ "" := by
  intro h
  have hdot := dot_mem_dotted n
  simp [h] at hdot

theorem parseAddr_dotted {n : ℕ} (h : n < 2 ^ 32) :
    parseAddr (dotted n).toList = some (ofV4 n, 32) := by
  have hfind : ((dotted n).toList.find? fun ch => ch == '.' || ch == ':' || ch == '%') =
      some '.' := by
    obtain ⟨ch, hfind⟩ := Option.isSome_iff_exists.mp
      (List.find?_isSome.mpr ⟨'.', dot_mem_dotted n, by simp⟩ :
        ((dotted n).toList.find? fun ch => ch == '.' || ch == ':' || ch == '%').isSome)
    have hsep := List.find?_some hfind
    have hmem := List.mem_of_find?_eq_some hfind
    have hcolon : ch ≠ ':' := by
      rintro rfl
      exact not_mem_dotted (by decide) (by decide) n hmem
    have hzone : ch ≠ '%' := by
      rintro rfl
      exact not_mem_dotted (by decide) (by decide) n hmem
    have hdot : ch = '.' := by simpa [hcolon, hzone] using hsep
    rw [hfind, hdot]
  simp only [parseAddr, hfind, parse4_eq_some.mpr ⟨h, rfl⟩, Option.map_some]

theorem parseIP_dotted {n : ℕ} (h : n < 2 ^ 32) : parseIP (dotted n) = some (ofV4 n) := by
  rw [parseIP, parseAddr_dotted h, Option.map_some]

theorem dotted_inj {m n : ℕ} (hm : m < 2 ^ 32) (hn : n < 2 ^ 32) (h : dotted m = dotted n) :
    m = n := by
  have hparse := congrArg parseIP h
  rw [parseIP_dotted hm, parseIP_dotted hn] at hparse
  exact ofV4_inj.mp (Option.some.inj hparse)

/-- **A text without a colon** is an address only in dotted decimal. -/
theorem eq_dotted_of_parseIP {s : String} {x : ℕ} (hcolon : ':' ∉ s.toList)
    (h : parseIP s = some x) : ∃ n < 2 ^ 32, x = ofV4 n ∧ s = dotted n := by
  simp only [parseIP, Option.map_eq_some_iff] at h
  obtain ⟨p, hp, rfl⟩ := h
  unfold parseAddr at hp
  split at hp
  · obtain ⟨n, hn, rfl⟩ := Option.map_eq_some_iff.mp hp
    obtain ⟨hlt, hs⟩ := parse4_eq_some.mp hn
    exact ⟨n, hlt, rfl, String.toList_inj.mp hs⟩
  · rename_i hfind
    exact absurd (List.mem_of_find?_eq_some hfind) hcolon
  · simp at hp

/-! ### Networks -/

/-- A network: its address, the length of its mask, and the number of bits of its family. -/
structure Net where
  ip : ℕ
  ones : ℕ
  bits : ℕ
  deriving DecidableEq

namespace Net

def hostBits (n : Net) : ℕ := n.bits - n.ones

/-- An IPv4 network contains no other addresses than IPv4 ones, and no other network contains
those. -/
def contains (n : Net) (x : ℕ) : Bool :=
  (to4 n.ip).isSome == (to4 x).isSome && x / 2 ^ n.hostBits == n.ip / 2 ^ n.hostBits

def text (n : Net) : String :=
  if (to4 n.ip).isSome then ipText n.ip ++ "/" ++ toString (32 - n.hostBits)
  else ipText n.ip ++ "/" ++ toString n.ones

/-- A usable IPv4 address of a network: neither its first nor its last. -/
def Host (n : Net) (v : ℕ) : Prop :=
  ∃ base, to4 n.ip = some base ∧ base < v ∧ v + 1 < base + 2 ^ n.hostBits

def Disjoint (n o : Net) : Prop := ∀ x, ¬(n.contains x = true ∧ o.contains x = true)

theorem Disjoint.symm {n o : Net} (h : n.Disjoint o) : o.Disjoint n :=
  fun x hx => h x ⟨hx.2, hx.1⟩

theorem contains_iff {n : Net} {x : ℕ} : n.contains x = true ↔
    ((to4 n.ip).isSome = (to4 x).isSome) ∧ x / 2 ^ n.hostBits = n.ip / 2 ^ n.hostBits := by
  simp [contains]

theorem contains_congr {n o : Net} (hip : n.ip = o.ip) (hbits : n.hostBits = o.hostBits) (x : ℕ) :
    n.contains x = o.contains x := by
  simp only [contains, hip, hbits]

private theorem contains_of_common {n o : Net} {x : ℕ} (hle : n.hostBits ≤ o.hostBits)
    (hn : n.contains x = true) (ho : o.contains x = true) : o.contains n.ip = true := by
  rw [contains_iff] at *
  refine ⟨ho.1.trans hn.1.symm, ?_⟩
  have hpow : 2 ^ o.hostBits = 2 ^ n.hostBits * 2 ^ (o.hostBits - n.hostBits) := by
    rw [← Nat.pow_add, Nat.add_sub_cancel' hle]
  calc n.ip / 2 ^ o.hostBits
      = n.ip / 2 ^ n.hostBits / 2 ^ (o.hostBits - n.hostBits) := by
        rw [hpow, Nat.div_div_eq_div_mul]
    _ = x / 2 ^ n.hostBits / 2 ^ (o.hostBits - n.hostBits) := by rw [hn.2]
    _ = x / 2 ^ o.hostBits := by rw [hpow, Nat.div_div_eq_div_mul]
    _ = o.ip / 2 ^ o.hostBits := ho.2

/-- **Networks that do not contain each other's address are disjoint.** -/
theorem disjoint_of_contains {n o : Net} (h : n.contains o.ip = false)
    (h' : o.contains n.ip = false) : n.Disjoint o := by
  rintro x ⟨hn, ho⟩
  rcases Nat.le_total n.hostBits o.hostBits with hle | hle
  · simp [contains_of_common hle hn ho] at h'
  · simp [contains_of_common hle ho hn] at h

end Net

/-- The text before the first separator and the one after it. -/
def cut (s : List Char) (sep : Char) : Option (List Char × List Char) :=
  if sep ∈ s then some (s.takeWhile (· != sep), (s.dropWhile (· != sep)).tail) else none

/-- A mask length: digits, with any number of leading zeros. -/
def decimal? (ds : List Char) : Option ℕ :=
  if ds ≠ [] ∧ ds.all Char.isDigit then some (Nat.ofDigitChars 10 ds 0) else none

def parseCIDR (s : String) : Option Net :=
  (cut s.toList '/').bind fun p =>
    (parseAddr p.1).bind fun a =>
      (decimal? p.2).bind fun ones =>
        if ones ≤ a.2 then some ⟨a.1 - a.1 % 2 ^ (a.2 - ones), ones, a.2⟩ else none

theorem cut_append {s t : List Char} {sep : Char} (h : sep ∉ s) :
    cut (s ++ sep :: t) sep = some (s, t) := by
  have hall : ∀ ch ∈ s, (ch != sep) = true := by
    intro ch hch
    simpa using ne_of_mem_of_not_mem hch h
  simp [cut, List.takeWhile_append_of_pos hall, List.dropWhile_append_of_pos hall]

theorem decimal?_toDigits (n : ℕ) : decimal? (Nat.toDigits 10 n) = some n := by
  have hne : Nat.toDigits 10 n ≠ [] := Nat.toDigits_ne_nil
  have hall : (Nat.toDigits 10 n).all Char.isDigit :=
    List.all_eq_true.mpr fun _ h => Nat.isDigit_of_mem_toDigits (by omega) le_rfl h
  simp only [decimal?, hne, hall, ne_eq, not_false_eq_true, and_self, if_true,
    Nat.ofDigitChars_ten_toDigits]

theorem parseCIDR_eq_some {s : String} {n : Net} (h : parseCIDR s = some n) :
    n.ones ≤ n.bits ∧ (n.bits = 32 ∨ n.bits = 128) ∧ 2 ^ n.hostBits ∣ n.ip := by
  simp only [parseCIDR, Option.bind_eq_some_iff, Option.ite_none_right_eq_some,
    Option.some.injEq] at h
  obtain ⟨p, -, a, ha, ones, -, hle, rfl⟩ := h
  refine ⟨hle, ?_, Nat.dvd_sub_mod _⟩
  unfold parseAddr at ha
  split at ha
  · obtain ⟨x, -, rfl⟩ := Option.map_eq_some_iff.mp ha
    exact .inl rfl
  · obtain ⟨x, -, rfl⟩ := Option.map_eq_some_iff.mp ha
    exact .inr rfl
  · simp at ha

/-! ### IPv4 blocks -/

/-- An IPv4 network in canonical form. -/
structure Block where
  base : ℕ
  ones : ℕ
  ones_le : ones ≤ 32
  base_lt : base < 2 ^ 32
  aligned : 2 ^ (32 - ones) ∣ base

namespace Block

variable (b : Block)

def net : Net := ⟨ofV4 b.base, b.ones, 32⟩

def size : ℕ := 2 ^ (32 - b.ones)

@[simp] theorem to4_net : to4 b.net.ip = some b.base := to4_ofV4 b.base_lt

@[simp] theorem bits_net : b.net.bits = 32 := rfl

@[simp] theorem hostBits_net : b.net.hostBits = 32 - b.ones := rfl

theorem size_pos : 0 < b.size := Nat.two_pow_pos _

private theorem size_dvd : b.size ∣ 2 ^ 32 := Nat.pow_dvd_pow 2 (Nat.sub_le 32 b.ones)

theorem base_add_size_le : b.base + b.size ≤ 2 ^ 32 := by
  obtain ⟨k, hk⟩ := b.aligned
  obtain ⟨m, hm⟩ := b.size_dvd
  have hlt : b.size * k < b.size * m := by
    rw [← hm]
    exact hk ▸ b.base_lt
  have hkm : k + 1 ≤ m := Nat.lt_of_mul_lt_mul_left hlt
  calc b.base + b.size = b.size * (k + 1) := by rw [hk, Nat.mul_succ]; rfl
    _ ≤ b.size * m := Nat.mul_le_mul_left _ hkm
    _ = 2 ^ 32 := hm.symm

private theorem size_dvd_ofV4 : b.size ∣ ofV4 b.base :=
  Nat.dvd_add (Nat.dvd_mul_left_of_dvd b.size_dvd _) b.aligned

theorem contains_iff {x : ℕ} (hx : x < 2 ^ 32) :
    b.net.contains (ofV4 x) = true ↔ b.base ≤ x ∧ x < b.base + b.size := by
  obtain ⟨k, hk⟩ := b.size_dvd_ofV4
  have hbase : ofV4 b.base = 0xffff * 2 ^ 32 + b.base := rfl
  have hofV4 : ofV4 x = 0xffff * 2 ^ 32 + x := rfl
  rw [Net.contains_iff, to4_net, to4_ofV4 hx]
  show _ ∧ ofV4 x / b.size = ofV4 b.base / b.size ↔ _
  rw [hk, Nat.mul_div_cancel_left _ b.size_pos, Nat.div_eq_iff b.size_pos, Nat.mul_comm k]
  simp only [true_and, Option.isSome_some]
  have := b.size_pos
  omega

theorem parseCIDR_text : parseCIDR b.net.text = some b.net := by
  have hones : 32 - (32 - b.ones) = b.ones := Nat.sub_sub_self b.ones_le
  have htext : b.net.text.toList = (dotted b.base).toList ++ '/' :: Nat.toDigits 10 b.ones := by
    simp [Net.text, ipText, hones, Nat.toString_eq_repr, Nat.toList_repr]
  have hmod : ofV4 b.base % 2 ^ (32 - b.ones) = 0 := Nat.mod_eq_zero_of_dvd b.size_dvd_ofV4
  have hslash : '/' ∉ (dotted b.base).toList := not_mem_dotted (by decide) (by decide) b.base
  simp only [parseCIDR, htext, cut_append hslash, parseAddr_dotted b.base_lt, decimal?_toDigits,
    Option.bind_some, b.ones_le, if_true, hmod, Nat.sub_zero]
  rfl

end Block

/-- **An IPv4 network that was read** has the addresses of a block. -/
theorem exists_block {s : String} {n : Net} {base : ℕ} (h : parseCIDR s = some n)
    (h4 : to4 n.ip = some base) :
    ∃ b : Block, b.base = base ∧ b.net.ip = n.ip ∧ b.net.hostBits = n.hostBits := by
  obtain ⟨-, -, hdvd⟩ := parseCIDR_eq_some h
  obtain ⟨hlt, hip⟩ := to4_eq_some.mp h4
  -- a longer host part would cut into the bits that tell an IPv4 address
  have hle : n.hostBits ≤ 32 := by
    by_contra hgt
    have hpow : 2 ^ 33 ∣ n.ip := (Nat.pow_dvd_pow 2 (by omega)).trans hdvd
    rw [hip, ofV4] at hpow
    omega
  have hbits : 32 - (32 - n.hostBits) = n.hostBits := Nat.sub_sub_self hle
  have hspace : 2 ^ n.hostBits ∣ 0xffff * 2 ^ 32 :=
    Nat.dvd_mul_left_of_dvd (Nat.pow_dvd_pow 2 hle) _
  have haligned : 2 ^ n.hostBits ∣ base := by
    rw [hip] at hdvd
    exact (Nat.dvd_add_right hspace).mp hdvd
  exact ⟨⟨base, 32 - n.hostBits, Nat.sub_le .., hlt, hbits.symm ▸ haligned⟩, rfl, hip.symm, hbits⟩

theorem exists_net_eq {s : String} {n : Net} {base : ℕ} (h : parseCIDR s = some n)
    (h4 : to4 n.ip = some base) (hones : n.ones ≤ 32) : ∃ b : Block, b.net = n := by
  obtain ⟨b, -, hip, hbits⟩ := exists_block h h4
  obtain ⟨hle, hfamily, -⟩ := parseCIDR_eq_some h
  have hb := b.ones_le
  rw [Block.hostBits_net, Net.hostBits] at hbits
  have h32 : n.bits = 32 := by omega
  have hn : b.ones = n.ones := by omega
  refine ⟨b, ?_⟩
  rw [← show Net.mk n.ip n.ones n.bits = n from rfl, ← hip, ← hn, h32]
  rfl

theorem contains_ofV4_iff {s : String} {n : Net} {base v : ℕ} (h : parseCIDR s = some n)
    (h4 : to4 n.ip = some base) (hv : v < 2 ^ 32) :
    n.contains (ofV4 v) = true ↔ base ≤ v ∧ v < base + 2 ^ n.hostBits := by
  obtain ⟨b, rfl, hip, hbits⟩ := exists_block h h4
  rw [← Net.contains_congr hip hbits, b.contains_iff hv, ← hbits]
  rfl

end Inet
