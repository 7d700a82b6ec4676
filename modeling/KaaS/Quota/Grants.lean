import KaaS.App.Accounts
import KaaS.Library.Guard
import KaaS.Library.Keyed
import KaaS.Library.Wrapping

/-!
# Grants

An infrastructure has a **ceiling** in three resources. The administrators grant parts of it to
the tenants, and the grants of those who are not administrators must not exceed it in sum.
`checkAllocation` decides on one grant: it adds up what is granted, takes off what the account has
now and compares. The sums are of **64-bit integers**, so what is compared is the exact sum up to a
multiple of `2 ^ 64` (`amount_allocatedBesides`).
-/

namespace KaaS

open Guard Wrapping

/-! ### Resources -/

inductive Resource
  | vcpu | memMB | diskGB
  deriving DecidableEq

instance (p : Resource → Prop) [DecidablePred p] : Decidable (∀ x, p x) :=
  decidable_of_iff (p .vcpu ∧ p .memMB ∧ p .diskGB)
    ⟨fun ⟨hvcpu, hmem, hdisk⟩ x => by cases x <;> assumption, fun h => ⟨h _, h _, h _⟩⟩

namespace ResourceQuota

def amount (q : ResourceQuota) : Resource → Int
  | .vcpu => q.vcpu
  | .memMB => q.memMB
  | .diskGB => q.diskGB

/-- Sums and differences as the machine computes them. -/
def add (p q : ResourceQuota) : ResourceQuota :=
  ⟨wrap64 (p.vcpu + q.vcpu), wrap64 (p.memMB + q.memMB), wrap64 (p.diskGB + q.diskGB)⟩

def sub (p q : ResourceQuota) : ResourceQuota :=
  ⟨wrap64 (p.vcpu - q.vcpu), wrap64 (p.memMB - q.memMB), wrap64 (p.diskGB - q.diskGB)⟩

@[simp] theorem amount_add (p q : ResourceQuota) (x : Resource) :
    (p.add q).amount x = wrap64 (p.amount x + q.amount x) := by
  cases x <;> rfl

@[simp] theorem amount_sub (p q : ResourceQuota) (x : Resource) :
    (p.sub q).amount x = wrap64 (p.amount x - q.amount x) := by
  cases x <;> rfl

@[simp] theorem amount_zero (x : Resource) : ({} : ResourceQuota).amount x = 0 := by
  cases x <;> rfl

end ResourceQuota

structure Budget where
  totalVCPU : Int := 0
  totalMemMB : Int := 0
  totalDiskGB : Int := 0
  deriving DecidableEq

def Budget.total (b : Budget) : Resource → Int
  | .vcpu => b.totalVCPU
  | .memMB => b.totalMemMB
  | .diskGB => b.totalDiskGB

def Account.quotaOn (u : Account) (provider : String) : ResourceQuota :=
  (u.quotas.lookup provider).getD {}

/-! ### Allocation -/

/-- What is granted on an infrastructure to those who are not administrators. -/
def allocated (users : List Account) (provider : String) : ResourceQuota :=
  users.foldl (fun sum u => if u.isAdmin then sum else sum.add (u.quotaOn provider)) {}

/-- The same without what one account has. -/
def allocatedBesides (users : List Account) (userID provider : String) : ResourceQuota :=
  match users.find? fun u => u.id == userID && !u.isAdmin with
  | some u => (allocated users provider).sub (u.quotaOn provider)
  | none => allocated users provider

def Budget.checkAllocation (b : Budget) (users : List Account) (userID provider : String)
    (want : ResourceQuota) : Except String Unit := do
  refuseIf (want.vcpu < 0 ∨ want.memMB < 0 ∨ want.diskGB < 0)
    "quota: allocation must be non-negative"
  let alloc := allocatedBesides users userID provider
  refuseIf ((alloc.add want).vcpu > b.totalVCPU) ("quota: " ++ provider ++
    " vCPU allocation exceeds that infrastructure's total (" ++ toString alloc.vcpu ++ " + " ++
    toString want.vcpu ++ " > " ++ toString b.totalVCPU ++ ")")
  refuseIf ((alloc.add want).memMB > b.totalMemMB) ("quota: " ++ provider ++
    " memory allocation exceeds that infrastructure's total (" ++ toString alloc.memMB ++ " + " ++
    toString want.memMB ++ " MB > " ++ toString b.totalMemMB ++ " MB)")
  refuseIf ((alloc.add want).diskGB > b.totalDiskGB) ("quota: " ++ provider ++
    " disk allocation exceeds that infrastructure's total (" ++ toString alloc.diskGB ++ " + " ++
    toString want.diskGB ++ " GB > " ++ toString b.totalDiskGB ++ " GB)")

/-! ### What a check depends on -/

def Account.SameGrants (u v : Account) : Prop :=
  u.id = v.id ∧ u.isAdmin = v.isAdmin ∧ u.quotas = v.quotas

section SameGrants

variable {users : List Account} {g : Account → Account}

theorem allocated_map (hg : ∀ u ∈ users, (g u).SameGrants u) (provider : String) :
    allocated (users.map g) provider = allocated users provider := by
  rw [allocated, allocated, List.foldl_map]
  refine List.foldl_ext _ _ _ fun sum u hu => ?_
  obtain ⟨-, hadmin, hquotas⟩ := hg u hu
  rw [hadmin, Account.quotaOn, Account.quotaOn, hquotas]

theorem allocatedBesides_map (hg : ∀ u ∈ users, (g u).SameGrants u) (userID provider : String) :
    allocatedBesides (users.map g) userID provider = allocatedBesides users userID provider := by
  have hfind : (users.map g).find? (fun u => u.id == userID && !u.isAdmin) =
      (users.find? fun u => u.id == userID && !u.isAdmin).map g := by
    refine Keyed.find?_map_of_forall fun u hu => ?_
    obtain ⟨hid, hadmin, -⟩ := hg u hu
    rw [hid, hadmin]
  rw [allocatedBesides, allocatedBesides, hfind, allocated_map hg]
  cases hu : users.find? fun u => u.id == userID && !u.isAdmin with
  | none => rfl
  | some u =>
    obtain ⟨-, -, hquotas⟩ := hg u (List.mem_of_find?_eq_some hu)
    simp only [Option.map_some, Account.quotaOn, hquotas]

theorem Budget.checkAllocation_map (b : Budget) (hg : ∀ u ∈ users, (g u).SameGrants u)
    (userID provider : String) (want : ResourceQuota) :
    b.checkAllocation (users.map g) userID provider want =
      b.checkAllocation users userID provider want := by
  rw [checkAllocation, checkAllocation, allocatedBesides_map hg]

end SameGrants

/-! ### Exact sums -/

def Account.counted (u : Account) (provider : String) (x : Resource) : Int :=
  if u.isAdmin then 0 else (u.quotaOn provider).amount x

/-- **What is granted**, exactly. -/
def granted (users : List Account) (provider : String) (x : Resource) : Int :=
  (users.map (·.counted provider x)).sum

/-- What is granted to the others, exactly. -/
def grantedBesides (users : List Account) (userID provider : String) (x : Resource) : Int :=
  granted (Keyed.besides (·.id) userID users) provider x

section Sums

variable {users : List Account} {userID provider : String} {x : Resource}

private theorem amount_foldl (sum : ResourceQuota) :
    wrap64 ((users.foldl (fun sum u => if u.isAdmin then sum else sum.add (u.quotaOn provider))
      sum).amount x) = wrap64 (sum.amount x + granted users provider x) := by
  induction users generalizing sum with
  | nil => simp [granted]
  | cons u users ih =>
    rw [List.foldl_cons, ih]
    cases hadmin : u.isAdmin with
    | true => simp [granted, Account.counted, hadmin]
    | false => simp [granted, Account.counted, hadmin, Int.add_assoc]

/-- The machine's sum is the exact one, up to a multiple of `2 ^ 64`. -/
theorem amount_allocated (users : List Account) (provider : String) (x : Resource) :
    wrap64 ((allocated users provider).amount x) = wrap64 (granted users provider x) := by
  rw [allocated, amount_foldl, ResourceQuota.amount_zero, Int.zero_add]

theorem granted_eq_add (hnodup : (users.map (·.id)).Nodup) {u : Account} (hu : u ∈ users) :
    granted users provider x = u.counted provider x + grantedBesides users u.id provider x :=
  Keyed.sum_eq_add _ hnodup hu

private theorem find?_tenant (hnodup : (users.map (·.id)).Nodup) {u : Account} (hu : u ∈ users)
    (hadmin : u.isAdmin = false) : users.find? (fun v => v.id == u.id && !v.isAdmin) = some u := by
  have hsome : (users.find? fun v => v.id == u.id && !v.isAdmin).isSome :=
    List.find?_isSome.mpr ⟨u, hu, by simp [hadmin]⟩
  obtain ⟨v, hv⟩ := Option.isSome_iff_exists.mp hsome
  obtain ⟨hid, -⟩ : v.id = u.id ∧ v.isAdmin = false := by simpa using List.find?_some hv
  rw [hv, List.inj_on_of_nodup_map hnodup (List.mem_of_find?_eq_some hv) hu hid]

/-- **What a grant is compared with** is what the others have, up to a multiple of `2 ^ 64`. -/
theorem amount_allocatedBesides (hnodup : (users.map (·.id)).Nodup) {u : Account} (hu : u ∈ users)
    (hadmin : u.isAdmin = false) (provider : String) (x : Resource) (y : Int) :
    wrap64 ((allocatedBesides users u.id provider).amount x + y) =
      wrap64 (grantedBesides users u.id provider x + y) := by
  have hcounted : u.counted provider x = (u.quotaOn provider).amount x := by
    simp [Account.counted, hadmin]
  have hothers : granted users provider x - (u.quotaOn provider).amount x =
      grantedBesides users u.id provider x := by
    rw [granted_eq_add hnodup hu, hcounted]
    omega
  rw [allocatedBesides, find?_tenant hnodup hu hadmin, ResourceQuota.amount_sub,
    wrap64_wrap64_add, ← hothers]
  -- the first sum is wrapped already
  have hsum := amount_allocated users provider x
  calc wrap64 ((allocated users provider).amount x - (u.quotaOn provider).amount x + y)
      = wrap64 (wrap64 ((allocated users provider).amount x) -
          (u.quotaOn provider).amount x + y) := by
        rw [← wrap64_wrap64_add, ← wrap64_wrap64_sub, wrap64_wrap64_add]
    _ = wrap64 (granted users provider x - (u.quotaOn provider).amount x + y) := by
        rw [hsum, ← wrap64_wrap64_add, wrap64_wrap64_sub, wrap64_wrap64_add]

/-- **What a passed check establishes**, if the exact sum fits 64 bits. -/
theorem le_total_of_checkAllocation {b : Budget} (hnodup : (users.map (·.id)).Nodup) {u : Account}
    (hu : u ∈ users) (hadmin : u.isAdmin = false) {want : ResourceQuota}
    (h : b.checkAllocation users u.id provider want = .ok ()) (x : Resource)
    (hothers : 0 ≤ grantedBesides users u.id provider x)
    (hfits : grantedBesides users u.id provider x + want.amount x ≤ maxInt64) :
    0 ≤ want.amount x ∧ grantedBesides users u.id provider x + want.amount x ≤ b.total x := by
  simp only [Budget.checkAllocation, bind_eq_ok, refuseIf_eq_ok] at h
  obtain ⟨-, hneg, -, hvcpu, -, hmem, hdisk⟩ := h
  have hsum : ¬ b.total x < ((allocatedBesides users u.id provider).add want).amount x := by
    cases x with
    | vcpu => exact hvcpu
    | memMB => exact hmem
    | diskGB => exact hdisk
  have hzero : 0 ≤ want.amount x := by
    simp only [not_or, Int.not_lt] at hneg
    cases x with
    | vcpu => exact hneg.1
    | memMB => exact hneg.2.1
    | diskGB => exact hneg.2.2
  rw [ResourceQuota.amount_add, amount_allocatedBesides hnodup hu hadmin,
    wrap64_eq ?_ hfits] at hsum
  · exact ⟨hzero, Int.not_lt.mp hsum⟩
  · have hmin : minInt64 ≤ 0 := by decide
    exact hmin.trans (Int.add_nonneg hothers hzero)

end Sums

end KaaS
