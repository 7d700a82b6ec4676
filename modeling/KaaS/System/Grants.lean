import KaaS.App.Users
import KaaS.Library.Run
import Mathlib.Algebra.Order.BigOperators.Group.List

/-!
# Grants stay within the ceilings

What is granted on an infrastructure is only ever raised by an update that passed
`checkAllocation`; registering and logging in make accounts without grants, deleting an account
frees its own, and deleting a group leaves them alone. So the sum of the grants stays within the
ceiling, **if the check adds up right**. It adds in 64 bits: a request for `2 ^ 63 - 1` cores on top
of what others have wraps to a negative number, which is below every ceiling.

If each requested amount together with what the others have fits 64 bits (`FitsInt64`), the sums
over the tenants stay within the ceilings and no grant is negative, over any sequence of calls
(`within_of_fitsInt64`).
-/

namespace KaaS

open Guard Wrapping TransitionSystem

namespace Ledger

/-! ### The property and the condition -/

/-- **Within the ceilings**: on every infrastructure, in every resource, what the tenants are
granted is at most what there is, and nobody is granted less than nothing. -/
structure Within (S : PortalSettings) (s : Ledger) : Prop where
  nonneg : ∀ u ∈ s.users, ∀ provider x, 0 ≤ (u.quotaOn provider).amount x
  le_total : ∀ provider x, granted s.users provider x ≤ (S.providerBudgets provider).total x

/-- Each requested amount, together with what the others have, is a 64-bit integer. -/
def FitsInt64 (s : Ledger) : AccountCall → Prop
  | .updateUser _ userID req => ∀ grants ∈ req.quotas, ∀ e ∈ grants.entries, ∀ x,
      grantedBesides s.users userID e.1 x + e.2.amount x ≤ maxInt64
  | _ => True

instance (s : Ledger) (call) : Decidable (s.FitsInt64 call) := by
  cases call <;> unfold Ledger.FitsInt64 <;> infer_instance

/-! ### Rows -/

/-- A state of the store within the ceilings. -/
private structure Good (S : PortalSettings) (s : Ledger) : Prop extends Within S s where
  nodup : (s.users.map (·.id)).Nodup

section Rows

variable {S : PortalSettings} {s : Ledger} {u : Account} {users : List Account}

private theorem counted_nonneg (h : ∀ provider x, 0 ≤ (u.quotaOn provider).amount x)
    (provider : String) (x : Resource) : 0 ≤ u.counted provider x := by
  unfold Account.counted
  split_ifs
  · exact le_rfl
  · exact h provider x

private theorem granted_nonneg
    (h : ∀ u ∈ users, ∀ provider x, 0 ≤ (u.quotaOn provider).amount x) (provider : String)
    (x : Resource) : 0 ≤ granted users provider x := by
  refine List.sum_nonneg fun y hy => ?_
  obtain ⟨u, hu, rfl⟩ := List.mem_map.mp hy
  exact counted_nonneg (h u hu) provider x

private theorem Good.create (h : s.Good S) {users' : List Account} (hquotas : u.quotas = ∅)
    (hcreate : Accounts.createUser s.users u = .ok users') :
    Good S { s with users := users' } := by
  obtain ⟨rfl, hnew⟩ := Accounts.createUser_eq_ok hcreate
  have hzero (provider : String) (x : Resource) : (u.quotaOn provider).amount x = 0 := by
    simp [Account.quotaOn, hquotas]
  refine ⟨⟨fun v hv provider x => ?_, fun provider x => ?_⟩, ?_⟩
  · rcases List.mem_append.mp hv with hv | hv
    · exact h.nonneg v hv provider x
    · rw [List.mem_singleton.mp hv, hzero]
  · have hcounted : u.counted provider x = 0 := by
      unfold Account.counted
      split_ifs
      · rfl
      · exact hzero provider x
    simpa [granted, hcounted] using h.le_total provider x
  · rw [List.map_append, List.map_singleton]
    refine List.nodup_append.mpr ⟨h.nodup, List.nodup_singleton _, ?_⟩
    intro a ha b hb
    obtain ⟨w, hw, rfl⟩ := List.mem_map.mp ha
    rw [List.mem_singleton.mp hb]
    exact (hnew w hw).1

private theorem Good.map (h : s.Good S) {g : Account → Account} {groups : List Group}
    (hg : ∀ u ∈ s.users, (g u).SameGrants u) : Good S ⟨s.users.map g, groups⟩ := by
  have hquota {u : Account} (hu : u ∈ s.users) (provider : String) :
      (g u).quotaOn provider = u.quotaOn provider := by
    rw [Account.quotaOn, Account.quotaOn, (hg u hu).2.2]
  refine ⟨⟨fun v hv provider x => ?_, fun provider x => ?_⟩, ?_⟩
  · obtain ⟨u, hu, rfl⟩ := List.mem_map.mp hv
    rw [hquota hu]
    exact h.nonneg u hu provider x
  · have hsum : granted (s.users.map g) provider x = granted s.users provider x := by
      rw [granted, granted, List.map_map]
      refine congrArg List.sum (List.map_congr_left fun u hu => ?_)
      simp only [Function.comp, Account.counted, (hg u hu).2.1, hquota hu]
    rw [hsum]
    exact h.le_total provider x
  · have hids : (s.users.map g).map (·.id) = s.users.map (·.id) := by
      rw [List.map_map]
      exact List.map_congr_left fun u hu => (hg u hu).1
    rw [hids]
    exact h.nodup

private theorem Good.delete (h : s.Good S) (hu : u ∈ s.users) :
    Good S { s with users := s.users.filter (·.id ≠ u.id) } := by
  have hsub {v : Account} (hv : v ∈ s.users.filter (·.id ≠ u.id)) : v ∈ s.users :=
    List.mem_of_mem_filter hv
  refine ⟨⟨fun v hv => h.nonneg v (hsub hv), fun provider x => ?_⟩, ?_⟩
  · have hsum : granted s.users provider x = u.counted provider x +
        granted (s.users.filter (·.id ≠ u.id)) provider x := granted_eq_add h.nodup hu
    have hcounted := counted_nonneg (h.nonneg u hu) provider x
    have htotal := h.le_total provider x
    dsimp only
    omega
  · exact h.nodup.sublist (List.filter_sublist.map _)

/-- A row is rewritten, with what is granted on each infrastructure as before or within what
the others leave. -/
private theorem Good.put (h : s.Good S) (hu : u ∈ s.users) {v : Account} (hid : v.id = u.id)
    (hadmin : v.isAdmin = u.isAdmin)
    (hquotas : ∀ provider x, v.quotaOn provider = u.quotaOn provider ∨
      0 ≤ (v.quotaOn provider).amount x ∧
        grantedBesides s.users u.id provider x + (v.quotaOn provider).amount x ≤
          (S.providerBudgets provider).total x) :
    Good S { s with users := Accounts.putUser s.users v } := by
  have hkey : v.id ∈ s.users.map (·.id) := hid ▸ List.mem_map_of_mem hu
  have hothers (provider : String) (x : Resource) :
      0 ≤ grantedBesides s.users u.id provider x :=
    granted_nonneg (fun w hw => h.nonneg w (Keyed.mem_besides.mp hw).1) provider x
  refine ⟨⟨fun w hw provider x => ?_, fun provider x => ?_⟩, ?_⟩
  · rcases (Keyed.mem_put hkey).mp hw with rfl | ⟨hw, -⟩
    · rcases hquotas provider x with heq | ⟨hzero, -⟩
      · rw [heq]
        exact h.nonneg u hu provider x
      · exact hzero
    · exact h.nonneg w hw provider x
  · have hsum : granted (Accounts.putUser s.users v) provider x =
        v.counted provider x + grantedBesides s.users v.id provider x :=
      Keyed.sum_put _ h.nodup hkey
    have hold : granted s.users provider x =
        u.counted provider x + grantedBesides s.users u.id provider x :=
      granted_eq_add h.nodup hu
    have htotal := h.le_total provider x
    rw [hid] at hsum
    dsimp only
    rw [hsum]
    unfold Account.counted at hold ⊢
    rw [hadmin]
    rcases hquotas provider x with heq | ⟨-, hle⟩
    · rw [heq]
      omega
    · have hnonneg := h.nonneg u hu provider x
      split_ifs at hold ⊢ <;> omega
  · have hids : (Accounts.putUser s.users v).map (·.id) = s.users.map (·.id) := Keyed.map_put
    rw [hids]
    exact h.nodup

end Rows

/-! ### Calls -/

section Calls

variable {S : PortalSettings} {s s' : Ledger} {u : Account}

private theorem Good.update (h : s.Good S) {actor : Option Account} {userID : String}
    {req : UpdateUserRequest} (hfits : s.FitsInt64 (.updateUser actor userID req))
    {users' : List Account}
    (hok : Accounts.updateUser S s.groups s.users actor userID req = .ok users') :
    Good S { s with users := users' } := by
  obtain ⟨u, quotas, ms, hget, hquotas, -, rfl⟩ :=
    Accounts.updateUserLocked_eq_ok.mp (Accounts.updateUser_eq_ok hok)
  obtain ⟨hu, rfl⟩ := (Keyed.find?_eq_some h.nodup).mp hget
  refine h.put hu rfl rfl fun provider x => ?_
  unfold Accounts.updatedQuotas at hquotas
  cases hgrants : req.quotas with
  | none =>
    rw [hgrants] at hquotas
    obtain rfl := Except.ok.inj hquotas
    exact .inl rfl
  | some grants =>
    rw [hgrants] at hquotas
    simp only [bind_eq_ok, refuseIf_eq_ok] at hquotas
    obtain ⟨-, -, -, hadmin, hall⟩ := hquotas
    rcases Accounts.grantAll_eq_ok hall provider with ⟨want, hmem, hlookup, hcheck⟩ | hlookup
    · right
      have hquota : Account.quotaOn { u with quotas, memberships := ms } provider = want := by
        simp [Account.quotaOn, hlookup]
      rw [hquota]
      refine le_total_of_checkAllocation h.nodup hu (by simpa using hadmin) hcheck x ?_ ?_
      · exact granted_nonneg (fun w hw => h.nonneg w (Keyed.mem_besides.mp hw).1) provider x
      · exact hfits grants hgrants _ hmem x
    · left
      simp only [Account.quotaOn, hlookup]

private theorem Good.exec (h : s.Good S) {call : AccountCall} (hfits : s.FitsInt64 call)
    (hexec : s.exec S call = .ok s') : s'.Good S := by
  cases call with
  | register id username password =>
    simp only [Ledger.exec, bind_eq_ok, pure_eq_ok] at hexec
    obtain ⟨users', hok, rfl⟩ := hexec
    obtain ⟨name, -, hcreate⟩ := Accounts.register_eq_ok hok
    exact h.create rfl hcreate
  | updateUser actor userID req =>
    simp only [Ledger.exec, bind_eq_ok, pure_eq_ok] at hexec
    obtain ⟨users', hok, rfl⟩ := hexec
    exact h.update hfits hok
  | deleteUser actor userID =>
    simp only [Ledger.exec, bind_eq_ok, pure_eq_ok] at hexec
    obtain ⟨users', hok, rfl⟩ := hexec
    obtain ⟨rfl, u, hget, -⟩ := Accounts.deleteUser_eq_ok hok
    obtain ⟨hu, rfl⟩ := (Keyed.find?_eq_some h.nodup).mp hget
    exact h.delete hu
  | deleteGroup actor groupID =>
    simp only [Ledger.exec, Ledger.deleteGroup, bind_eq_ok] at hexec
    obtain ⟨-, -, hexec⟩ := hexec
    split at hexec
    · simp at hexec
    · simp only [bind_eq_ok, pure_eq_ok] at hexec
      obtain ⟨-, -, rfl⟩ := hexec
      exact h.map fun u _ => ⟨rfl, rfl, rfl⟩
  | syncDirectoryUser id identity =>
    simp only [Ledger.exec, bind_eq_ok, pure_eq_ok] at hexec
    obtain ⟨users', hok, rfl⟩ := hexec
    obtain ⟨name, -, ⟨-, hcreate⟩ | ⟨u, hget, -, rfl⟩⟩ :=
      Accounts.syncDirectoryUserLocked_eq_ok hok
    · exact h.create rfl hcreate
    · exact h.put (List.mem_of_find?_eq_some hget) rfl rfl fun _ _ => .inl rfl

private theorem Good.step (h : s.Good S) {call : AccountCall} (hfits : s.FitsInt64 call) :
    (s.step S call).Good S := by
  unfold Ledger.step
  split
  · rename_i s' hexec
    exact h.exec hfits hexec
  · exact h

end Calls

/-- **Conserved pools**: from accounts within the ceilings, over any calls whose requested amounts
fit 64 bits together with what the others have, the grants of the tenants stay within the ceiling
of every infrastructure, in every resource, and none is negative. -/
theorem within_of_fitsInt64 (S : PortalSettings) (start : Ledger)
    (hkeys : (start.users.map (·.id)).Nodup) (hstart : start.Within S) (calls : List AccountCall)
    (hfits : Along (Ledger.step S) FitsInt64 start calls) :
    (run (Ledger.step S) start calls).Within S :=
  (run_invariant (I := Good S) (fun _ _ h hcond => h.step hcond) ⟨hstart, hkeys⟩ hfits).toWithin

/-! ### Eight cores -/

def smallHost : PortalSettings where
  providerBudgets provider :=
    if provider = providerKVM then
      { totalVCPU := 8, totalMemMB := 16384, totalDiskGB := 100 } else {}

/-- An administrator and two tenants without grants. -/
def twoTenants : Ledger where
  users :=
    [{ id := "root", username := "admin", isAdmin := true }, { id := "u1", username := "alice" },
      { id := "u2", username := "bob" }]

def grantCores (userID : String) (vcpu : Int) : AccountCall :=
  .updateUser (some { id := "root", username := "admin", isAdmin := true }) userID
    { quotas := some (AList.singleton providerKVM { vcpu }) }

theorem within_twoTenants : twoTenants.Within smallHost := by
  have hnone : ∀ u ∈ twoTenants.users, u.quotas = ∅ := by simp [twoTenants]
  refine ⟨fun u hu provider x => ?_, fun provider x => ?_⟩
  · simp [Account.quotaOn, hnone u hu]
  · have hzero : granted twoTenants.users provider x = 0 := by
      refine List.sum_eq_zero fun y hy => ?_
      obtain ⟨u, hu, rfl⟩ := List.mem_map.mp hy
      simp [Account.counted, Account.quotaOn, hnone u hu]
    rw [hzero, smallHost]
    dsimp only
    split_ifs <;> cases x <;> decide

theorem within_grantedCores :
    granted (run (Ledger.step smallHost) twoTenants
      [grantCores "u1" 4, grantCores "u2" 3]).users providerKVM .vcpu = 7 ∧
    (run (Ledger.step smallHost) twoTenants [grantCores "u1" 4, grantCores "u2" 3]).Within
      smallHost :=
  ⟨by decide +kernel, within_of_fitsInt64 smallHost twoTenants (by decide) within_twoTenants _
    (by decide +kernel)⟩

/-- **A grant of all the cores a register can count** passes the check, since someone else has
some. -/
theorem granted_beyond_ceiling :
    granted (run (Ledger.step smallHost) twoTenants
      [grantCores "u1" 4, grantCores "u2" maxInt64]).users providerKVM .vcpu = 4 + maxInt64 ∧
    ¬ (run (Ledger.step smallHost) twoTenants
      [grantCores "u1" 4, grantCores "u2" maxInt64]).Within smallHost := by
  have hsum : granted (run (Ledger.step smallHost) twoTenants
      [grantCores "u1" 4, grantCores "u2" maxInt64]).users providerKVM .vcpu =
        4 + maxInt64 := by decide +kernel
  refine ⟨hsum, fun h => ?_⟩
  have hle := h.le_total providerKVM .vcpu
  rw [hsum] at hle
  exact absurd hle (by decide)

end Ledger

end KaaS
