import KaaS.Domain.Desired
import KaaS.Quota.Grants

/-!
# What clusters use

A cluster is charged for the machines its row asks for, and for every extra disk in the row,
also one that is being removed. Clusters that are being deleted or have failed are charged
nothing. `Budget.check` is the admission check: what the others are charged and what the candidate
asks for stay within a budget, in each of the three resources.

The machine sums run over the list of machines, which the source builds first; they do not leave
the range of its integers as long as the list fits into memory, so here they are exact.
-/

namespace KaaS

open Guard

def SizeSpec.amount (s : SizeSpec) : Resource → Int
  | .vcpu => s.cpus
  | .memMB => s.memMB
  | .diskGB => s.diskGB

def extraDisks (disks : List NodeDisk) : Resource → Int
  | .diskGB => (disks.map (·.sizeGB)).sum
  | _ => 0

def clusterUsage (c : Cluster) (x : Resource) : Int :=
  ((desiredNodes c).map (·.spec.amount x)).sum + extraDisks c.nodeDisks x

def Cluster.charged (c : Cluster) : Bool := !(c.phase.terminal || c.phase == .deleting)

def usage (existing : List Cluster) (x : Resource) : Int :=
  ((existing.filter Cluster.charged).map (clusterUsage · x)).sum

def Budget.check (b : Budget) (existing : List Cluster) (want : Cluster) : Except String Unit := do
  let used := usage existing
  let wanted := clusterUsage want
  refuseIf (used .vcpu + wanted .vcpu > b.totalVCPU) ("quota: vCPU budget exceeded (" ++
    toString (used .vcpu) ++ " + " ++ toString (wanted .vcpu) ++ " > " ++ toString b.totalVCPU ++
    ")")
  refuseIf (used .memMB + wanted .memMB > b.totalMemMB) ("quota: memory budget exceeded (" ++
    toString (used .memMB) ++ " + " ++ toString (wanted .memMB) ++ " MB > " ++
    toString b.totalMemMB ++ " MB)")
  refuseIf (used .diskGB + wanted .diskGB > b.totalDiskGB) ("quota: disk budget exceeded (" ++
    toString (used .diskGB) ++ " + " ++ toString (wanted .diskGB) ++ " GB > " ++
    toString b.totalDiskGB ++ " GB)")

def clustersExcept (clusters : List Cluster) (id : String) : List Cluster :=
  clusters.filter fun c => c.id != id

/-- The ceiling of one infrastructure; without one nothing is refused. -/
def checkProviderCapacity (ceilings : String → Option Budget) (provider : String)
    (existing : List Cluster) (want : Cluster) : Except String Unit :=
  match ceilings provider with
  | none => pure ()
  | some b => (b.check existing want).mapError fun e => provider ++ " capacity: " ++ e

end KaaS
