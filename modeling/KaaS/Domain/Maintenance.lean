import KaaS.Domain.Desired

/-!
# Time-driven maintenance

The work a converged cluster gets because of the clock: certificate renewal, etcd
observation and defragmentation, and control-plane snapshots. Each is a policy and a test
whether it is due. Ratios are exact rationals. A maintenance window reads an instant as
local weekday and minute of the day through its location, `loc`.
-/

namespace KaaS

open Text

/-! ### Certificates -/

def Cluster.converged (c : Cluster) : Bool :=
  c.phase == .ready && c.observedGeneration == c.generation

def Cluster.certRenewalDue (c : Cluster) (cutoff : Time) : Bool :=
  c.converged &&
    match c.certNotAfter with
    | none => true
    | some t => decide (t < cutoff)

def Cluster.upgradePending (c : Cluster) : Bool :=
  c.targetBundle != "" && c.targetBundle != c.bundle

/-! ### Etcd -/

def etcdAlarmNoSpace : String := "NOSPACE"

/-- A weekly window: its days (all if empty), first and last minute of the day, and how its
location reads an instant. -/
structure MaintenanceWindow where
  days : List Nat := []
  start : Int := 0
  stop : Int := 0
  loc : Time → Nat × Int := fun _ => (0, 0)
  set : Bool := false

namespace MaintenanceWindow

def dayOK (w : MaintenanceWindow) (d : Nat) : Bool := w.days == [] || w.days.contains d

def allows (w : MaintenanceWindow) (t : Time) : Bool :=
  if !w.set then true
  else
    let (weekday, mins) := w.loc t
    if w.stop > w.start then w.dayOK weekday && decide (mins ≥ w.start) && decide (mins < w.stop)
    else if mins ≥ w.start then w.dayOK weekday
    else if mins < w.stop then w.dayOK ((weekday + 6) % 7)
    else false

end MaintenanceWindow

structure EtcdDefragPolicy where
  enabled : Bool := false
  observeInterval : Duration := 0
  minRatio : ℚ := 0
  minBytes : Int := 0
  minInterval : Duration := 0
  window : MaintenanceWindow := {}

def EtcdStatus.fragmentationRatio (s : EtcdStatus) : ℚ :=
  if s.dbBytes ≤ 0 ∨ s.dbInUseBytes ≥ s.dbBytes then 0
  else ((s.dbBytes - s.dbInUseBytes : Int) : ℚ) / (s.dbBytes : ℚ)

def EtcdStatus.hasAlarm (s : EtcdStatus) (name : String) : Bool := s.alarms.contains name

namespace EtcdDefragPolicy

def defragDue (p : EtcdDefragPolicy) (s : EtcdStatus) (members : Int) (now : Time) : Bool :=
  if !p.enabled then false
  else if s.observedAt = none then false
  else if s.members < members then false
  else if s.hasAlarm etcdAlarmNoSpace then true
  else if s.dbBytes < p.minBytes then false
  else if s.fragmentationRatio < p.minRatio then false
  else if s.defraggedAt.any fun t => decide (now - t < p.minInterval) then false
  else p.window.allows now

def observationDue (p : EtcdDefragPolicy) (s : Option EtcdStatus) (now : Time) : Bool :=
  p.enabled &&
    match s.bind (·.observedAt) with
    | none => true
    | some t => decide (now - t ≥ p.observeInterval)

end EtcdDefragPolicy

def Cluster.etcdMaintenanceDue (c : Cluster) (p : EtcdDefragPolicy) (now : Time) : Bool :=
  c.converged && p.observationDue c.etcd now

/-! ### Snapshots -/

structure EtcdSnapshot where
  id : String := ""
  clusterID : String := ""
  takenAt : Time := 0
  revision : Int := 0
  sizeBytes : Int := 0
  deriving DecidableEq

structure EtcdSnapshotPolicy where
  enabled : Bool := false
  interval : Duration := 0
  retain : Int := 0
  maxRestoreAge : Duration := 0

namespace EtcdSnapshotPolicy

def snapshotDue (p : EtcdSnapshotPolicy) (last : Option Time) (now : Time) : Bool :=
  p.enabled &&
    match last with
    | none => true
    | some t => decide (now - t ≥ p.interval)

/-- The snapshots beyond the newest `retain`, of which at least one is always kept. -/
def pruneEtcdSnapshots (p : EtcdSnapshotPolicy) (snaps : List EtcdSnapshot) :
    List EtcdSnapshot :=
  let retain := if p.retain < 1 then 1 else p.retain
  if (snaps.length : Int) ≤ retain then []
  else (snaps.insertionSort fun a b => b.takenAt ≤ a.takenAt).drop retain.toNat

end EtcdSnapshotPolicy

def Cluster.etcdSnapshotDue (c : Cluster) (p : EtcdSnapshotPolicy) (now : Time) : Bool :=
  c.converged && p.snapshotDue c.etcdSnapshotAt now

def humanDuration (d : Duration) : String :=
  if d < .minute then toString (d.tdiv Duration.second) ++ "s"
  else if d < .hour then toString (d.tdiv Duration.minute) ++ "m"
  else if d < 48 * .hour then toString (d.tdiv Duration.hour) ++ "h"
  else toString (d.tdiv (24 * Duration.hour)) ++ "d"

/-- The snapshot a restore would use: the newest, unless it is too old. -/
def restorableSnapshot (snaps : List EtcdSnapshot) (p : EtcdSnapshotPolicy) (now : Time) :
    Except String EtcdSnapshot :=
  match snaps with
  | [] => throw "no etcd snapshot has been stored for this cluster"
  | first :: rest =>
    let newest := rest.foldl (fun n s => if s.takenAt > n.takenAt then s else n) first
    let age := now - newest.takenAt
    if p.maxRestoreAge > 0 ∧ age > p.maxRestoreAge then
      throw ("newest etcd snapshot is " ++ humanDuration age ++ " old, beyond the " ++
        humanDuration p.maxRestoreAge ++ " restore limit")
    else pure newest

end KaaS
