import KaaS.API.Tunnel
import KaaS.App.AddonSet
import KaaS.Audit.Page
import KaaS.Domain.Hostnames
import KaaS.Domain.Plans
import KaaS.Domain.Retention
import KaaS.Domain.Windows
import KaaS.Events.Relay
import KaaS.Health.Evidence
import KaaS.Kube.Network
import KaaS.Kube.Secrecy
import KaaS.Net.Leases
import KaaS.Net.NetBox
import KaaS.Net.Scan
import KaaS.Net.Search
import KaaS.NodeSSH.CommandLog
import KaaS.Provision.Libvirt
import KaaS.Reconcile.Queue
import KaaS.Registry.Page
import KaaS.Store.Postgres
import KaaS.System.AddonNames
import KaaS.System.Addresses
import KaaS.System.Defrags
import KaaS.System.DiskSlots
import KaaS.System.Gateway
import KaaS.System.Grants
import KaaS.System.Interfaces
import KaaS.System.Liveness
import KaaS.System.Logins
import KaaS.System.Memberships
import KaaS.System.Operations
import KaaS.System.Orphans
import KaaS.System.Owners
import KaaS.System.Passwords
import KaaS.System.Progress
import KaaS.System.Projects
import KaaS.System.Promotion
import KaaS.System.Releases
import KaaS.System.Repairs
import KaaS.System.Revocation
import KaaS.System.Robots
import KaaS.System.Volumes
import KaaS.Vault.Policies
