import PasswdSso.Crypto.Aad
import PasswdSso.Mcp.FamilyRevocation
import PasswdSso.Mcp.Revocation
import PasswdSso.Mcp.CodeRedemption
import PasswdSso.Extension.AccessRefresh
import PasswdSso.Dpop.SingleUse
import PasswdSso.Vault.Rebootstrap
import PasswdSso.Team.Coverage
import PasswdSso.Team.Material
import PasswdSso.EmergencyAccess.WaitingPeriod
import PasswdSso.Audit.WorkItems
import PasswdSso.AuditAnchor.Manifests
import PasswdSso.Retention.Provenance
import PasswdSso.DirectorySync.SafetyLimit
import PasswdSso.DirectorySync.Convergence
import PasswdSso.DirectorySync.Fencing
import PasswdSso.SignIn.DisplayChars
import PasswdSso.SignIn.Migration
import PasswdSso.Rls.Lexical
import PasswdSso.Rls.Atomicity
import PasswdSso.BreakGlass.CoolingOff
import PasswdSso.Sessions.TimeoutCache
import PasswdSso.Ssh.Connection
import PasswdSso.Ssh.SignRequest
import PasswdSso.Lockout.Progression
import PasswdSso.Hierarchy.Cycles
import PasswdSso.Hierarchy.FolderUtils
import PasswdSso.IosCache.Recovery
import PasswdSso.IpAccess
import PasswdSso.Autofill.HostMatch
import PasswdSso.Scim.GroupPatch
import PasswdSso.Attachments.Blobs
