import Mathlib.Algebra.Ring.Int.Defs
import PasswdSso.Common
import PasswdSso.ReadCommitted.Returning

/-!
# The rows that the retention worker trims

The rows of a table that are due (`retention-gc-worker/predicate.ts`, and the guards of `sweep.ts`), and the keys that
a sweep chooses among them. The worker's registry names tables and columns as texts, and so does the model: a row is a
function from column names to SQL values, and the database has a list of rows for every table name.
-/

namespace PasswdSso.Retention

open ReadCommitted

inductive SqlValue
  | null
  | bool (value : Bool)
  | time (value : Millis)
  | text (value : String)
  | uuid (value : Uuid)
  deriving DecidableEq

/-- `value < cutoff`, which is not true of `NULL`. -/
def SqlValue.before (cutoff : Millis) : SqlValue → Bool
  | .time value => value < cutoff
  | _ => false

/-- `value > cutoff`, which is not true of `NULL`. -/
def SqlValue.after (cutoff : Millis) : SqlValue → Bool
  | .time value => value > cutoff
  | _ => false

abbrev Row := String → SqlValue

abbrev Key := List SqlValue

abbrev Store := String → List Row

def tableOf (name : String) (keyColumns : List String) : Table Store Key Row where
  rows db := db name
  put db rows := Function.update db name rows
  key row := keyColumns.map row
  rows_put _ _ := Function.update_self ..
  put_rows _ := Function.update_eq_self ..
  put_put _ _ _ := Function.update_idem ..

inductive PredicateClause
  | isNull (column : String)
  | isNotNull (column : String)
  | eq (column : String) (value : Bool)

/-- `renderPredicate`, one clause, as a condition on a row. -/
def PredicateClause.holds (row : Row) : PredicateClause → Bool
  | .isNull column => row column = .null
  | .isNotNull column => row column ≠ .null
  | .eq column value => row column = .bool value

inductive GuardName
  | mcpTokenFamilyDead
  | emergencyGrantDead
  deriving DecidableEq

/-- A row of a child table that refers to `parent`, is not revoked and has not expired. -/
def liveChild (now : Millis) (parentColumn : String) (parent child : Row) : Bool :=
  child parentColumn = parent "id" && child "revoked_at" = .null && (child "expires_at").after now

/-- `GUARD_SQL`. -/
def GuardName.holds (db : Store) (now : Millis) (row : Row) : GuardName → Bool
  | .mcpTokenFamilyDead =>
    !(db "mcp_refresh_tokens").any (liveChild now "access_token_id" row) &&
      !(db "delegation_sessions").any (liveChild now "mcp_token_id" row)
  | .emergencyGrantDead =>
    row "status" = .text "REVOKED" || row "status" = .text "REJECTED" ||
      (row "status" = .text "PENDING" && (row "token_expires_at").before now)

/-- The `tenantRetentionColumn`s of the age-based entries. -/
inductive AgeColumn
  | historyRetentionDays
  | shareAccessLogRetentionDays
  | directorySyncLogRetentionDays
  | notificationRetentionDays
  deriving DecidableEq

structure Tenant where
  id : Uuid
  auditLogRetentionDays : Option Int
  trashRetentionDays : Option Int
  ageRetentionDays : AgeColumn → Option Int

structure Rule where
  table : String
  tenantId : Option Uuid
  cutoffColumn : String
  cutoff : Millis
  predicate : List PredicateClause
  guard : Option GuardName
  now : Millis

def Rule.selects (rule : Rule) (row : Row) : Bool :=
  rule.tenantId.all (fun tenantId ↦ row "tenant_id" = .uuid tenantId) &&
    (row rule.cutoffColumn).before rule.cutoff && rule.predicate.all (·.holds row)

def Rule.due (rule : Rule) (db : Store) (row : Row) : Bool :=
  rule.selects row && rule.guard.all fun guard ↦ guard.holds db rule.now row

/-- The times at which the statements of an entry run: the start of its transaction, and the time at which
the cutoff of a tenant is computed. -/
structure Clock where
  now : Millis
  tenantNow : Uuid → Millis

/-- The lock of a row. -/
structure Lock where
  table : String
  key : Key
  deriving DecidableEq

/-- The tenants, and the order in which a scan without `ORDER BY` finds the rows. -/
structure Env where
  tenants : List Tenant
  scan : String → List Row → List Row
  scan_perm : ∀ name rows, (scan name rows).Perm rows

/-- `SELECT key FROM … WHERE … LIMIT batchSize`. -/
def selectKeys (env : Env) (keyColumns : List String) (rule : Rule) (batchSize : Nat) (db : Store) : List Key :=
  ((env.scan rule.table ((db rule.table).filter (rule.due db))).take batchSize).map
    (tableOf rule.table keyColumns).key

end PasswdSso.Retention
