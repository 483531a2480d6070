import ControlPlane.Db.Tools
import ControlPlane.Db.Transitions

/-! # Everything the program stores

The task tables, the registry and the audit log. -/

namespace ControlPlane
open Keyed Fallible

/-- A record of the audit log; its id is its position. -/
structure AuditEvent where
  tenantId : TenantId
  actor : String := "system"
  action : String
  resourceType : String
  resourceId : Option Nat := none
  outcome : String
  data : Json := .obj []

structure Store where
  db : Database
  reg : Registry
  audit : List AuditEvent := []

def Store.empty : Store where
  db := .empty
  reg := .empty

def recordAudit (s : Store) (e : AuditEvent) : Store := { s with audit := s.audit ++ [e] }

end ControlPlane
