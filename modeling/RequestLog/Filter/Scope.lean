import RequestLog.Filter.Error
import RequestLog.Text.Blank

/-!
# Tenant scope

A query reads the rows of one organization. Only a scoped filter is compiled, and
scoping puts the organization in front of the caller's own filter as the left
side of a conjunction, so that its argument is bound before theirs.
-/

namespace RequestLog

/-- The name of an organization; it is not blank. -/
structure Tenant where
  name : String
  notBlank : Text.blank name = false

def Tenant.ofName (name : String) : Except FilterError Tenant :=
  if h : Text.blank name = false then .ok ⟨name, h⟩ else .error .invalidTenant

/-- A filter over the rows of one table that belong to one tenant. -/
structure ScopedFilter where
  source : Table
  tenant : Tenant
  filter : Filter

namespace ScopedFilter

def ownRows (s : ScopedFilter) : Filter :=
  .leaf ⟨s.source, .organizationId, .equals, .text s.tenant.name⟩

def tree (s : ScopedFilter) : Filter := s.ownRows.and s.filter

end ScopedFilter

end RequestLog
