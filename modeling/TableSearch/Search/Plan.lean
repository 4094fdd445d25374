/-
Planned searches.

A plan holds everything that a search needs of the registry: the table, the predicate of
the filters and the followed sort terms.  Making it reports every bad filter and every
bad sort term before a database is asked.
-/
import TableSearch.Predicate.Build
import TableSearch.Sql.Statement

namespace TableSearch

structure Plan where
  entity : Entity
  predicate : Predicate
  terms : List Sql.ResolvedTerm

namespace Plan

def resolveTerm (r : Registry) (root : Entity) (t : SortTerm) :
    Except QueryError Sql.ResolvedTerm := do
  let path ← AttributePath.resolve r root t.property
  return { path, direction := t.direction, nulls := t.nulls }

/-- The predicate of search parameters.  All keys are read before any path is followed. -/
def predicateOf (r : Registry) (root : Entity) (params : SearchParams) :
    Except QueryError Predicate := do
  let filters ← Filter.parseAll params.entries
  Predicate.ofFilters r root filters

/-- The plan of a search for an entity: first the filters, in key order, and then the sort
terms, in their order, may be at fault. -/
def make (r : Registry) (entity : String) (params : SearchParams) (sort : SortOrder) :
    Except QueryError Plan := do
  let root ← r.get entity
  let predicate ← predicateOf r root params
  let terms ← sort.terms.mapM (resolveTerm r root)
  return { entity := root, predicate, terms }

def select (p : Plan) (w : Option Sql.Window) : Sql.Statement :=
  Sql.Statement.select p.entity.table p.predicate p.terms w

def count (p : Plan) : Sql.Statement :=
  Sql.Statement.count p.entity.table p.predicate

end Plan
end TableSearch
