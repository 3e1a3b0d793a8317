import ResourceQuery.Configuration.Settings
import ResourceQuery.Sql.Value

/-!
# Metrics

What is counted while a database is used, and how it is published.

## Main Definitions

- `Metrics`: the counters.
- `PoolGauges`: the measurements of a connection pool.
- `Metrics.families`: all measurements by name.
- `Registry.register?`: publishing them, which can be done only once.
-/

namespace ResourceQuery

/-- What is counted while a database is used. -/
structure Metrics where
  /-- Queries that succeeded. -/
  queries : Nat
  /-- Transactions that were kept. -/
  mutations : Nat
  /-- Transactions that were undone. -/
  mutationFailures : Nat
  /-- Statements sent to the database. -/
  statements : Nat
deriving DecidableEq

namespace Metrics

/-- Nothing has been counted. -/
def zero : Metrics := ⟨0, 0, 0, 0⟩

instance : Inhabited Metrics := ⟨zero⟩

/-- Count a query that succeeded. -/
def countQuery (m : Metrics) : Metrics := { m with queries := m.queries + 1 }

/-- Count a transaction that was kept. -/
def countMutation (m : Metrics) : Metrics := { m with mutations := m.mutations + 1 }

/-- Count a transaction that is undone. -/
def countMutationFailure (m : Metrics) : Metrics :=
  { m with mutationFailures := m.mutationFailures + 1 }

/-- Count a statement sent to the database. -/
def countStatement (m : Metrics) : Metrics := { m with statements := m.statements + 1 }

end Metrics

/-- The measurements of a connection pool.  Times are in seconds. -/
structure PoolGauges where
  size : Nat
  idle : Nat
  maxConnections : Nat
  minConnections : Nat
  acquireTimeout : Nat
  idleTimeout : Nat
  maxLifetime : Nat

namespace PoolGauges

/-- The number of connections that are used. -/
def active (g : PoolGauges) : Nat := g.size - g.idle

/-- Nothing has been measured. -/
def zero : PoolGauges := ⟨0, 0, 0, 0, 0, 0, 0⟩

/-- The measurements of a pool that has not opened any connection.  Times without limit show as
zero. -/
def ofSettings (s : PoolSettings) : PoolGauges where
  size := 0
  idle := 0
  maxConnections := s.maxConnections.toNat
  minConnections := 0
  acquireTimeout := s.acquireTimeout.toNat
  idleTimeout := (s.idleTimeout?.getD 0).toNat
  maxLifetime := (s.lifetime?.getD 0).toNat

end PoolGauges

/-- A published measurement. -/
structure MetricFamily where
  name : String
  help : String
  value : Binary64

/-- A measurement in the text that is published. -/
def MetricFamily.valueText (f : MetricFamily) : String :=
  Sql.Value.displayLayout.write f.value

/-- All measurements, by name.  Every value is published as a double-precision number. -/
def Metrics.families (m : Metrics) (g : PoolGauges) : List MetricFamily :=
  [("mutation_failure_total",
      "Total mutations rolled back because a statement failed or affected an unexpected number of rows.",
      m.mutationFailures),
    ("mutation_total", "Total committed mutations.", m.mutations),
    ("pool_acquire_timeout",
      "Get the maximum amount of time to spend waiting for a connection, in seconds.",
      g.acquireTimeout),
    ("pool_active",
      "The number of connections current active. This does not include idle connections.",
      g.active),
    ("pool_idle", "The number of connections active and idle (not in use).", g.idle),
    ("pool_idle_timeout",
      "Get the maximum idle duration for individual connections, in seconds.", g.idleTimeout),
    ("pool_max_connections",
      "The maximum number of connections that this pool should maintain.", g.maxConnections),
    ("pool_max_lifetime",
      "Get the maximum lifetime of individual connections, in seconds.", g.maxLifetime),
    ("pool_min_connections",
      "The minimum number of connections that this pool should maintain.", g.minConnections),
    ("pool_size",
      "The number of connections currently active. This includes idle connections.", g.size),
    ("query_total", "Total successful queries.", m.queries),
    ("statement_total", "Total statements sent to the database.", m.statements)].map
    fun (name, help, value) => ⟨"resource_sql_" ++ name, help, Binary64.ofInt value⟩

/-- The names under which measurements are published. -/
abbrev Registry := List String

/-- Publish measurements under their names, unless one of the names is taken. -/
def Registry.register? (registry : Registry) (families : List MetricFamily) : Option Registry :=
  families.foldlM
    (fun (registry : Registry) family =>
      if family.name ∈ registry then none else some (family.name :: registry))
    registry

end ResourceQuery
