import ResourceQuery.Json.Reading

/-!
# Settings

## Main Definitions

- `QuerySettings`: how requests are divided into pages and counted.
- `PoolSettings`: how connections to the database are kept.
-/

namespace ResourceQuery

open Json (Reading)

/-- How requests are divided into pages and counted. -/
structure QuerySettings where
  /-- The size of a page when a request asks for none. -/
  defaultPageSize : UInt32
  /-- The largest size that a request may ask for. -/
  maxPageSize? : Option UInt32
  /-- Are all matching resources counted too. -/
  includeTotalCount : Bool
deriving DecidableEq

namespace QuerySettings

/-- Ten resources a page, any size allowed, and no count. -/
def standard : QuerySettings where
  defaultPageSize := 10
  maxPageSize? := none
  includeTotalCount := false

instance : Inhabited QuerySettings := ⟨standard⟩

/-- Settings as a document. -/
def toJson (s : QuerySettings) : Json :=
  .object [("defaultPageSize", Json.ofUInt32 s.defaultPageSize),
    ("maxPageSize", Json.ofOption Json.ofUInt32 s.maxPageSize?),
    ("includeTotalResourceCount", .bool s.includeTotalCount)]

/-- The settings of a document. -/
def ofReading? (r : Reading) : Option QuerySettings := do
  let members ← r.members?
  let defaultPageSize ←
    Reading.defaulted? members "defaultPageSize" standard.defaultPageSize Json.uint32?
  let maxPageSize? ← Reading.optional? members "maxPageSize" Json.uint32?
  let includeTotalCount ← Reading.defaulted? members "includeTotalResourceCount"
    standard.includeTotalCount Json.bool?
  return { defaultPageSize, maxPageSize?, includeTotalCount }

end QuerySettings

/-- How connections to the database are kept.  Times are in seconds. -/
structure PoolSettings where
  maxConnections : UInt32
  /-- How long to wait for a connection. -/
  acquireTimeout : UInt64
  /-- How long an unused connection is kept. -/
  idleTimeout? : Option UInt64
  /-- How long any connection is kept. -/
  lifetime? : Option UInt64
deriving DecidableEq

namespace PoolSettings

/-- Fifty connections, half a minute to wait, three minutes unused, ten minutes in all. -/
def standard : PoolSettings where
  maxConnections := 50
  acquireTimeout := 30
  idleTimeout? := some 180
  lifetime? := some 600

instance : Inhabited PoolSettings := ⟨standard⟩

/-- Settings as a document. -/
def toJson (s : PoolSettings) : Json :=
  .object [("maxConnections", Json.ofUInt32 s.maxConnections),
    ("poolTimeout", Json.ofUInt64 s.acquireTimeout),
    ("idleTimeout", Json.ofOption Json.ofUInt64 s.idleTimeout?),
    ("connectionLifetime", Json.ofOption Json.ofUInt64 s.lifetime?)]

/-- The settings of a document.  A time that is null is unlimited, one that is left out has its
default. -/
def ofReading? (r : Reading) : Option PoolSettings := do
  let members ← r.members?
  let maxConnections ←
    Reading.defaulted? members "maxConnections" standard.maxConnections Json.uint32?
  let acquireTimeout ←
    Reading.defaulted? members "poolTimeout" standard.acquireTimeout Json.uint64?
  let idleTimeout? ← Reading.defaulted? members "idleTimeout" standard.idleTimeout?
    (Json.nullable? Json.uint64?)
  let lifetime? ← Reading.defaulted? members "connectionLifetime" standard.lifetime?
    (Json.nullable? Json.uint64?)
  return { maxConnections, acquireTimeout, idleTimeout?, lifetime? }

end PoolSettings

end ResourceQuery
