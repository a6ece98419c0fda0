/-
Round-robin resolution: each service has a list of instances and a cursor that moves on with every
resolution, whatever list is set.
-/
import ResilientClient.Target
import ResilientClient.Trace

namespace ResilientClient

/-- The instances of one service. -/
structure ServerPool where
  servers : List Server
  /-- The number of resolutions, in 64 bits. -/
  cursor : UInt64
deriving DecidableEq, Repr

/-- The pools of the services that have ever been set. -/
structure RoundRobin where
  pools : List (String × ServerPool)
deriving DecidableEq, Repr

namespace RoundRobin

def empty : RoundRobin := ⟨[]⟩

def pool? (r : RoundRobin) (service : String) : Option ServerPool :=
  (r.pools.find? fun entry => entry.1 == service).map Prod.snd

/-- Changes the pool of a service, or adds a new one. -/
def put (service : String) (pool : ServerPool) :
    List (String × ServerPool) → List (String × ServerPool)
  | [] => [(service, pool)]
  | entry :: rest =>
    if entry.1 = service then (service, pool) :: rest else entry :: put service pool rest

/-- The instances of a service. -/
def servers (r : RoundRobin) (service : String) : List Server :=
  ((r.pool? service).map ServerPool.servers).getD []

/-- Replaces the instances of a service; the cursor stays. -/
def setServers (r : RoundRobin) (service : String) (servers : List Server) : RoundRobin :=
  let cursor := ((r.pool? service).map ServerPool.cursor).getD 0
  ⟨put service ⟨servers, cursor⟩ r.pools⟩

/-- The log line of a replaced list. -/
def updateLine (service : String) (servers : List Server) : TraceLine :=
  ⟨.debug, "server list updated",
    [("service", service), ("count", toString servers.length)]⟩

/-- The next instance of a service, if it has any. -/
def resolve (r : RoundRobin) (service : String) : Except Error Server × RoundRobin :=
  match r.pool? service with
  | none => (.error (.noInstances service), r)
  | some pool =>
    match pool.servers[pool.cursor.toNat % pool.servers.length]? with
    | none => (.error (.noInstances service), r)
    | some server =>
      (.ok server, ⟨put service { pool with cursor := pool.cursor + 1 } r.pools⟩)

end RoundRobin

end ResilientClient
