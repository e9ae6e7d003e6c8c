import DavGateway.Gateway.Exchange
import DavGateway.Gateway.Settings
import DavGateway.Store.Clusters

/-!
# Starting the gateway

The settings are checked, the clusters connected, the mounts opened and put into a table, and the
slots laid out. Mounts with the same connection share one cluster.
-/

namespace DavGateway

/-- A gateway that is ready to serve. -/
structure Gateway where
  table : MountTable
  engine : Engine Clusters

namespace Gateway

/-- Clusters by the connections that lead to them. -/
abbrev Connected := List (Option String × Nat)

/-- Connects a new cluster, and tells its number. A directory cluster is in the directory that the
connection names, or else in the one of the settings. The threads that carry operations out are
taken to be there: a machine may refuse to make as many as there are slots, and then neither a
cluster in memory nor one in a directory is connected. -/
def connect (s : GatewaySettings) (here : DiskPath) (connection : Option String) (c : Clusters) :
    Except Failure Nat × Clusters :=
  match s.store.backend with
  | .memory =>
    let (number, c) := c.add (.memory c.freshIdentity .empty)
    (.ok number, c)
  | .directory =>
    match connection.or s.store.root with
    | none => (.error (.configuration "fs backend needs store.root"), c)
    | some root =>
      match DirectoryCluster.connect c.disk (DiskPath.ofText here root) c.now c.freshIdentity with
      | (.error failure, disk) => (.error failure, { c with disk := disk })
      | (.ok cluster, disk) =>
        let (number, c) := { c with disk := disk }.add (.directory cluster)
        (.ok number, c)

/-- The cluster for a connection, which is connected unless that has been done. -/
def clusterFor (s : GatewaySettings) (here : DiskPath) (connection : Option String)
    (connected : Connected) (c : Clusters) : Except Failure (Nat × Connected) × Clusters :=
  match connected.lookup connection with
  | some number => (.ok (number, connected), c)
  | none =>
    match connect s here connection c with
    | (.error failure, c) => (.error failure, c)
    | (.ok number, c) => (.ok (number, (connection, number) :: connected), c)

/-- Opens mounts one after the other. -/
def openMounts (s : GatewaySettings) (here : DiskPath) :
    List MountSettings → Connected → Clusters → Except Failure (List Mount) × Clusters
  | [], _, c => (.ok [], c)
  | m :: rest, connected, c =>
    match clusterFor s here m.connection connected c with
    | (.error failure, c) => (.error failure, c)
    | (.ok (number, connected), c) =>
      match Mount.connect Clusters.client m number s.handles s.timeout s.store.createMissing c with
      | (.error failure, c) => (.error failure, c)
      | (.ok mount, c) =>
        match openMounts s here rest connected c with
        | (.error failure, c) => (.error failure, c)
        | (.ok mounts, c) => (.ok (mount :: mounts), c)

/-- Puts open mounts to work. -/
def ofMounts (s : GatewaySettings) (mounts : List Mount) (c : Clusters) : Except Failure Gateway := do
  let table ← MountTable.ofMounts mounts s.defaultMount
  if table.mounts = [] then .error (.configuration "no mounts configured")
  let engine ← Engine.create s.scheduling.mode s.scheduling.concurrency c
  return ⟨table, engine⟩

/-- Starts a gateway. Paths that do not begin at the root begin at the folder `here`. -/
def start (s : GatewaySettings) (here : DiskPath) (c : Clusters) :
    Except Failure Gateway × Clusters :=
  match s.check with
  | .error failure => (.error failure, c)
  | .ok () =>
    match openMounts s here s.mounts [] c with
    | (.error failure, c) => (.error failure, c)
    | (.ok mounts, c) => (ofMounts s mounts c, c)

/-- Answers a request. There is no response while it waits for a slot. -/
def handle (g : Gateway) (r : Http.Request) : Option Http.Response × Gateway :=
  let (response, engine) := (Engine.handle Clusters.client g.table r).run.run g.engine
  (response, { g with engine := engine })

end Gateway

end DavGateway
