import DavGateway.Store.Directory
import DavGateway.Store.Dispatcher
import DavGateway.Store.Memory

/-!
# Clusters

The clusters a gateway is connected to, numbered from 0. Memory clusters keep their pools
themselves; directory clusters keep them on one disk that they share.
-/

namespace DavGateway

/-- A cluster in memory, or one in a directory. -/
inductive Cluster where
  | memory (identity : String) (cluster : MemoryCluster)
  | directory (cluster : DirectoryCluster)

namespace Cluster

/-- The identity of a cluster. -/
def identity : Cluster → String
  | .memory identity _ => identity
  | .directory cluster => cluster.identity

/-- Looks a pool up. -/
def openPool (c : Cluster) (disk : Disk) (name : String) : Except Failure Unit :=
  match c with
  | .memory _ cluster => cluster.openPool name
  | .directory cluster => cluster.openPool disk name

/-- Makes a pool. -/
def createPool (c : Cluster) (disk : Disk) (name : String) :
    Except Failure Unit × Cluster × Disk :=
  match c with
  | .memory identity cluster =>
    let (result, cluster) := cluster.createPool name
    (result, .memory identity cluster, disk)
  | .directory cluster =>
    let (result, disk) := cluster.createPool disk name
    (result, c, disk)

/-- Performs an operation on a pool at the time `now`. -/
def perform (c : Cluster) (disk : Disk) (now : Int) (pool : String) (operation : Operation) :
    Ending Reply × Cluster × Disk :=
  match c with
  | .memory identity cluster =>
    let (ending, cluster) := cluster.perform now pool operation
    (ending, .memory identity cluster, disk)
  | .directory cluster =>
    let (ending, disk) := DirectoryPool.perform ⟨cluster.root ++ [pool]⟩ disk now operation
    (ending, c, disk)

/-- The keys of a pool, in ascending order. -/
def keys (c : Cluster) (disk : Disk) (pool : String) : Except Failure (List String) :=
  match c with
  | .memory _ cluster => .ok (cluster.keys pool)
  | .directory cluster => DirectoryPool.keys ⟨cluster.root ++ [pool]⟩ disk

end Cluster

/-- All clusters, the disk, the time at which objects are changed, and the operations that were
handed over. -/
structure Clusters where
  members : List Cluster := []
  disk : Disk := {}
  now : Int := 0
  dispatcher : Dispatcher := {}

instance : Inhabited Clusters := ⟨{}⟩

namespace Clusters

/-- The answer about a cluster that is not there. -/
def missing (c : Nat) : Failure := .internal ("no cluster " ++ toString c)

/-- Adds a cluster, and tells its number. -/
def add (c : Clusters) (cluster : Cluster) : Nat × Clusters :=
  (c.members.length, { c with members := c.members ++ [cluster] })

/-- The identity of the next cluster, unless it has one already: its number, in 26 digits. -/
def freshIdentity (c : Clusters) : String := Text.padded 26 c.members.length

/-- Looks a pool up. -/
def openPool (ref : PoolRef) (c : Clusters) : Except Failure Unit × Clusters :=
  match c.members[ref.cluster]? with
  | some cluster => (cluster.openPool c.disk ref.pool, c)
  | none => (.error (missing ref.cluster), c)

/-- Makes a pool. -/
def createPool (ref : PoolRef) (c : Clusters) : Except Failure Unit × Clusters :=
  match c.members[ref.cluster]? with
  | some cluster =>
    let (result, cluster, disk) := cluster.createPool c.disk ref.pool
    (result, { c with members := c.members.set ref.cluster cluster, disk := disk })
  | none => (.error (missing ref.cluster), c)

/-- Performs an operation. -/
def perform (ref : PoolRef) (operation : Operation) (c : Clusters) : Ending Reply × Clusters :=
  match c.members[ref.cluster]? with
  | some cluster =>
    let (ending, cluster, disk) := cluster.perform c.disk c.now ref.pool operation
    (ending, { c with members := c.members.set ref.cluster cluster, disk := disk })
  | none => (.returned (.error (missing ref.cluster)), c)

/-- The keys of a pool, in ascending order. -/
def list (ref : PoolRef) (c : Clusters) : Except Failure (List String) × Clusters :=
  match c.members[ref.cluster]? with
  | some cluster => (cluster.keys c.disk ref.pool, c)
  | none => (.error (missing ref.cluster), c)

/-- Hands an operation over. -/
def submit (ref : PoolRef) (operation : Operation) (ticket : Nat) (c : Clusters) : Clusters :=
  { c with dispatcher := c.dispatcher.submit ref operation ticket }

/-- Lets time pass until an operation is carried out. -/
def await (ticket : Nat) (limit : Span) (c : Clusters) : Completed × Clusters :=
  let (completed, dispatcher, c) := c.dispatcher.await perform ticket limit c
  (completed, { c with dispatcher := dispatcher })

/-- The clusters as the gateway sees them. -/
def client : StoreClient Clusters where
  openPool := openPool
  createPool := createPool
  perform ref operation c :=
    let (ending, c) := perform ref operation c
    (ending.result, c)
  list := list
  advance _ _ c := (.ok (), c)
  allocate _ c := (.ok (), c)
  submit ref operation ticket c := ((.ok (), []), submit ref operation ticket c)
  await := await

end Clusters

end DavGateway
