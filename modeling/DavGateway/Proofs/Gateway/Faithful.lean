import DavGateway.Proofs.Gateway.Start

/-!
# A gateway is faithful from its start

A gateway that is put to work over open mounts is ready: no slot is taken, no session is open and
nothing was handed over. Whatever is asked of it then, one request after the other, it behaves as
the map from pools and keys to byte strings.
-/

namespace DavGateway

variable {s : GatewaySettings} {mounts : List Mount} {c : Clusters} {g : Gateway}

/-! ## Every request is answered as the contents tell -/

/-- Requests to a gateway over memory clusters are made one after the other, with the bodies of the
answers read to their ends, while every operation is carried out before its time is up. Whatever
the requests are, the gateway is a map from clusters, pools and keys to byte strings. -/
theorem gateway_faithful (hstart : Gateway.ofMounts s mounts c = .ok g)
    (hpools : ∀ m ∈ mounts, ∃ p, c.poolAt? m.ref = some p) (hidle : c.dispatcher.jobs = [])
    (hprompt : ∀ m ∈ mounts, ∀ number, (c.dispatcher.delay number).nanos ≤ m.limit.nanos)
    (requests : List Http.Request)
    (hfits : ∀ r ∈ requests, ∃ d verb, r.Fits g.table d verb) : g.Faithful requests :=
  (Gateway.ofMounts_open hstart hpools hidle hprompt).faithful requests hfits

/-- A gateway over memory clusters that was started from its settings is such a map as well. -/
theorem started_faithful {here : DiskPath} {c' : Clusters} (hbackend : s.store.backend = .memory)
    (hmemory : c.InMemory) (hidle : c.dispatcher.jobs = [])
    (hprompt : ∀ m ∈ s.mounts, ∀ number,
      (c.dispatcher.delay number).nanos ≤ (m.limit s.timeout).nanos)
    (hstart : Gateway.start s here c = (.ok g, c')) (requests : List Http.Request)
    (hfits : ∀ r ∈ requests, ∃ d verb, r.Fits g.table d verb) : g.Faithful requests :=
  (Gateway.start_open hbackend hmemory hidle hprompt hstart).faithful requests hfits

/-- A mount that permits everything but new pools. -/
def archiveMount : Mount := ⟨"/m", ⟨0, "archive"⟩, 1, ⟨true, true, false, true⟩, .ofSeconds 4⟩

/-- One memory cluster with an empty pool. -/
def archiveClusters : Clusters :=
  { members := [.memory "archive" ⟨Shelf.set default "archive" ⟨default⟩⟩] }

/-- A gateway with one slot that serves the pool. -/
def archiveGateway : Gateway where
  table := ⟨[archiveMount], none⟩
  engine := ⟨.async, ⟨1, [0], 1, [], [], 0⟩, Switchboard.fresh 1, archiveClusters⟩

/-- An upload in two frames, a listing, a download, a removal, and a look at what is gone. -/
def archiveRequests : List Http.Request :=
  [{ method := "PUT", path := "/m/k", headers := [("content-length", [0x33])],
     body := [.ok [1, 2], .ok [3]] },
    { method := "PROPFIND", path := "/m", headers := [("depth", [0x31])] },
    { method := "GET", path := "/m/k" },
    { method := "DELETE", path := "/m/k" },
    { method := "HEAD", path := "/m/k" }]

theorem archive_fits : ∀ r ∈ archiveRequests, ∃ d verb, r.Fits archiveGateway.table d verb := by
  have hkey : ∃ path, Percent.decode? "/m/k" = some path ∧ path.utf8ByteSize ≤ Http.longestPath
      ∧ archiveGateway.table.resolve path = some ⟨archiveMount, some "k"⟩ :=
    ⟨"/m/k", by decide +kernel, by decide +kernel, by decide +kernel⟩
  have hroot : ∃ path, Percent.decode? "/m" = some path ∧ path.utf8ByteSize ≤ Http.longestPath
      ∧ archiveGateway.table.resolve path = some ⟨archiveMount, none⟩ :=
    ⟨"/m", by decide +kernel, by decide +kernel, by decide +kernel⟩
  intro r hr
  simp only [archiveRequests, List.mem_cons, List.not_mem_nil, or_false] at hr
  rcases hr with rfl | rfl | rfl | rfl | rfl
  · refine ⟨_, .put, ⟨by decide, hkey⟩, rfl, rfl, by decide, ?_, fun _ => by decide, fun _ => ?_⟩
    · intro _ frame hf
      simp only [List.mem_cons, List.not_mem_nil, or_false] at hf
      rcases hf with rfl | rfl <;> exact ⟨_, rfl⟩
    · exact .inr (.inl (by decide +kernel))
  · exact ⟨_, .propfind, ⟨by decide, hroot⟩, rfl, rfl, ⟨rfl, by decide +kernel⟩, nofun, nofun, nofun⟩
  · exact ⟨_, .get, ⟨by decide, hkey⟩, rfl, rfl, by decide, nofun, nofun, nofun⟩
  · exact ⟨_, .delete, ⟨by decide, hkey⟩, rfl, rfl, by decide, nofun, nofun, nofun⟩
  · exact ⟨_, .head, ⟨by decide, hkey⟩, rfl, rfl, by decide, nofun, nofun, nofun⟩

theorem gateway_faithful_archive :
    Gateway.ofMounts { scheduling := ⟨.async, 1⟩ } [archiveMount] archiveClusters =
      .ok archiveGateway ∧ archiveGateway.Faithful archiveRequests := by
  have hstart : Gateway.ofMounts { scheduling := ⟨.async, 1⟩ } [archiveMount] archiveClusters =
      .ok archiveGateway := by
    have htable : MountTable.ofMounts [archiveMount] none = .ok ⟨[archiveMount], none⟩ := by
      simp [MountTable.ofMounts, MountTable.twin?]
    unfold Gateway.ofMounts
    rw [htable]
    rfl
  refine ⟨hstart, gateway_faithful hstart ?_ rfl ?_ archiveRequests archive_fits⟩
  · intro m hm
    rw [List.mem_singleton.mp hm]
    exact ⟨{}, by decide +kernel⟩
  · intro m hm number
    exact Nat.zero_le _

/-- The body of the answer to HEAD is not empty if there is no such object, and a listing is
refused if the request has no path, though a mount without a base covers it. -/
theorem archive_refusals :
    (({ method := "HEAD", path := "/m/k" } : Http.Request).Fits archiveGateway.table
        ⟨archiveMount, some "k"⟩ .head
      ∧ (archiveGateway.exchange { method := "HEAD", path := "/m/k" }).1.map Exchange.chunks =
        some [Bytes.ofText "404 Not Found\n"])
    ∧ ∃ t d, t.resolve "" = some d ∧ d.key = none ∧ d.mount.permissions.propfind
      ∧ (({ archiveGateway with table := t } : Gateway).exchange
        { method := "PROPFIND", path := "", headers := [("depth", [0x31])] }).1.map
          Exchange.status = some 403 := by
  refine ⟨⟨⟨?_, rfl, rfl, by decide, nofun, nofun, nofun⟩, by decide +kernel⟩,
    ⟨[{ archiveMount with base := "" }], none⟩, ⟨{ archiveMount with base := "" }, none⟩,
    by decide +kernel, rfl, rfl, by decide +kernel⟩
  exact ⟨by decide, "/m/k", by decide +kernel, by decide +kernel, by decide +kernel⟩

end DavGateway
