import DavGateway.Proofs.Gateway.NewPools
import DavGateway.Proofs.Gateway.Routing

/-!
# Connections and clusters

The first mount with a connection connects a new cluster, and the next ones find it by the
connection. So with clusters in memory every connection leads to a cluster of its own
(`Gateway.Connected.Leads`), and two mounts are on one pool just if they have the same connection
and the same name of a pool (`Gateway.start_refs`).
-/

namespace DavGateway.Gateway

variable {s : GatewaySettings} {settings settings' : MountSettings} {here : DiskPath}
variable {connected connected' : Connected} {c c' c₁ c₂ : Clusters} {mounts : List Mount}
variable {m m' : Mount} {g : Gateway} {connection : Option String} {number : Nat}

/-- Every connection leads to a cluster that has a pool, and to another cluster than the others. -/
structure Connected.Leads (connected : Connected) (c : Clusters) : Prop where
  pools : ∀ {connection number}, connected.lookup connection = some number →
    ∃ name p, c.poolAt? ⟨number, name⟩ = some p
  separates : ∀ {connection connection' number}, connected.lookup connection = some number →
    connected.lookup connection' = some number → connection = connection'

theorem lookup_cons_eq (connected : Connected) (known connection : Option String) (number : Nat) :
    List.lookup connection ((known, number) :: connected) =
      if connection = known then some number else connected.lookup connection := by
  rw [List.lookup_cons]
  by_cases hsame : connection = known
  · rw [if_pos hsame, beq_iff_eq.mpr hsame]
  · rw [if_neg hsame, beq_eq_false_iff_ne.mpr hsame]

/-- A connection is known, or a new cluster gets the next number. -/
theorem clusterFor_cases (hbackend : s.store.backend = .memory)
    (h : clusterFor s here connection connected c = (.ok (number, connected'), c')) :
    (connected.lookup connection = some number ∧ connected' = connected)
    ∨ (connected.lookup connection = none ∧ number = c.members.length
      ∧ connected' = (connection, number) :: connected) := by
  unfold clusterFor at h
  split at h
  · next found hfound =>
    cases h
    exact .inl ⟨hfound, rfl⟩
  · next hnew =>
    unfold connect at h
    rw [hbackend] at h
    cases h
    exact .inr ⟨hnew, rfl, rfl⟩

/-- Once a mount is open, its connection leads to its cluster, and the others lead where they
led. -/
theorem Connected.Leads.opened (h : connected.Leads c) (hbackend : s.store.backend = .memory)
    (hmemory : c.InMemory)
    (hcluster : clusterFor s here settings.connection connected c = (.ok (number, connected'), c₁))
    (hconnect : Mount.connect Clusters.client settings number s.handles s.timeout
      s.store.createMissing c₁ = (.ok m, c₂)) :
    connected'.Leads c₂ ∧ connected'.lookup settings.connection = some m.ref.cluster
      ∧ ∀ {connection number}, connected.lookup connection = some number →
        connected'.lookup connection = some number := by
  have hgrows₁ := clusterFor_grows hbackend hcluster
  obtain ⟨hgrows₂, ⟨p, hpool⟩, -⟩ := Mount.connect_opens (hgrows₁.memory hmemory) hconnect
  obtain ⟨-, rfl⟩ := Mount.connect_isOf hconnect
  have hgrows := hgrows₁.trans hgrows₂
  have hkeeps : ∀ {connection number}, connected.lookup connection = some number →
      ∃ name p, c₂.poolAt? ⟨number, name⟩ = some p := by
    intro connection number hlookup
    obtain ⟨name, p, hp⟩ := h.pools hlookup
    exact ⟨name, p, hgrows.pools hp⟩
  rcases clusterFor_cases hbackend hcluster with ⟨hknown, rfl⟩ | ⟨hnew, hnumber, rfl⟩
  · exact ⟨⟨hkeeps, h.separates⟩, hknown, id⟩
  · -- the number is new, since a cluster with a pool has a smaller one
    have hfresh : ∀ connection, connected.lookup connection ≠ some m.ref.cluster := by
      intro connection hlookup
      obtain ⟨name, p, hp⟩ := h.pools hlookup
      obtain ⟨member, hmember, -⟩ := Option.bind_eq_some_iff.mp hp
      have hlt := (List.getElem?_eq_some_iff.mp hmember).1
      exact Nat.ne_of_lt hlt hnumber
    refine ⟨⟨?_, ?_⟩, ?_, ?_⟩
    · intro connection number hnumber
      rw [lookup_cons_eq] at hnumber
      split at hnumber
      · cases hnumber
        exact ⟨m.ref.pool, p, hpool⟩
      · exact hkeeps hnumber
    · intro connection connection' number hleft hright
      rw [lookup_cons_eq] at hleft hright
      split at hleft <;> split at hright
      · next hsame hsame' => exact hsame.trans hsame'.symm
      · cases hleft
        exact absurd hright (hfresh connection')
      · cases hright
        exact absurd hleft (hfresh connection)
      · exact h.separates hleft hright
    · rw [lookup_cons_eq, if_pos rfl]
    · intro connection number hold
      rw [lookup_cons_eq]
      split
      · next hsame =>
        rw [hsame, hnew] at hold
        cases hold
      · exact hold

/-- When mounts are open, the connection of each of them leads to its cluster. -/
theorem Connected.Leads.openMounts (h : connected.Leads c) (hbackend : s.store.backend = .memory)
    (hmemory : c.InMemory) {list : List MountSettings}
    (hopen : Gateway.openMounts s here list connected c = (.ok mounts, c')) :
    ∃ connected' : Connected, connected'.Leads c'
      ∧ (∀ {connection number}, connected.lookup connection = some number →
        connected'.lookup connection = some number)
      ∧ List.Forall₂ (fun settings m => m.IsOf s settings
        ∧ connected'.lookup settings.connection = some m.ref.cluster) list mounts := by
  -- induction on the mounts that are still to be opened
  induction list generalizing connected c mounts with
  | nil =>
    cases hopen
    exact ⟨connected, h, id, .nil⟩
  | cons settings rest ih =>
    unfold Gateway.openMounts at hopen
    split at hopen
    · cases (Prod.mk.inj hopen).1
    · next number connected₁ c₁ hcluster =>
      split at hopen
      · cases (Prod.mk.inj hopen).1
      · next m c₂ hconnect =>
        obtain ⟨hleads, hlookup, hold⟩ := h.opened hbackend hmemory hcluster hconnect
        have hgrows₁ := clusterFor_grows hbackend hcluster
        have hgrows₂ := (Mount.connect_opens (hgrows₁.memory hmemory) hconnect).1
        split at hopen
        · cases (Prod.mk.inj hopen).1
        · next others c₃ hothers =>
          cases hopen
          obtain ⟨connected', hleads', hold', hrest⟩ :=
            ih hleads ((hgrows₁.trans hgrows₂).memory hmemory) hothers
          exact ⟨connected', hleads', fun hknown => hold' (hold hknown),
            .cons ⟨(Mount.connect_isOf hconnect).1, hold' hlookup⟩ hrest⟩

/-! ## Gateways that have started -/

/-- A gateway that starts has sound settings, and works with its open mounts. -/
theorem start_parts (h : start s here c = (.ok g, c')) :
    s.Sound ∧ ∃ mounts, Gateway.openMounts s here s.mounts [] c = (.ok mounts, c')
      ∧ ofMounts s mounts c' = .ok g := by
  unfold start at h
  split at h
  · cases (Prod.mk.inj h).1
  · next hcheck =>
    split at h
    · cases (Prod.mk.inj h).1
    · next mounts c₁ hmounts =>
      obtain ⟨hstart, rfl⟩ := Prod.mk.inj h
      exact ⟨GatewaySettings.check_eq_ok.mp hcheck, mounts, hmounts, hstart⟩

/-- Requests lead to the mounts that were opened. -/
theorem serves_iff (h : ofMounts s mounts c = .ok g) : g.Serves m ↔ m ∈ mounts := by
  have htable := (ofMounts_parts h).1
  constructor
  · exact MountTable.mem_ofMounts htable
  · intro hm
    exact .inl ((MountTable.mounts_ofMounts htable).1.mem_iff.mpr hm)

theorem exists_of_mem_right {α β : Type} {R : α → β → Prop} {as : List α} {bs : List β} {b : β}
    (h : List.Forall₂ R as bs) (hb : b ∈ bs) : ∃ a ∈ as, R a b := by
  induction h with
  | nil => cases hb
  | @cons a _ _ _ hfirst hrest ih =>
    rcases List.mem_cons.mp hb with rfl | hb
    · exact ⟨a, List.mem_cons_self, hfirst⟩
    · obtain ⟨a', ha', hab⟩ := ih hb
      exact ⟨a', List.mem_cons_of_mem _ ha', hab⟩

/-- Every entry of the settings has its mount, and two mounts are on one pool just if their settings
name the same connection and the same pool. -/
theorem start_refs (hbackend : s.store.backend = .memory) (hmemory : c.InMemory)
    (h : start s here c = (.ok g, c')) :
    (∀ settings ∈ s.mounts, ∃ m, g.Serves m ∧ m.IsOf s settings)
      ∧ ∀ {settings settings' m m'}, settings ∈ s.mounts → settings' ∈ s.mounts →
        g.Serves m → g.Serves m' → m.IsOf s settings → m'.IsOf s settings' →
        (m.ref = m'.ref ↔
          settings.connection = settings'.connection ∧ settings.pool = settings'.pool) := by
  obtain ⟨hsound, mounts, hopen, hworks⟩ := start_parts h
  have hnone : Connected.Leads [] c := ⟨nofun, nofun⟩
  obtain ⟨connected, hleads, -, hmounts⟩ := hnone.openMounts hbackend hmemory hopen
  -- a mount has one base, and so the settings that it was opened with
  have hlookup : ∀ {settings m}, settings ∈ s.mounts → g.Serves m → m.IsOf s settings →
      connected.lookup settings.connection = some m.ref.cluster := by
    intro settings m hmem hm hof
    obtain ⟨settings₀, hmem₀, hof₀, hlookup₀⟩ :=
      exists_of_mem_right hmounts ((serves_iff hworks).mp hm)
    have hsame : settings₀ = settings :=
      List.inj_on_of_nodup_map hsound.bases hmem₀ hmem (hof₀.base.symm.trans hof.base)
    rwa [hsame] at hlookup₀
  constructor
  · intro settings hmem
    obtain ⟨m, hm, hof, -⟩ := exists_of_mem_right hmounts.flip hmem
    exact ⟨m, (serves_iff hworks).mpr hm, hof⟩
  · intro settings settings' m m' hmem hmem' hm hm' hof hof'
    have hleft := hlookup hmem hm hof
    have hright := hlookup hmem' hm' hof'
    constructor
    · intro href
      rw [href] at hleft
      exact ⟨hleads.separates hleft hright, by rw [← hof.pool, ← hof'.pool, href]⟩
    · rintro ⟨hconnection, hpool⟩
      have hcluster : m.ref.cluster = m'.ref.cluster := by
        rw [hconnection, hright] at hleft
        exact (Option.some.inj hleft).symm
      have hname : m.ref.pool = m'.ref.pool := by rw [hof.pool, hof'.pool, hpool]
      calc m.ref = ⟨m.ref.cluster, m.ref.pool⟩ := rfl
        _ = ⟨m'.ref.cluster, m'.ref.pool⟩ := by rw [hcluster, hname]
        _ = m'.ref := rfl

end DavGateway.Gateway
