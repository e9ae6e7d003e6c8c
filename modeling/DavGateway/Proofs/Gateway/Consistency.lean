import DavGateway.Proofs.Gateway.Start
import DavGateway.Proofs.Gateway.Visits
import DavGateway.Proofs.Store.Objects

/-!
# Several sessions on one engine

Between any two calls the sessions that are held sit on slots of their own, and every completion
that something outstanding will ask for has been allocated (`Engine.Consistent`). This does not
depend on how long the stores take: an operation that is given up stays outstanding, and is carried
out when its time has come, while others wait or while nobody asks for anything (`Engine.pause`).
Every call of a request keeps the engine consistent, and so does a whole visit.
-/

namespace DavGateway

/-- The changes that leave an object alone. -/
def Change.Spares (ref : PoolRef) (key : String) : Change → Prop
  | .write pool key' | .remove pool key' => ¬ (pool = ref ∧ key' = key)
  | .create _ => True

theorem Operation.not_changes {pool ref : PoolRef} {key : String} {operation : Operation}
    (h : (SessionCall.operate operation).Makes (Change.Spares ref key) pool) (hpool : pool = ref) :
    ¬ operation.Changes key := by
  intro hchanges
  cases operation with
  | stat key' | read key' length offset => exact hchanges
  | write key' data offset => exact h (.write pool key') rfl ⟨hpool, hchanges⟩
  | remove key' => exact h (.remove pool key') rfl ⟨hpool, hchanges⟩

namespace Engine

/-! ## Consistency -/

/-- Every session that is held has a slot of its own, and sits on it if it goes across the bridge.
What is outstanding has completions that were allocated. -/
structure Consistent (e : Engine Clusters) (held : List OpenSession) : Prop where
  wired : ∃ w : Wires, w.board = e.board ∧ w.Sound ∧ ∀ session ∈ held, ∀ channel,
    session.channel = some channel → w.Seated session.slot channel
  slots : e.slots.InStep e.board.bridges.length (held.map OpenSession.slot)
  tickets : ∀ job ∈ e.store.dispatcher.jobs, job.ticket < e.board.tickets.size

variable {e e' : Engine Clusters} {held others : List OpenSession} {session : OpenSession}

namespace Consistent

theorem perm (h : e.Consistent held) (hperm : held.Perm others) : e.Consistent others where
  wired := by
    obtain ⟨w, hboard, hw, hseated⟩ := h.wired
    exact ⟨w, hboard, hw, fun session hs => hseated session (hperm.mem_iff.mpr hs)⟩
  slots := h.slots.perm (hperm.map _)
  tickets := h.tickets

theorem slot_lt (h : e.Consistent held) (hsession : session ∈ held) :
    session.slot < e.board.bridges.length := h.slots.lt (List.mem_map_of_mem hsession)

/-- A slot that is free, or that somebody else has, is not one that is held. -/
theorem slot_ne (h : e.Consistent (session :: others)) {other : OpenSession}
    (hother : other ∈ others) : other.slot ≠ session.slot := by
  have hnodup : (e.slots.free ++ (session :: others).map OpenSession.slot).Nodup :=
    h.slots.slots.nodup_iff.mpr List.nodup_range
  have hheld := (List.nodup_append.mp hnodup).2.1
  rw [List.map_cons, List.nodup_cons] at hheld
  intro heq
  exact hheld.1 (heq ▸ List.mem_map_of_mem hother)

/-! ## Calls -/

/-- With either scheduling, an operation passes through the clusters. -/
theorem operate (h : e.Consistent (session :: others)) (operation : Operation) :
    ∃ outcome e', Engine.operate Clusters.client session operation e = (outcome, e')
      ∧ e'.Consistent (session :: others)
      ∧ e.store.Passes session.pool operation outcome e'.store := by
  obtain ⟨w, hboard, hw, hseated⟩ := h.wired
  cases hchannel : session.channel with
  | none =>
    have hdispatcher := Clusters.perform_dispatcher e.store session.pool operation
    refine ⟨_, { e with store := (e.store.perform session.pool operation).2 }, ?_, ?_,
      e.store.perform_passes session.pool operation⟩
    · unfold Engine.operate
      rw [hchannel]
      rfl
    · refine ⟨⟨w, hboard, hw, hseated⟩, h.slots, ?_⟩
      intro job hjob
      rw [hdispatcher] at hjob
      exact h.tickets job hjob
  | some channel =>
    have hslot : session.slot < w.board.bridges.length := hboard ▸ h.slot_lt List.mem_cons_self
    have hseat : w.Seated session.slot channel :=
      hseated session List.mem_cons_self channel hchannel
    have hfresh : ∀ job ∈ e.store.dispatcher.jobs, job.ticket ≠ w.board.tickets.size := by
      intro job hjob
      rw [hboard]
      exact Nat.ne_of_lt (h.tickets job hjob)
    obtain ⟨hpasses, hjobs⟩ :=
      e.store.await_passes session.pool operation session.limit hfresh
    obtain ⟨w', hoperate, honward, hsize⟩ :=
      operate_handed Clusters.client ⟨hchannel, hboard, hw, hslot, hseat⟩ rfl rfl rfl
    refine ⟨_, _, hoperate, ⟨⟨w', rfl, honward.sound, ?_⟩, ?_, ?_⟩, hpasses⟩
    · intro other hother channel' hchannel'
      have hlt : other.slot < w.board.bridges.length := hboard ▸ h.slot_lt hother
      exact honward.seated hlt (hseated other hother channel' hchannel')
    · show e.slots.InStep w'.board.bridges.length _
      rw [honward.length, hboard]
      exact h.slots
    · intro job hjob
      rcases hjobs job hjob with hold | hnew
      · have hlt : job.ticket < w.board.tickets.size := hboard ▸ h.tickets job hold
        exact Nat.lt_of_lt_of_le hlt honward.size
      · rw [hnew]
        exact hsize

/-- A session is opened on a slot that nobody holds, unless all slots are held. -/
theorem enter (h : e.Consistent held) (pool : PoolRef) (limit : Span) :
    (Engine.enter pool limit).run e = (none, e)
    ∨ ∃ session e', (Engine.enter pool limit).run e = (some (.ok session), e')
      ∧ e'.Consistent (session :: held) ∧ e'.store = e.store ∧ session.pool = pool := by
  obtain ⟨w, hboard, hw, hseated⟩ := h.wired
  rcases h.slots.acquire with ⟨-, hacquire⟩ | ⟨slot, rest, hfree, hacquire, hfits⟩
  · left
    rw [enter_run, hacquire]
  · right
    have hslot : slot < w.board.bridges.length := by
      have hmem : slot ∈ e.slots.free ++ held.map OpenSession.slot := by simp [hfree]
      rw [hboard]
      exact List.mem_range.mp (h.slots.slots.mem_iff.mp hmem)
    obtain ⟨channel?, w', hentered, hopened, -⟩ := enter_free hacquire hboard hw hslot pool limit
    have hlength : w'.board.bridges.length = e.board.bridges.length :=
      hopened.length.trans (by rw [hboard])
    refine ⟨_, _, hentered, ⟨⟨w', rfl, hopened.sound, ?_⟩, hlength.symm ▸ hfits, ?_⟩, rfl, rfl⟩
    · intro other hother channel hchannel
      rcases List.mem_cons.mp hother with rfl | hother
      · exact hopened.seated channel hchannel
      · -- the slot was free, so the others sit elsewhere
        have hnodup : (e.slots.free ++ held.map OpenSession.slot).Nodup :=
          h.slots.slots.nodup_iff.mpr List.nodup_range
        have hne : other.slot ≠ slot := by
          intro heq
          have hdisjoint := (List.nodup_append.mp hnodup).2.2 slot (by simp [hfree]) other.slot
            (List.mem_map_of_mem hother)
          exact hdisjoint heq.symm
        exact (hseated other hother channel hchannel).alike (hopened.others other.slot hne)
    · intro job hjob
      show job.ticket < w'.board.tickets.size
      rw [hopened.size, hboard]
      exact h.tickets job hjob

/-- A session that is closed gives its slot back, and the others stay where they are. -/
theorem leave (h : e.Consistent (session :: others)) :
    (Engine.leave session e).2.Consistent others := by
  obtain ⟨w, hboard, hw, hseated⟩ := h.wired
  have hrelease : (e.slots.release session.slot).InStep e.board.bridges.length
      (others.map OpenSession.slot) := h.slots.release
  unfold Engine.leave
  cases hchannel : session.channel with
  | none =>
    refine ⟨⟨w, hboard, hw, ?_⟩, hrelease, h.tickets⟩
    intro other hother
    exact hseated other (List.mem_cons_of_mem _ hother)
  | some channel =>
    let w' := w.atSlot session.slot fun bridge => bridge.closeSession channel
    have hboard' : w'.board =
        e.board.atSlot session.slot fun bridge => bridge.closeSession channel := by
      rw [← hboard]
      rfl
    refine ⟨⟨w', hboard', hw.atSlot (Nat.le_refl _), ?_⟩, ?_, h.tickets⟩
    · intro other hother channel' hchannel'
      have hseat := hseated other (List.mem_cons_of_mem _ hother) channel' hchannel'
      exact hseat.alike (Wires.Alike.atSlot (h.slot_ne hother) _)
    · show (e.slots.release session.slot).InStep
        (e.board.atSlot session.slot fun bridge => bridge.closeSession channel).bridges.length _
      rw [Switchboard.length_atSlot]
      exact hrelease

end Consistent

/-! ## Requests and pauses -/

/-- Nobody asks for anything for a while. What is due then is carried out. -/
def pause {σ : Type} (client : StoreClient σ) (span : Span) : StateM (Engine σ) Unit := do
  let e ← get
  complete (← onStore (client.await e.board.tickets.size span))

/-- What can happen to an engine between two requests: another request, or nothing for a while; and
the clock by which the stores date their objects can be set. -/
inductive Happening where
  | visit (v : Visit)
  | pause (span : Span)
  | date (now : Int)

/-- Lets something happen. -/
def happen (table : MountTable) (e : Engine Clusters) : Happening → Engine Clusters
  | .visit v => ((visit Clusters.client table v).run e).2
  | .pause span => (pause Clusters.client span e).2
  | .date now => { e with store := { e.store with now := now } }

/-- Lets things happen one after the other. -/
def after (table : MountTable) (e : Engine Clusters) (happenings : List Happening) :
    Engine Clusters := happenings.foldl (happen table) e

theorem Consistent.pause (h : e.Consistent held) (span : Span) :
    (pause Clusters.client span e).2.Consistent held := by
  obtain ⟨w, hboard, hw, hseated⟩ := h.wired
  let completed := (e.store.await e.board.tickets.size span).1
  have honward := hw.onward_completeAll completed
  have hboard' : (w.completeAll completed).board = e.board.completeAll completed := by
    rw [Wires.board_completeAll, hboard]
  refine ⟨⟨w.completeAll completed, hboard', honward.sound, ?_⟩, ?_, ?_⟩
  · intro session hsession channel hchannel
    have hlt : session.slot < w.board.bridges.length := hboard ▸ h.slot_lt hsession
    exact honward.seated hlt (hseated session hsession channel hchannel)
  · show e.slots.InStep (e.board.completeAll completed).bridges.length _
    rw [← hboard', honward.length, hboard]
    exact h.slots
  · intro job hjob
    obtain ⟨done, hjobs, -, -⟩ := e.store.await_split e.board.tickets.size span
    have hold : job ∈ e.store.dispatcher.jobs := by
      rw [hjobs]
      exact List.mem_append_right _ hjob
    have hsize : e.board.tickets.size ≤ (e.board.completeAll completed).tickets.size := by
      have hgrown := honward.size
      rwa [hboard', hboard] at hgrown
    exact Nat.lt_of_lt_of_le (h.tickets job hold) hsize

end Engine

/-- A property of the clusters that no call takes away, as long as only changes are made that may be
made. -/
structure Clusters.Keeps (may : Change → Prop) (inv : Clusters → Prop) : Prop where
  passes : ∀ {c c' : Clusters} {ref operation outcome},
    (SessionCall.operate operation).Makes may ref → inv c → c.Passes ref operation outcome c' →
      inv c'
  createPool : ∀ {c : Clusters} {ref}, inv c → inv (c.createPool ref).2
  await : ∀ {c : Clusters} {ticket limit}, inv c → inv (c.await ticket limit).2
  date : ∀ {c : Clusters} {now}, inv c → inv { c with now := now }

/-- A pool in memory stays there, whatever is done. -/
theorem Clusters.keeps_pool (ref : PoolRef) :
    Clusters.Keeps (fun _ => True) fun c => (c.poolAt? ref).isSome where
  passes := fun _ hpool hpasses => hpasses.isSome_poolAt? hpool
  createPool := fun hpool => Clusters.isSome_poolAt?_createPool hpool _
  await := fun hpool => Clusters.isSome_poolAt?_await hpool _ _
  date := fun hpool => hpool

/-- An object stays at rest under all changes that leave it alone. -/
theorem Clusters.keeps_rests (ref : PoolRef) (key : String) (content : Option Bytes) :
    Clusters.Keeps (Change.Spares ref key) fun c => c.Rests ref key content where
  passes := fun hmakes hrests hpasses => hrests.passes hpasses (Operation.not_changes hmakes)
  createPool := fun hrests => hrests.createPool _
  await := fun hrests => hrests.await _ _
  date := fun hrests => ⟨hrests.pool, hrests.quiet, hrests.content⟩

namespace Engine

variable {e : Engine Clusters} {held others : List OpenSession} {may : Change → Prop}
variable {inv : Clusters → Prop} {table : MountTable} {session : OpenSession}

/-- A call in a session keeps the engine consistent, and changes nothing but what it may. -/
theorem Consistent.answer {call : SessionCall} (h : e.Consistent (session :: others))
    (hkeeps : Clusters.Keeps may inv) (hmakes : call.Makes may session.pool) (hinv : inv e.store) :
    (Engine.answer Clusters.client session call e).2.Consistent (session :: others)
      ∧ inv (Engine.answer Clusters.client session call e).2.store := by
  cases call with
  | operate operation =>
    obtain ⟨outcome, e', hoperate, hconsistent, hpasses⟩ := h.operate operation
    have hafter : (Engine.answer Clusters.client session (.operate operation) e).2 = e' :=
      congrArg Prod.snd hoperate
    rw [hafter]
    exact ⟨hconsistent, hkeeps.passes hmakes hinv hpasses⟩
  | list =>
    have hsame : (Engine.answer Clusters.client session .list e).2 = e := by
      show ({ e with store := (e.store.list session.pool).2 } : Engine Clusters) = e
      rw [Clusters.list_snd]
    rw [hsame]
    exact ⟨h, hinv⟩
  | advance next => exact ⟨h, hinv⟩

/-- A new pool leaves what is outstanding as it is. -/
theorem Consistent.createPool (h : e.Consistent held) (ref : PoolRef) :
    ({ e with store := (e.store.createPool ref).2 } : Engine Clusters).Consistent held := by
  refine ⟨h.wired, h.slots, fun job hjob => ?_⟩
  have hdispatcher := (e.store.createPool_keeps ref).2
  have hold : job ∈ e.store.dispatcher.jobs := hdispatcher ▸ hjob
  exact h.tickets job hold

/-- While an engine answers the calls of a request, it stays consistent, whatever else is held. -/
theorem upholds_consistent (hkeeps : Clusters.Keeps may inv) (others : List OpenSession) :
    Upholds Clusters.client may fun held e =>
      e.Consistent (held.toList ++ others) ∧ inv e.store where
  answered := by
    intro held call e reply e' hcall he hanswer
    obtain ⟨hconsistent, hinv⟩ := he
    cases call with
    | enter pool limit =>
      cases hcall
      have hanswered := enter_answered hanswer
      rcases hconsistent.enter pool limit with
        hblocked | ⟨session, e₁, hopened, hconsistent₁, hstore, -⟩
      · have hnone := hblocked.symm.trans hanswer
        cases hnone
      · have hsame := hopened.symm.trans hanswer
        cases hsame
        refine ⟨hanswered.2, hconsistent₁, ?_⟩
        rw [hstore]
        exact hinv
    | within session call =>
      obtain ⟨rfl, hmakes⟩ := hcall
      have hrun : (some (answer Clusters.client session call e).1,
          (answer Clusters.client session call e).2) = (some reply, e') := hanswer
      obtain ⟨-, rfl⟩ := Prod.mk.inj hrun
      exact ⟨trivial, hconsistent.answer hkeeps hmakes hinv⟩
    | leave session =>
      cases hcall
      cases hanswer
      refine ⟨trivial, hconsistent.leave, ?_⟩
      show inv (leave session e).2.store
      rw [leave_store]
      exact hinv
    | createPool ref =>
      cases hanswer
      exact ⟨trivial, hconsistent.createPool ref, hkeeps.createPool hinv⟩
  unanswered := by
    intro held call e e' hcall he hanswer
    cases call with
    | enter pool limit =>
      cases hcall
      rcases he.1.enter pool limit with hblocked | ⟨session, e₁, hopened, -⟩
      · have hsame := hblocked.symm.trans hanswer
        cases hsame
        exact he
      · have hsome := hopened.symm.trans hanswer
        cases hsome
    | within session call | leave session | createPool ref => cases hanswer

/-- Whatever happens, the engine stays consistent, and requests change nothing but what they may. -/
theorem Consistent.happen {happening : Happening} (hkeeps : Clusters.Keeps may inv)
    (hmay : ∀ v, happening = .visit v → ∀ change, v.request.IsGranted table change → may change)
    (h : e.Consistent held) (hinv : inv e.store) :
    (Engine.happen table e happening).Consistent held
      ∧ inv (Engine.happen table e happening).store := by
  cases happening with
  | visit v =>
    have hupholds := (upholds_consistent hkeeps held).mono (hmay v rfl)
    have hstart : e.Consistent ((none : Option OpenSession).toList ++ held) ∧ inv e.store :=
      ⟨h, hinv⟩
    exact hupholds.visit v hstart
  | pause span => exact ⟨h.pause span, hkeeps.await hinv⟩
  | date now => exact ⟨⟨h.wired, h.slots, h.tickets⟩, hkeeps.date hinv⟩

/-- Whatever happens one after the other, the engine stays consistent. -/
theorem Consistent.after {happenings : List Happening} (hkeeps : Clusters.Keeps may inv)
    (hmay : ∀ v, .visit v ∈ happenings → ∀ change, v.request.IsGranted table change → may change)
    (h : e.Consistent held) (hinv : inv e.store) :
    (Engine.after table e happenings).Consistent held
      ∧ inv (Engine.after table e happenings).store := by
  induction happenings generalizing e with
  | nil => exact ⟨h, hinv⟩
  | cons happening rest ih =>
    have hfirst : (Engine.happen table e happening).Consistent held
        ∧ inv (Engine.happen table e happening).store := by
      refine h.happen hkeeps ?_ hinv
      intro v hv
      exact hmay v (hv ▸ List.mem_cons_self)
    exact ih (fun v hv => hmay v (List.mem_cons_of_mem _ hv)) hfirst.1 hfirst.2

/-- An engine that has just been made is consistent. -/
theorem create_consistent {mode : SchedulingMode} {concurrency : Nat} {c : Clusters}
    (h : Engine.create mode concurrency c = .ok e) (hidle : c.dispatcher.jobs = []) :
    e.Consistent [] ∧ e.store = c := by
  obtain ⟨slots, hslots, rfl⟩ := create_parts h
  obtain ⟨-, -, -, hstep⟩ := SlotPool.create_inStep hslots
  refine ⟨⟨⟨_, rfl, Wires.fresh_sound concurrency, fun _ hmem => ?_⟩, ?_, ?_⟩, rfl⟩
  · exact absurd hmem List.not_mem_nil
  · rw [Switchboard.length_fresh]
    exact hstep
  · intro job hjob
    rw [hidle] at hjob
    exact absurd hjob List.not_mem_nil

end Engine

/-! ## Gateways -/

/-- The request is one with the verb for the object. -/
def Http.Request.IsFor (r : Http.Request) (table : MountTable) (verb : Http.Verb) (ref : PoolRef)
    (key : String) : Prop :=
  ∃ mount, Http.Serve.locate table r = .ok ⟨mount, some key⟩ ∧ mount.ref = ref
    ∧ Http.Verb.ofMethod? r.method = some verb

/-- A request that is neither an upload nor a removal of an object leaves it alone. -/
theorem Http.Request.spares {r : Http.Request} {table : MountTable} {ref : PoolRef} {key : String}
    (hput : ¬ r.IsFor table .put ref key) (hdelete : ¬ r.IsFor table .delete ref key)
    {change : Change} (h : r.IsGranted table change) : change.Spares ref key := by
  obtain ⟨⟨mount, key?⟩, verb, hlocated, hmethod, hgrants⟩ := h
  cases change with
  | create pool => trivial
  | write pool key' =>
    rintro ⟨rfl, rfl⟩
    obtain ⟨rfl, -, hpool, hkey⟩ := hgrants
    cases hkey
    exact hput ⟨mount, hlocated, hpool.symm, hmethod⟩
  | remove pool key' =>
    rintro ⟨rfl, rfl⟩
    obtain ⟨⟨rfl, -⟩ | ⟨rfl, -⟩, hpool, hkey⟩ := hgrants
    · cases hkey
      exact hput ⟨mount, hlocated, hpool.symm, hmethod⟩
    · cases hkey
      exact hdelete ⟨mount, hlocated, hpool.symm, hmethod⟩

/-- A request leads to one of the mounts of the table. -/
theorem Http.Serve.locate_mount {table : MountTable} {r : Http.Request} {d : Destination}
    (h : Http.Serve.locate table r = .ok d) :
    d.mount ∈ table.mounts ∨ table.fallback = some d.mount := by
  rcases Http.Serve.locate_cases table r with
    ⟨problem, hproblem, -⟩ | ⟨path, destination, -, hresolve, hlocated⟩
  · cases hproblem.symm.trans h
  · cases hlocated.symm.trans h
    exact MountTable.resolve_mount hresolve

namespace Gateway

/-- Lets things happen to a gateway, one after the other. -/
def after (g : Gateway) (happenings : List Engine.Happening) : Gateway :=
  { g with engine := g.engine.after g.table happenings }

/-- Makes a visit to a gateway. -/
def visit (g : Gateway) (v : Visit) : Option Exchange × Gateway :=
  let (x, engine) := (Engine.visit Clusters.client g.table v).run.run g.engine
  (x, { g with engine := engine })

theorem visit_eq {g : Gateway} {v : Visit} {x? : Option Exchange} {e : Engine Clusters}
    (h : (Engine.visit Clusters.client g.table v).run g.engine = (x?, e)) :
    g.visit v = (x?, { g with engine := e }) := by
  have hrun : (Engine.visit Clusters.client g.table v).run.run g.engine = (x?, e) := h
  unfold visit
  rw [hrun]

variable {s : GatewaySettings} {mounts : List Mount} {c : Clusters} {g : Gateway}

/-- A gateway that has just been put to work is consistent, and has the pools of its mounts. -/
theorem ofMounts_consistent (h : ofMounts s mounts c = .ok g)
    (hpools : ∀ m ∈ mounts, ∃ p, c.poolAt? m.ref = some p) (hidle : c.dispatcher.jobs = []) :
    g.engine.Consistent [] ∧ ∀ {r : Http.Request} {verb ref key}, r.IsFor g.table verb ref key →
      (g.engine.store.poolAt? ref).isSome := by
  obtain ⟨htable, hengine⟩ := ofMounts_parts h
  obtain ⟨hconsistent, hstore⟩ := Engine.create_consistent hengine hidle
  refine ⟨hconsistent, ?_⟩
  rintro r verb ref key ⟨mount, hlocated, rfl, -⟩
  obtain ⟨p, hp⟩ :=
    hpools mount (MountTable.mem_ofMounts htable (Http.Serve.locate_mount hlocated))
  rw [hstore, hp]
  rfl

end Gateway

end DavGateway
