import DavGateway.Gateway.Exchange
import DavGateway.Proofs.Engine
import DavGateway.Proofs.Slots

/-!
# Requests one after the other

Between two requests an engine is ready: all slots are free, nothing is to be carried out, and what
was recorded fits the switchboard. A request opens a session, works in it and closes it, and leaves
the engine ready, with its slots as they were. `Engine.Serves` says how a flow of calls ends that
an engine answers.
-/

namespace DavGateway

namespace Engine

variable {e e' e'' : Engine Clusters} {session : OpenSession} {p p' : MemoryPool} {ref : PoolRef}

/-- No request is under way. -/
structure Ready (e : Engine Clusters) : Prop where
  free : ∃ slot rest, e.slots.free = slot :: rest ∧ slot < e.board.bridges.length
  permits : e.slots.permits ≠ 0
  queue : e.slots.queue = []
  idle : e.store.dispatcher.jobs = []
  wired : ∃ w : Wires, w.board = e.board ∧ w.Sound

/-- A session has been opened on the engine `e`, which is now `e'`. -/
structure Holds (e e' : Engine Clusters) (session : OpenSession) (p : MemoryPool) : Prop where
  attends : e'.Attends session p
  released : e'.slots.release session.slot = e.slots
  beside : e.Beside { e' with slots := e.slots } session.pool

/-- What is done in the session leaves it open. -/
theorem Holds.after (h : e.Holds e' session p) (hattends : e''.Attends session p')
    (hbeside : e'.Beside e'' session.pool) : e.Holds e'' session p' where
  attends := hattends
  released := by
    rw [hbeside.slots]
    exact h.released
  beside := by
    have hslots : ({ e' with slots := e.slots } : Engine Clusters).Beside
        { e'' with slots := e.slots } session.pool :=
      ⟨hbeside.mode, rfl, hbeside.length, hbeside.now, hbeside.delay, hbeside.others⟩
    exact h.beside.trans hslots

/-- An engine is made with a new pool of slots and with unused bridges. -/
theorem create_parts {σ : Type} {mode : SchedulingMode} {concurrency : Nat} {store : σ}
    {e : Engine σ} (h : create mode concurrency store = .ok e) :
    ∃ slots, SlotPool.create concurrency = .ok slots
      ∧ e = ⟨mode, slots, Switchboard.fresh concurrency, store⟩ := by
  unfold create at h
  cases hslots : SlotPool.create concurrency with
  | error failure =>
    rw [hslots] at h
    cases h
  | ok slots =>
    rw [hslots] at h
    cases h
    exact ⟨slots, rfl, rfl⟩

/-! ## Opening and closing -/

/-- A computation that may have no answer goes on with the answer of its first part. -/
theorem run_bind_apply {σ α β : Type} {x : OptionT (StateM σ) α} {f : α → OptionT (StateM σ) β}
    {a : α} {s s' : σ} (h : x.run s = (some a, s')) : (x >>= f).run s = (f a).run s' := by
  rw [OptionT.run_bind]
  exact bind_apply h

theorem openSession_blocking {σ : Type} {e : Engine σ} (h : e.mode = .blocking) (slot : Nat)
    (pool : PoolRef) (limit : Span) :
    openSession slot pool limit e = (⟨slot, none, pool, limit⟩, e) := by
  rcases e with ⟨mode, slots, board, store⟩
  cases h
  rfl

theorem openSession_async {σ : Type} {e : Engine σ} (h : e.mode = .async) (slot : Nat)
    (pool : PoolRef) (limit : Span) : openSession slot pool limit e =
      (⟨slot, some (e.board.bridge slot).openSession.1, pool, limit⟩,
        { e with board := e.board.atSlot slot fun _ => (e.board.bridge slot).openSession.2 }) := by
  rcases e with ⟨mode, slots, board, store⟩
  cases h
  rfl

/-- A slot is taken if there is one, and a session is opened on it. -/
theorem enter_run {σ : Type} (e : Engine σ) (pool : PoolRef) (limit : Span) :
    (enter pool limit).run e =
    match e.slots.acquire with
    | (.blocked, slots) => (none, { e with slots := slots })
    | (.failed reason, slots) => (some (.error reason), { e with slots := slots })
    | (.slot slot, slots) => (some (.ok (openSession slot pool limit { e with slots := slots }).1),
      (openSession slot pool limit { e with slots := slots }).2) := by
  cases hacquire : e.slots.acquire with
  | mk acquired slots =>
    have htaken : (modifyGet fun e : Engine σ =>
        (e.slots.acquire.1, { e with slots := e.slots.acquire.2 }) :
          OptionT (StateM (Engine σ)) Acquired).run e =
        (some acquired, { e with slots := slots }) := by
      show (some e.slots.acquire.1, { e with slots := e.slots.acquire.2 }) = _
      rw [hacquire]
    unfold enter
    refine (run_bind_apply htaken).trans ?_
    cases acquired <;> rfl

/-- The store is not asked when a session is closed. -/
theorem leave_store {σ : Type} {e : Engine σ} (session : OpenSession) :
    (leave session e).2.store = e.store := by
  unfold leave
  cases session.channel <;> rfl

/-- A session was opened on a slot. If it has a channel it sits there, and on all other slots
everything is as before. -/
structure Opened (w w' : Wires) (slot : Nat) (channel? : Option Nat) : Prop where
  sound : w'.Sound
  length : w'.board.bridges.length = w.board.bridges.length
  size : w'.board.tickets.size = w.board.tickets.size
  seated : ∀ channel, channel? = some channel → w'.Seated slot channel
  others : ∀ other, other ≠ slot → w.Alike w' other

section Opening

variable {σ : Type} {e : Engine σ} {w : Wires} {slot : Nat}

/-- Only with asynchronous scheduling the session has a channel, and the board a new reader. -/
theorem openSession_opened (hboard : w.board = e.board) (hw : w.Sound)
    (hslot : slot < w.board.bridges.length) (pool : PoolRef) (limit : Span) :
    ∃ channel? w', openSession slot pool limit e =
        (⟨slot, channel?, pool, limit⟩, { e with board := w'.board })
      ∧ Opened w w' slot channel? ∧ (channel? = none ↔ e.mode = .blocking) := by
  cases hmode : e.mode with
  | blocking =>
    refine ⟨none, w, ?_, ⟨hw, rfl, rfl, nofun, fun other _ => .refl w other⟩, iff_of_true rfl rfl⟩
    rw [openSession_blocking hmode, hboard, ← hmode]
  | async =>
    have hbridge : w.bridge slot = e.board.bridge slot := by rw [Wires.bridge, hboard]
    have hkeeps := hw.openSession hslot
    rw [hbridge] at hkeeps
    refine ⟨some (e.board.bridge slot).openSession.1, _, ?_, ⟨hkeeps.sound, hkeeps.length,
      rfl, ?_, hkeeps.others⟩, iff_of_false (Option.some_ne_none _) (by decide)⟩
    · rw [openSession_async hmode, Wires.atSlot, hboard, ← hmode]
    · rintro channel ⟨⟩
      exact hkeeps.seated

/-- Where a slot is free, a session is opened on it. -/
theorem enter_free {slots : SlotPool} (hacquire : e.slots.acquire = (.slot slot, slots))
    (hboard : w.board = e.board) (hw : w.Sound) (hslot : slot < w.board.bridges.length)
    (pool : PoolRef) (limit : Span) :
    ∃ channel? w', (enter pool limit).run e = (some (.ok ⟨slot, channel?, pool, limit⟩),
        { e with slots := slots, board := w'.board })
      ∧ Opened w w' slot channel? ∧ (channel? = none ↔ e.mode = .blocking) := by
  obtain ⟨channel?, w', hopened, hrest⟩ :=
    openSession_opened (e := { e with slots := slots }) hboard hw hslot pool limit
  refine ⟨channel?, w', ?_, hrest⟩
  rw [enter_run, hacquire]
  simp only [hopened]

end Opening

/-- A session can be opened on an engine that is ready. -/
theorem enter_apply (h : e.Ready) (hpool : e.store.poolAt? ref = some p) {limit : Span}
    (hprompt : ∀ number, (e.store.dispatcher.delay number).nanos ≤ limit.nanos) :
    ∃ session e', (enter ref limit).run e = (some (.ok session), e')
      ∧ e.Holds e' session p ∧ session.pool = ref := by
  rcases h.free with ⟨slot, rest, hfree, hslot⟩
  rcases SlotPool.release_acquired hfree h.permits h.queue with ⟨slots, hacquire, hrelease⟩
  rcases h.wired with ⟨w, hboard, hw⟩
  rw [← hboard] at hslot
  rcases enter_free hacquire hboard hw hslot ref limit with ⟨channel?, w', hentered, hopened, -⟩
  have hlength : w'.board.bridges.length = e.board.bridges.length :=
    hopened.length.trans (by rw [hboard])
  refine ⟨_, _, hentered, ⟨⟨hpool, h.idle, hprompt, w', rfl, hopened.sound, ?_⟩, hrelease,
    ⟨rfl, rfl, hlength, rfl, rfl, fun _ _ => rfl⟩⟩, rfl⟩
  intro channel hchannel
  exact ⟨hopened.length.symm ▸ hslot, hopened.seated channel hchannel⟩

/-- Closing a session leaves the engine ready, with its slots as they were. -/
theorem leave_apply (hready : e.Ready) (h : e.Holds e' session p) :
    ∃ e'', leave session e' = ((), e'') ∧ e''.Ready ∧ e.Beside e'' session.pool
      ∧ e''.store.poolAt? session.pool = some p := by
  rcases h.attends.wired with ⟨w, hboard, hw, -⟩
  -- with a channel, the channel is closed first
  have hclosed : ∃ w' : Wires, leave session e' =
      ((), { e' with slots := e.slots, board := w'.board }) ∧ w'.Sound
        ∧ w'.board.bridges.length = e'.board.bridges.length := by
    rw [← h.released]
    cases hchannel : session.channel with
    | none =>
      refine ⟨w, ?_, hw, by rw [hboard]⟩
      unfold leave
      rw [hchannel, hboard]
      rfl
    | some channel =>
      refine ⟨w.atSlot session.slot fun bridge => bridge.closeSession channel, ?_,
        hw.atSlot (Nat.le_refl _), ?_⟩
      · unfold leave
        rw [hchannel, Wires.atSlot, hboard]
        rfl
      · rw [← hboard]
        exact Switchboard.length_atSlot ..
  rcases hclosed with ⟨w', hleave, hw', hlength⟩
  have hbridges : w'.board.bridges.length = e.board.bridges.length := hlength.trans h.beside.length
  refine ⟨_, hleave, ⟨?_, hready.permits, hready.queue, h.attends.idle, w', rfl, hw'⟩,
    ⟨h.beside.mode, rfl, hbridges, h.beside.now, h.beside.delay, h.beside.others⟩,
    h.attends.pool⟩
  rw [hbridges]
  exact hready.free

/-! ## Flows of calls -/

variable {α β : Type} {now : Int}

/-- A flow of calls, answered by the engine `e`, ends with a result and leaves the engine `e'`. -/
def Serves (e : Engine Clusters) (flow : GatewayFlow α) (result : α) (e' : Engine Clusters) : Prop :=
  (flow.run (respond Clusters.client)).run e = (some result, e')

namespace Serves

theorem done (e : Engine Clusters) (result : α) : e.Serves (.done result) result e := rfl

theorem ask {call : GatewayCall} {resume : call.Answer → GatewayFlow α} {reply : call.Answer}
    {result : α} (h : (respond Clusters.client call).run e = (some reply, e'))
    (hrest : e'.Serves (resume reply) result e'') : e.Serves (.ask call resume) result e'' :=
  (run_bind_apply h).trans hrest

/-- A flow that begins with a call and ends got an answer, and went on with it. -/
theorem ask_inv {call : GatewayCall} {resume : call.Answer → GatewayFlow α} {result : α}
    (h : e.Serves (.ask call resume) result e'') :
    ∃ reply e', (respond Clusters.client call).run e = (some reply, e')
      ∧ e'.Serves (resume reply) result e'' := by
  have hrun : ((respond Clusters.client call) >>= fun reply =>
      (resume reply).run (respond Clusters.client)).run e = (some result, e'') := h
  cases hanswer : (respond Clusters.client call).run e with
  | mk reply? e' =>
    rw [OptionT.run_bind, Option.elimM, bind_apply hanswer] at hrun
    -- without an answer there would be no result
    cases reply? with
    | none => cases hrun
    | some reply => exact ⟨reply, e', rfl, hrun⟩

/-- What follows a flow begins with its result, on the engine that it leaves. -/
theorem bind {flow : GatewayFlow α} {f : α → GatewayFlow β} {a : α} {b : β}
    (h : e.Serves flow a e') (hf : e'.Serves (f a) b e'') : e.Serves (flow.bind f) b e'' := by
  -- induction on the first flow: each of its calls is answered as before
  induction flow generalizing e with
  | done result =>
    cases h
    exact hf
  | emit item rest ih => exact item.elim
  | ask call resume ih =>
    rcases ask_inv h with ⟨reply, e₁, hanswer, hrest⟩
    exact ask hanswer (ih reply hrest)

/-- What a session does to its pool alone, it does on the engine. -/
theorem within {flow : SessionFlow Empty α} {items : List Empty} {result : α}
    (hruns : p.Runs now flow items result p') (h : e.Attends session p)
    (hnow : e.store.now = now) :
    ∃ e', e.Serves (flow.through (GatewayCall.within session) fun _ answer => answer) result e'
      ∧ e'.Attends session p' ∧ e.Beside e' session.pool := by
  -- induction on the run: the engine attends to the session before each of its calls
  induction hruns generalizing e with
  | done p result => exact ⟨e, rfl, h, .refl e session.pool⟩
  | @emit _ _ item _ _ _ _ => exact item.elim
  | @ask _ _ call _ _ _ hsmall hrest ih =>
    rcases answer_apply h hsmall with ⟨e₁, hanswer, hattends₁, hbeside₁⟩
    rw [hnow] at hanswer hattends₁
    rcases ih hattends₁ (hbeside₁.now.trans hnow) with ⟨e', hserves, hattends, hbeside⟩
    refine ⟨e', ask ?_ hserves, hattends, hbeside₁.trans hbeside⟩
    show (match answer Clusters.client session call e with
      | (reply, e) => (some reply, e)) = _
    rw [hanswer]
    rfl

end Serves

end Engine

end DavGateway
