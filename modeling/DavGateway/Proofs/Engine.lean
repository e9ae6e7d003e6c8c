import DavGateway.Engine
import DavGateway.Proofs.Bridge.Handover
import DavGateway.Proofs.Session
import DavGateway.Proofs.Store.Dispatcher

/-!
# Sessions on an engine

While a single request is under way and the store is in time, a session on an engine does to its
pool what it would do to the pool alone (`MemoryPool.Runs`), with either scheduling, and nothing
happens to any other pool.
-/

namespace DavGateway

/-- How a wait ends with what is found in the channel when the time is up. -/
def Signal.atEnd : Signal → Wake
  | .woken => .woken
  | .closed => .closed
  | .idle => .timedOut

namespace Engine

variable {e e' e'' : Engine Clusters} {session : OpenSession} {p p' : MemoryPool}

/-- The session can do its work: its pool is there, nothing else is to be carried out, every
operation is carried out in time, and with a channel the session sits on its slot. -/
structure Attends (e : Engine Clusters) (session : OpenSession) (p : MemoryPool) : Prop where
  pool : e.store.poolAt? session.pool = some p
  idle : e.store.dispatcher.jobs = []
  prompt : ∀ number, (e.store.dispatcher.delay number).nanos ≤ session.limit.nanos
  wired : ∃ w : Wires, w.board = e.board ∧ w.Sound ∧ ∀ channel, session.channel = some channel →
    session.slot < w.board.bridges.length ∧ w.Seated session.slot channel

/-- Nothing but the pool and the switchboard has changed. -/
structure Beside (e e' : Engine Clusters) (ref : PoolRef) : Prop where
  mode : e'.mode = e.mode
  slots : e'.slots = e.slots
  length : e'.board.bridges.length = e.board.bridges.length
  now : e'.store.now = e.store.now
  delay : e'.store.dispatcher.delay = e.store.dispatcher.delay
  others : ∀ other, other ≠ ref → e'.store.poolAt? other = e.store.poolAt? other

theorem Beside.refl (e : Engine Clusters) (ref : PoolRef) : e.Beside e ref :=
  ⟨rfl, rfl, rfl, rfl, rfl, fun _ _ => rfl⟩

theorem Beside.trans {ref : PoolRef} (h : e.Beside e' ref) (h' : e'.Beside e'' ref) :
    e.Beside e'' ref where
  mode := h'.mode.trans h.mode
  slots := h'.slots.trans h.slots
  length := h'.length.trans h.length
  now := h'.now.trans h.now
  delay := h'.delay.trans h.delay
  others := fun other hne => (h'.others other hne).trans (h.others other hne)

/-! ## Flows step by step -/

/-- A computation goes on with the answer of its first part. -/
theorem bind_apply {σ α β : Type} {x : StateM σ α} {f : α → StateM σ β} {a : α} {s s' : σ}
    (h : x s = (a, s')) : (x >>= f) s = f a s' := by
  show (match x s with | (a, s) => f a s) = f a s'
  rw [h]

theorem onStore_apply {σ α : Type} {e : Engine σ} {f : σ → α × σ} {a : α} {store : σ}
    (h : f e.store = (a, store)) : onStore f e = (a, { e with store := store }) := by
  show ((f e.store).1, { e with store := (f e.store).2 }) = _
  rw [h]

/-- A flow whose first call is answered goes on with the answer. -/
theorem run_ask {σ α C : Type} {R : C → Type} {answer : (c : C) → StateM σ (R c)} {call : C}
    {resume : R call → Flow C R Empty α} {s s' : σ} {reply : R call}
    (h : answer call s = (reply, s')) :
    (Flow.ask call resume).run answer s = (resume reply).run answer s' := bind_apply h

/-! ## An operation across the bridge -/

section Across

variable {σ : Type} {e : Engine σ} {w : Wires} {slot channel : Nat}

/-- The session sits on its slot, and what was recorded fits the switchboard. -/
structure Seats (e : Engine σ) (session : OpenSession) (channel : Nat) (w : Wires) : Prop where
  reads : session.channel = some channel
  board : w.board = e.board
  sound : w.Sound
  slot : session.slot < w.board.bridges.length
  seated : w.Seated session.slot channel

/-- Sitting on a slot is a matter of the switchboard. -/
theorem Seats.of_board {e' : Engine σ} {session : OpenSession} (h : e.Seats session channel w)
    (hboard : e'.board = e.board) : e'.Seats session channel w :=
  ⟨h.reads, h.board.trans hboard.symm, h.sound, h.slot, h.seated⟩

/-- The session keeps its seat while the switchboard goes on. -/
theorem Seats.onward {e' : Engine σ} {session : OpenSession} {w' : Wires}
    (h : e.Seats session channel w) (hw : w.Onward w') (hboard : w'.board = e'.board) :
    e'.Seats session channel w' :=
  ⟨h.reads, hboard, hw.sound, hw.length.symm ▸ h.slot, hw.seated h.slot h.seated⟩

theorem poll_apply {signal : Signal} {bridge : Bridge} (hboard : w.board = e.board)
    (hpoll : (w.bridge slot).poll channel = (signal, bridge)) :
    poll slot channel e = (signal, { e with board := (w.atSlot slot fun _ => bridge).board }) := by
  have hstep : (e.board.stepAt slot fun bridge => bridge.poll channel) =
      (signal, (w.atSlot slot fun _ => bridge).board) := by
    rw [← hboard, Switchboard.stepAt, ← Wires.bridge, hpoll]
    rfl
  show ((e.board.stepAt slot fun bridge => bridge.poll channel).1,
    { e with board := (e.board.stepAt slot fun bridge => bridge.poll channel).2 }) = _
  rw [hstep]

/-- A wait gives the store time only if nothing is in the channel. -/
theorem wait_store (client : StoreClient σ) (slot channel ticket : Nat) (limit : Span) :
    (wait client slot channel ticket limit e).2.store = e.store
      ∨ (wait client slot channel ticket limit e).2.store =
          (client.await ticket limit e.store).2 := by
  have hpolled : ∀ e : Engine σ, (poll slot channel e).2.store = e.store := fun _ => rfl
  cases hfirst : poll slot channel e with
  | mk signal polled =>
    have hstore : polled.store = e.store := by
      rw [← hpolled e, hfirst]
    unfold wait
    rw [bind_apply hfirst]
    cases signal with
    | woken | closed => exact .inl hstore
    | idle =>
      refine .inr ?_
      rw [← hstore]
      cases hawait : client.await ticket limit polled.store with
      | mk completed store =>
        let given : Engine σ := (complete completed { polled with store := store }).2
        have hgiven : complete completed { polled with store := store } = ((), given) := rfl
        show ((onStore _ >>= _) _).2.store = store
        rw [bind_apply (onStore_apply hawait), bind_apply hgiven]
        cases hsecond : poll slot channel given with
        | mk signal last =>
          have hlast : last.store = store := by
            have hsame := hpolled given
            rw [hsecond] at hsame
            exact hsame
          rw [bind_apply hsecond]
          cases signal <;> exact hlast

/-- The wait for an operation ends with a wake if the store completes it meanwhile, and with the end
of the time otherwise. -/
theorem wait_handed (client : StoreClient σ) {pending : Pending} {limit : Span}
    {completed : Completed} {store : σ} (hw : w.Sound) (hslot : slot < w.board.bridges.length)
    (hseat : w.Seated slot channel) (htold : w.Told slot channel pending none)
    (hboard : w.board = e.board)
    (hawait : client.await pending.ticket limit e.store = (completed, store)) :
    ∃ w' : Wires, wait client slot channel pending.ticket limit e =
        (if (completed.lookup pending.ticket).isSome then .woken else .timedOut,
          { e with board := w'.board, store := store })
      ∧ w.Onward w' ∧ w'.Kept slot pending
      ∧ w'.records.lookup pending.ticket = completed.lookup pending.ticket := by
  have huncalled : pending.ticket ∉ w.called := fun hcalled =>
    absurd (htold.called.mp hcalled) Bool.false_ne_true
  -- the channel is empty, so the store is given time
  rcases htold.live.poll_idle hw hslot hseat huncalled with ⟨hidle, hkeeps, hlive⟩
  have hfirst := poll_apply (e := e) hboard hidle
  let w₁ := w.atSlot slot fun _ => w.bridge slot
  have honward₁ : w.Onward w₁ := hkeeps.onward hseat (Nat.le_refl _)
  have hslot₁ : slot < w₁.board.bridges.length := honward₁.length.symm ▸ hslot
  have htold₁ : w₁.Told slot channel pending none := ⟨hlive, htold.recorded, htold.called⟩
  let w₂ := w₁.completeAll completed
  have honward₂ := hkeeps.sound.onward_completeAll completed
  have hslot₂ : slot < w₂.board.bridges.length := honward₂.length.symm ▸ hslot₁
  have hseat₂ : w₂.Seated slot channel := honward₂.seated hslot₁ hkeeps.seated
  have htold₂ := htold₁.completeAll hkeeps.sound hslot₁ hkeeps.seated completed
  rw [Option.none_or] at htold₂
  let given : Engine σ := { e with board := w₂.board, store := store }
  have hstore : onStore (client.await pending.ticket limit) { e with board := w₁.board } =
      (completed, { e with board := w₁.board, store := store }) := onStore_apply hawait
  have hgiven : complete completed { e with board := w₁.board, store := store } = ((), given) := by
    show ((), { e with board := w₁.board.completeAll completed, store := store }) = _
    rw [← Wires.board_completeAll]
  have hwait : ∀ {signal : Signal} {bridge : Bridge}, (w₂.bridge slot).poll channel =
      (signal, bridge) → wait client slot channel pending.ticket limit e =
        (signal.atEnd,
          { e with board := (w₂.atSlot slot fun _ => bridge).board, store := store }) := by
    intro signal bridge hpoll
    have hsecond := poll_apply (e := given) rfl hpoll
    unfold wait
    rw [bind_apply hfirst]
    show (onStore _ >>= _) _ = _
    rw [bind_apply hstore, bind_apply hgiven, bind_apply hsecond]
    cases signal <;> rfl
  -- a completion of this operation has put a unit into the channel
  cases houtcome : completed.lookup pending.ticket with
  | some outcome =>
    rw [houtcome] at htold₂
    rcases htold₂.live.poll_woken honward₂.sound hslot₂ hseat₂ (htold₂.called.mpr rfl)
        with ⟨bridge, hpoll, hkeeps₂, hkept⟩
    exact ⟨_, hwait hpoll, (honward₁.trans honward₂).trans (hkeeps₂.onward hseat₂ (Nat.le_refl _)),
      hkept, htold₂.recorded⟩
  | none =>
    rw [houtcome] at htold₂
    have huncalled₂ : pending.ticket ∉ w₂.called := fun hcalled =>
      absurd (htold₂.called.mp hcalled) Bool.false_ne_true
    rcases htold₂.live.poll_idle honward₂.sound hslot₂ hseat₂ huncalled₂
        with ⟨hpoll, hkeeps₂, hlive₂⟩
    exact ⟨_, hwait hpoll, (honward₁.trans honward₂).trans (hkeeps₂.onward hseat₂ (Nat.le_refl _)),
      hlive₂.toKept, htold₂.recorded⟩

variable {session : OpenSession}

/-- An operation begins: it gets a generation and a completion, and is given to the store. -/
theorem operate_begun (client : StoreClient σ) (h : e.Seats session channel w)
    (operation : Operation) {store : σ}
    (hallocate : client.allocate session.pool e.store = (.ok (), store)) :
    ∃ (w' : Wires) (pending : Pending), pending.ticket = w.board.tickets.size
      ∧ operate client session operation e =
        (BridgeFlow.submitAndWait session.slot pending session.limit).run
          (bridgeStep client session channel operation) { e with board := w'.board, store := store }
      ∧ w.Onward w' ∧ w.board.tickets.size < w'.board.tickets.size
      ∧ w'.Told session.slot channel pending none := by
  rcases h with ⟨hchannel, hboard, hw, hslot, hseat⟩
  rcases hw.bump hslot hseat with ⟨hkeeps₁, hcleared₁⟩
  let w₁ := w.atSlot session.slot fun _ => (w.bridge session.slot).bump.2
  have honward₁ : w.Onward w₁ := hkeeps₁.onward hseat (Nat.le_refl _)
  have hslot₁ : session.slot < w₁.board.bridges.length := honward₁.length.symm ▸ hslot
  have hbump : bridgeStep client session channel operation .bump e =
      ((w.bridge session.slot).bump.1, { e with board := w₁.board }) := by
    show ((e.board.stepAt session.slot Bridge.bump).1,
      { e with board := (e.board.stepAt session.slot Bridge.bump).2 }) = _
    rw [← hboard]
    rfl
  rcases hcleared₁.drain hkeeps₁.sound hslot₁ hkeeps₁.seated with ⟨hkeeps₂, hcleared₂, hempty₂⟩
  let w₂ := w₁.atSlot session.slot fun bridge => bridge.drain channel
  have honward₂ : w₁.Onward w₂ := hkeeps₂.onward hkeeps₁.seated (Nat.le_refl _)
  have hdrain : bridgeStep client session channel operation .drain
      { e with board := w₁.board } = ((), { e with board := w₂.board }) := rfl
  rcases hcleared₂.allocate hkeeps₂.sound hkeeps₂.seated hempty₂ with ⟨hkeeps₃, hlive₃⟩
  let pending : Pending := ⟨(w.bridge session.slot).bump.1, w.board.tickets.size⟩
  let w₃ : Wires := { w₂ with board := (w₂.board.allocate session.slot pending.stamp).2 }
  have hsize : w.board.tickets.size < w₃.board.tickets.size := by
    show w.board.tickets.size < (w₂.board.allocate session.slot pending.stamp).2.tickets.size
    rw [Switchboard.size_allocate]
    exact Nat.lt_succ_self _
  have honward₃ : w₂.Onward w₃ := hkeeps₃.onward hkeeps₂.seated (Nat.le_of_lt hsize)
  have hallocated : bridgeStep client session channel operation (.allocate pending.stamp)
      { e with board := w₂.board } =
        (.ok pending.ticket, { e with board := w₃.board, store := store }) :=
    bind_apply (onStore_apply (e := { e with board := w₂.board }) hallocate)
  have huncalled : pending.ticket ∉ w₃.called := hkeeps₂.sound.new.2.2
  refine ⟨w₃, pending, rfl, ?_, (honward₁.trans honward₂).trans honward₃, hsize,
    ⟨hlive₃, hkeeps₂.sound.new.1, by simp [huncalled]⟩⟩
  unfold operate
  rw [hchannel]
  show (BridgeFlow.issue session.slot session.limit).run
    (bridgeStep client session channel operation) e = _
  rw [BridgeFlow.issue_eq]
  exact (run_ask hbump).trans ((run_ask hdrain).trans (run_ask hallocated))

/-- After the wait an operation ends with the outcome that was recorded for it, or is given up. -/
theorem afterWait_handed (client : StoreClient σ) (h : e.Seats session channel w)
    (operation : Operation) {pending : Pending} (hkept : w.Kept session.slot pending) :
    ∃ w' : Wires, (BridgeFlow.afterWait session.slot session.limit pending
          (if (w.records.lookup pending.ticket).isSome then .woken else .timedOut)).run
          (bridgeStep client session channel operation) e =
        ((w.records.lookup pending.ticket).getD (.error (.timedOut session.limit)),
          { e with board := w'.board })
      ∧ w.Onward w' := by
  rcases h with ⟨-, hboard, hw, hslot, hseat⟩
  cases houtcome : w.records.lookup pending.ticket with
  | some outcome =>
    rcases hkept.take hw hseat with ⟨hkeeps, htaken⟩
    have htake : bridgeStep client session channel operation (.take pending.ticket) e =
        (some outcome, { e with board := (w.board.take pending.ticket).2 }) := by
      show ((e.board.take pending.ticket).1,
        { e with board := (e.board.take pending.ticket).2 }) = _
      rw [← hboard, htaken, houtcome]
    have hsize : w.board.tickets.size ≤ (w.board.take pending.ticket).2.tickets.size :=
      Nat.le_of_eq Switchboard.size_take.symm
    exact ⟨{ w with board := (w.board.take pending.ticket).2 }, run_ask htake,
      hkeeps.onward hseat hsize⟩
  | none =>
    -- the generation of the operation ends
    have hkeeps : w.Keeps (w.atSlot session.slot fun bridge => bridge.abandon pending.stamp)
        session.slot channel := by
      refine .atSlot hw hslot (Bridge.generation_le_abandon _ _) ?_ ?_
      · rw [Bridge.wake_abandon, hseat.wake]
      · rcases hseat.queue with ⟨units, hunits⟩
        exact ⟨units, by rw [Bridge.queued?, Bridge.queues_abandon]; exact hunits⟩
    have habandon : bridgeStep client session channel operation (.abandon pending.stamp) e =
        ((), { e with
          board := (w.atSlot session.slot fun bridge => bridge.abandon pending.stamp).board }) := by
      rw [Wires.atSlot, hboard]
      rfl
    exact ⟨_, run_ask habandon, hkeeps.onward hseat (Nat.le_refl _)⟩

/-- With a channel, an operation goes across the bridge and back: it ends with the first outcome
that the store has for it by the end of the wait, or is given up. -/
theorem operate_handed (client : StoreClient σ) (h : e.Seats session channel w)
    {operation : Operation} {s₁ s₂ s₃ : σ} {completed : Completed}
    (hallocate : client.allocate session.pool e.store = (.ok (), s₁))
    (hsubmit : client.submit session.pool operation w.board.tickets.size s₁ = ((.ok (), []), s₂))
    (hawait : client.await w.board.tickets.size session.limit s₂ = (completed, s₃)) :
    ∃ w' : Wires, operate client session operation e =
        ((completed.lookup w.board.tickets.size).getD (.error (.timedOut session.limit)),
          { e with board := w'.board, store := s₃ })
      ∧ w.Onward w' ∧ w.board.tickets.size < w'.board.tickets.size := by
  rcases operate_begun client h operation hallocate
      with ⟨w₁, pending, hticket, hoperate, honward₁, hsize, htold₁⟩
  rw [← hticket] at hsubmit hawait ⊢
  have hseats₁ : ({ e with board := w₁.board, store := s₁ } : Engine σ).Seats session channel w₁ :=
    h.onward honward₁ rfl
  -- the store is given the operation
  have hsubmitted : bridgeStep client session channel operation (.submit pending.ticket)
      { e with board := w₁.board, store := s₁ } =
        (.ok (), { e with board := w₁.board, store := s₂ }) :=
    bind_apply (onStore_apply (e := { e with board := w₁.board, store := s₁ }) hsubmit)
  rcases wait_handed (e := { e with board := w₁.board, store := s₂ }) client hseats₁.sound
      hseats₁.slot hseats₁.seated htold₁ rfl hawait with ⟨w₂, hwait, honward₂, hkept, hrecorded⟩
  have hseats₂ : ({ e with board := w₂.board, store := s₃ } : Engine σ).Seats session channel w₂ :=
    hseats₁.onward honward₂ rfl
  rcases afterWait_handed client hseats₂ operation hkept with ⟨w₃, hafter, honward₃⟩
  rw [hrecorded] at hafter
  refine ⟨w₃, ?_, (honward₁.trans honward₂).trans honward₃, ?_⟩
  · rw [hoperate, BridgeFlow.submitAndWait_eq]
    have hwaited : bridgeStep client session channel operation
        (.wait pending.ticket session.limit) { e with board := w₁.board, store := s₂ } =
          (if (completed.lookup pending.ticket).isSome then .woken else .timedOut,
            { e with board := w₂.board, store := s₃ }) := hwait
    exact (run_ask hsubmitted).trans ((run_ask hwaited).trans hafter)
  · rw [hticket]
    exact Nat.lt_of_lt_of_le hsize (honward₂.trans honward₃).size

end Across

/-- With a channel, an operation goes across the bridge and back within the wait. -/
theorem operate_across (h : e.Attends session p) {channel : Nat}
    (hchannel : session.channel = some channel) {operation : Operation}
    (hsmall : (SessionCall.operate operation).Small) :
    ∃ e', operate Clusters.client session operation e =
        ((p.perform e.store.now operation).1.result, e')
      ∧ e'.Attends session (p.perform e.store.now operation).2 ∧ e.Beside e' session.pool := by
  rcases h.wired with ⟨w, hboard, hw, hseated⟩
  rcases hseated channel hchannel with ⟨hslot, hseat⟩
  -- the store is given the operation, and completes it during the wait
  rcases Clusters.await_submit h.pool h.idle h.prompt hsmall w.board.tickets.size
      with ⟨store, hawait, hpools, hnow, hidle, hdelay⟩
  rcases operate_handed Clusters.client ⟨hchannel, hboard, hw, hslot, hseat⟩ rfl rfl hawait
      with ⟨w', hoperate, honward, -⟩
  rw [List.lookup_cons_self, Option.getD_some] at hoperate
  have hlength : w'.board.bridges.length = e.board.bridges.length := by
    rw [honward.length, hboard]
  refine ⟨{ e with board := w'.board, store := store }, hoperate, ⟨?_, hidle, ?_, ?_⟩,
    ⟨rfl, rfl, hlength, hnow, hdelay, ?_⟩⟩
  · rw [hpools, if_pos rfl]
  · rw [hdelay]
    exact h.prompt
  · refine ⟨w', rfl, honward.sound, fun channel' hsame => ?_⟩
    cases hchannel.symm.trans hsame
    exact ⟨honward.length.symm ▸ hslot, honward.seated hslot hseat⟩
  · intro other hne
    rw [hpools, if_neg hne]

/-- Without a channel, the store carries an operation out while the session waits. -/
theorem operate_blocking (h : e.Attends session p) (hchannel : session.channel = none)
    {operation : Operation} :
    ∃ e', operate Clusters.client session operation e =
        ((p.perform e.store.now operation).1.result, e')
      ∧ e'.Attends session (p.perform e.store.now operation).2 ∧ e.Beside e' session.pool := by
  rcases Clusters.perform_of_poolAt? h.pool operation
      with ⟨store, hperform, hpools, hnow, hdispatcher⟩
  refine ⟨{ e with store := store }, ?_, ⟨?_, ?_, ?_, ?_⟩, ⟨rfl, rfl, rfl, hnow, ?_, ?_⟩⟩
  · unfold operate
    rw [hchannel]
    show ((Clusters.perform session.pool operation e.store).1.result,
      { e with store := (Clusters.perform session.pool operation e.store).2 }) = _
    rw [hperform]
  · rw [hpools, if_pos rfl]
  · rw [hdispatcher]
    exact h.idle
  · rw [hdispatcher]
    exact h.prompt
  · exact h.wired
  · rw [hdispatcher]
  · intro other hne
    rw [hpools, if_neg hne]

/-! ## Whole flows -/

/-- A call of a session is answered as the pool answers it. -/
theorem answer_apply (h : e.Attends session p) {call : SessionCall} (hsmall : call.Small) :
    ∃ e', answer Clusters.client session call e = ((p.answer e.store.now call).1, e')
      ∧ e'.Attends session (p.answer e.store.now call).2 ∧ e.Beside e' session.pool := by
  cases call with
  | operate operation =>
    cases hchannel : session.channel with
    | none => exact operate_blocking h hchannel
    | some channel => exact operate_across h hchannel hsmall
  | list =>
    refine ⟨e, ?_, h, .refl e session.pool⟩
    show ((e.store.list session.pool).1, { e with store := (e.store.list session.pool).2 }) = _
    rw [Clusters.list_of_poolAt? h.pool]
    rfl
  | advance next => exact ⟨e, rfl, h, .refl e session.pool⟩

/-- A flow of a session hands out and ends as on the pool alone. -/
theorem collect_apply {now : Int} {β α : Type} {flow : SessionFlow β α} {items : List β}
    {result : α} (hruns : p.Runs now flow items result p') (h : e.Attends session p)
    (hnow : e.store.now = now) :
    ∃ e', flow.collect (answer Clusters.client session) e = ((items, result), e')
      ∧ e'.Attends session p' ∧ e.Beside e' session.pool := by
  -- induction on the run: what comes next starts where the engine was left
  induction hruns generalizing e with
  | done p result => exact ⟨e, rfl, h, .refl e session.pool⟩
  | emit hrest ih =>
    rcases ih h hnow with ⟨e', hcollect, hattends, hbeside⟩
    exact ⟨e', by rw [Flow.collect, bind_apply hcollect]; rfl, hattends, hbeside⟩
  | ask hsmall hrest ih =>
    rcases answer_apply h hsmall with ⟨e₁, hanswer, hattends₁, hbeside₁⟩
    rw [hnow] at hanswer hattends₁
    rcases ih hattends₁ (hbeside₁.now.trans hnow) with ⟨e', hcollect, hattends, hbeside⟩
    exact ⟨e', by rw [Flow.collect, bind_apply hanswer, hcollect], hattends,
      hbeside₁.trans hbeside⟩

end Engine

end DavGateway
