import DavGateway.Proofs.Gateway.Sessions
import DavGateway.Proofs.Store.Replies

/-!
# Both schedulings come to the same

A session with blocking scheduling lets the store carry its operations out while it waits; with
asynchronous scheduling they are handed over and come back across the bridge of its slot. As long as
no operation breaks off, and those that are handed over are carried out in time, both sessions hand
out and end with the same, and leave the same in their pools, the times of last changes aside.
-/

namespace DavGateway

/-! ## Clusters while time goes by -/

namespace Clusters

/-- Asks the clusters at the time that the clock shows, and lets it go on. -/
def ask {α : Type} (clock : Nat → Int) (f : Clusters → α × Clusters) (s : Clusters × Nat) :
    α × (Clusters × Nat) :=
  ((f { s.1 with now := clock s.2 }).1, (f { s.1 with now := clock s.2 }).2, s.2 + 1)

/-- The clusters with a clock, which shows `clock n` when the clusters are asked for the `n`-th
time. -/
def timed (clock : Nat → Int) : StoreClient (Clusters × Nat) where
  openPool ref := ask clock (client.openPool ref)
  createPool ref := ask clock (client.createPool ref)
  perform ref operation := ask clock (client.perform ref operation)
  list ref := ask clock (client.list ref)
  advance ref next := ask clock (client.advance ref next)
  allocate ref := ask clock (client.allocate ref)
  submit ref operation ticket := ask clock (client.submit ref operation ticket)
  await ticket limit := ask clock (client.await ticket limit)

/-- The call breaks no operation off. -/
def Returns (pool : PoolRef) : SessionCall → Clusters → Prop
  | .operate operation, c => (c.perform pool operation).1.HasReturned
  | .list, _ | .advance _, _ => True

instance (pool : PoolRef) (call : SessionCall) (c : Clusters) : Decidable (Returns pool call c) :=
  match call with
  | .operate operation => inferInstanceAs (Decidable (c.perform pool operation).1.HasReturned)
  | .list | .advance _ => .isTrue trivial

end Clusters

/-- Answers a call of a session from its pool while the session waits. -/
def StoreClient.answer {σ : Type} (client : StoreClient σ) (pool : PoolRef) :
    (call : SessionCall) → StateM σ call.Answer
  | .operate operation => client.perform pool operation
  | .list => client.list pool
  | .advance next => client.advance pool next

namespace Engine

variable {σ β α : Type} {session : OpenSession}

/-! ## Blocking scheduling -/

/-- Without a channel, a session does what its pool does. -/
theorem collect_blocking (client : StoreClient σ) (hchannel : session.channel = none)
    (flow : SessionFlow β α) (e : Engine σ) : flow.collect (answer client session) e =
      ((flow.collect (client.answer session.pool) e.store).1,
        { e with store := (flow.collect (client.answer session.pool) e.store).2 }) := by
  induction flow generalizing e with
  | done result => rfl
  | emit item rest ih =>
    rw [Flow.collect, bind_apply (ih e)]
    rfl
  | ask call resume ih =>
    have hanswer : answer client session call e = ((client.answer session.pool call e.store).1,
        { e with store := (client.answer session.pool call e.store).2 }) := by
      cases call with
      | operate operation =>
        show operate client session operation e = _
        unfold operate
        rw [hchannel]
        rfl
      | list | advance next => rfl
    rw [Flow.collect, bind_apply hanswer, ih]
    rfl

/-! ## Asynchronous scheduling -/

/-- A session with a channel sits on its slot, nothing else was handed over, and whatever will be
handed over is carried out in time. But for the times of last changes, the clusters are `c`. -/
structure Follows (session : OpenSession) (channel : Nat) (c : Clusters × Nat)
    (e : Engine (Clusters × Nat)) : Prop where
  alike : c.1.timeless = e.store.1.timeless
  idle : e.store.1.dispatcher.jobs = []
  prompt : ∀ number, (e.store.1.dispatcher.delay number).nanos ≤ session.limit.nanos
  seats : ∃ w, e.Seats session channel w

/-- An operation with either scheduling. -/
theorem Follows.operate {channel : Nat} {clock clock' : Nat → Int} {c : Clusters × Nat}
    {e : Engine (Clusters × Nat)} (h : Follows session channel c e) {operation : Operation}
    (hreturns : Clusters.Returns session.pool (.operate operation) c.1) :
    Session.Alike Failure.IsProper operation.Alike
        ((Clusters.timed clock).perform session.pool operation c).1
        (operate (Clusters.timed clock') session operation e).1
      ∧ Follows session channel ((Clusters.timed clock).perform session.pool operation c).2
        (operate (Clusters.timed clock') session operation e).2 := by
  rcases h with ⟨halike, hidle, hprompt, w, hseats⟩
  -- neither clock has anything to do with how the operation ends
  let b : Clusters := { c.1 with now := clock c.2 }
  let a : Clusters := { e.store.1 with now := clock' (e.store.2 + 2) }
  have hba : b.timeless = a.timeless := halike
  have houtcome : ∃ outcome, (c.1.perform session.pool operation).1 = .returned outcome := by
    cases hending : (c.1.perform session.pool operation).1 with
    | returned outcome => exact ⟨outcome, rfl⟩
    | broken breakage =>
      have hreturned : (c.1.perform session.pool operation).1.HasReturned := hreturns
      rw [hending] at hreturned
      exact hreturned.elim
  rcases houtcome with ⟨outcome, houtcome⟩
  have hb : c.1.timeless = b.timeless := rfl
  rcases Clusters.outcome_alike hb houtcome with ⟨outcome₁, houtcome₁, -⟩
  rcases Clusters.outcome_alike hba houtcome₁ with ⟨outcome₂, houtcome₂, hlike⟩
  have hpools := (Clusters.perform_alike hba session.pool operation).2
  have hperform : a.perform session.pool operation =
      (.returned outcome₂, (a.perform session.pool operation).2) := by rw [← houtcome₂]
  have hidle : a.dispatcher.jobs = [] := hidle
  rcases Clusters.await_alone hidle hprompt hperform w.board.tickets.size
      with ⟨d, hawait, hjobs, hdelay⟩
  have hgiven : (Clusters.timed clock').await w.board.tickets.size session.limit
      (a.submit session.pool operation w.board.tickets.size, e.store.2 + 2) =
        ([(w.board.tickets.size, outcome₂)],
          { (a.perform session.pool operation).2 with dispatcher := d }, e.store.2 + 3) := by
    show Clusters.ask clock' (Clusters.await _ _) _ = _
    unfold Clusters.ask
    show ((Clusters.await _ _ (a.submit session.pool operation _)).1,
      (Clusters.await _ _ (a.submit session.pool operation _)).2, _) = _
    rw [hawait]
  have hallocate : (Clusters.timed clock').allocate session.pool e.store =
      (.ok (), ({ e.store.1 with now := clock' e.store.2 }, e.store.2 + 1)) := rfl
  have hsubmit : (Clusters.timed clock').submit session.pool operation w.board.tickets.size
      ({ e.store.1 with now := clock' e.store.2 }, e.store.2 + 1) =
        ((.ok (), []), ({ e.store.1 with now := clock' (e.store.2 + 1) }).submit session.pool
          operation w.board.tickets.size, e.store.2 + 2) := rfl
  rcases operate_handed (Clusters.timed clock') hseats hallocate hsubmit hgiven
      with ⟨w', hoperate, honward, -⟩
  rw [List.lookup_cons_self, Option.getD_some] at hoperate
  have hresult : ((Clusters.timed clock).perform session.pool operation c).1 = outcome₁ := by
    show (b.perform session.pool operation).1.result = outcome₁
    rw [houtcome₁]
    rfl
  rw [hoperate, hresult]
  refine ⟨hlike, hpools, hjobs, ?_, w', hseats.onward honward rfl⟩
  rw [hdelay]
  exact hprompt

/-- One call with either scheduling. -/
theorem Follows.answer {channel : Nat} {clock clock' : Nat → Int} {c : Clusters × Nat}
    {e : Engine (Clusters × Nat)} (h : Follows session channel c e) {call : SessionCall}
    (hreturns : Clusters.Returns session.pool call c.1) :
    call.Alike ((Clusters.timed clock).answer session.pool call c).1
        (answer (Clusters.timed clock') session call e).1
      ∧ Follows session channel ((Clusters.timed clock).answer session.pool call c).2
        (answer (Clusters.timed clock') session call e).2 := by
  cases call with
  | operate operation => exact h.operate hreturns
  | list =>
    let b : Clusters := { c.1 with now := clock c.2 }
    let a : Clusters := { e.store.1 with now := clock' e.store.2 }
    have hba : b.timeless = a.timeless := h.alike
    refine ⟨Clusters.keys_alike hba, ?_⟩
    have hb : ((Clusters.timed clock).answer session.pool .list c).2 = (b, c.2 + 1) := by
      show ((b.list session.pool).2, c.2 + 1) = _
      rw [Clusters.list_snd]
    have ha : (Engine.answer (Clusters.timed clock') session .list e).2 =
        { e with store := (a, e.store.2 + 1) } := by
      show { e with store := ((a.list session.pool).2, e.store.2 + 1) } = _
      rw [Clusters.list_snd]
    rw [hb, ha]
    rcases h.seats with ⟨w, hseats⟩
    exact ⟨hba, h.idle, h.prompt, w, hseats.of_board rfl⟩
  | advance next =>
    rcases h.seats with ⟨w, hseats⟩
    exact ⟨trivial, h.alike, h.idle, h.prompt, w, hseats.of_board rfl⟩

/-! ## Whole sessions -/

/-- A slot is free. -/
structure HasRoom (e : Engine σ) : Prop where
  permits : e.slots.permits ≠ 0
  free : ∃ slot rest, e.slots.free = slot :: rest ∧ slot < e.board.bridges.length
  wired : ∃ w : Wires, w.board = e.board ∧ w.Sound

/-- Where a slot is free, a session is opened on it, does its work and is closed. -/
theorem HasRoom.inSession {e : Engine σ} (h : e.HasRoom) (pool : PoolRef) (limit : Span) :
    ∃ (session : OpenSession) (e₁ : Engine σ), session.pool = pool ∧ session.limit = limit
      ∧ e₁.store = e.store ∧ (e.mode = .blocking → session.channel = none)
      ∧ (e.mode = .async → ∃ channel w, e₁.Seats session channel w)
      ∧ ∀ {α : Type} (body : OpenSession → StateM (Engine σ) α),
        (inSession pool limit body).run e =
          (some (.ok (body session e₁).1), (leave session (body session e₁).2).2) := by
  rcases h with ⟨hpermits, ⟨slot, rest, hfree, hslot⟩, w, hboard, hw⟩
  let slots : SlotPool := { e.slots with permits := e.slots.permits - 1, free := rest }
  have hacquire : e.slots.acquire = (.slot slot, slots) := by
    unfold SlotPool.acquire
    rw [if_neg hpermits]
    simp only [SlotPool.takeSlot, hfree, slots]
  rw [← hboard] at hslot
  rcases enter_free hacquire hboard hw hslot pool limit
      with ⟨channel?, w', hentered, hopened, hblocking⟩
  refine ⟨⟨slot, channel?, pool, limit⟩, { e with slots := slots, board := w'.board }, rfl, rfl,
    rfl, hblocking.mpr, fun hasync => ?_, fun body => ?_⟩
  · cases hchannel : channel? with
    | none => cases hasync.symm.trans (hblocking.mp hchannel)
    | some channel =>
      exact ⟨channel, w', rfl, rfl, hopened.sound, hopened.length.symm ▸ hslot,
        hopened.seated channel hchannel⟩
  · unfold Engine.inSession
    rw [run_bind_apply hentered]
    rfl

/-- In a session on either engine, the flow hands out items and ends with results that are related,
and leaves clusters that differ in their times alone. -/
def RunsAlike (clock clock' : Nat → Int) (pool : PoolRef) (limit : Span)
    (items : β → β → Prop) (results : α → α → Prop) (flow : SessionFlow β α)
    (e e' : Engine (Clusters × Nat)) : Prop :=
  ∃ handed result final handed' result' final',
    (inSession pool limit fun session =>
        flow.collect (answer (Clusters.timed clock) session)).run e =
      (some (.ok (handed, result)), final)
    ∧ (inSession pool limit fun session =>
        flow.collect (answer (Clusters.timed clock') session)).run e' =
      (some (.ok (handed', result')), final')
    ∧ List.Forall₂ items handed handed' ∧ results result result'
    ∧ final.store.1.timeless = final'.store.1.timeless

variable {clock clock' : Nat → Int} {pool : PoolRef} {limit : Span}

/-- While the session waits, none of the operations of the flow breaks off. -/
def Unbroken (clock : Nat → Int) (pool : PoolRef) (flow : SessionFlow β α)
    (e : Engine (Clusters × Nat)) : Prop :=
  flow.Along (fun call s => Clusters.Returns pool call s.1) ((Clusters.timed clock).answer pool)
    e.store

instance (clock : Nat → Int) (pool : PoolRef) (flow : SessionFlow β α)
    (e : Engine (Clusters × Nat)) : Decidable (Unbroken clock pool flow e) :=
  Flow.Along.decidable flow e.store

theorem runsAlike {e e' : Engine (Clusters × Nat)} {items : β → β → Prop}
    {results : α → α → Prop} {flow : SessionFlow β α}
    (hparallel : Flow.Parallel SessionCall.Alike items results flow flow)
    (hmode : e.mode = .blocking) (hmode' : e'.mode = .async) (hroom : e.HasRoom)
    (hroom' : e'.HasRoom) (halike : e.store.1.timeless = e'.store.1.timeless)
    (hidle : e'.store.1.dispatcher.jobs = [])
    (hprompt : ∀ number, (e'.store.1.dispatcher.delay number).nanos ≤ limit.nanos)
    (hunbroken : Unbroken clock pool flow e) :
    RunsAlike clock clock' pool limit items results flow e e' := by
  rcases hroom.inSession pool limit with ⟨session, e₁, hpool, -, hstore, hblocking, -, hrun⟩
  rcases hroom'.inSession pool limit
    with ⟨session', e₁', hpool', hlimit', hstore', -, hasync, hrun'⟩
  rcases hasync hmode' with ⟨channel, w, hseats⟩
  have hfollows : Follows session' channel e.store e₁' := by
    refine ⟨?_, ?_, ?_, w, hseats⟩
    · rw [hstore']
      exact halike
    · rw [hstore']
      exact hidle
    · rw [hstore', hlimit']
      exact hprompt
  -- the session that waits does what its pool does, and the other one follows
  have hcollected := collect_blocking (Clusters.timed clock) (hblocking hmode) flow e₁
  rw [hpool, hstore] at hcollected
  have hanswer : ∀ call s e, Clusters.Returns pool call s.1 → Follows session' channel s e →
      call.Alike ((Clusters.timed clock).answer pool call s).1
          (answer (Clusters.timed clock') session' call e).1
        ∧ Follows session' channel ((Clusters.timed clock).answer pool call s).2
          (answer (Clusters.timed clock') session' call e).2 := by
    intro call s e hreturns hfollows
    rw [← hpool'] at hreturns ⊢
    exact hfollows.answer hreturns
  rcases hparallel.collect hanswer hunbroken hfollows with ⟨hitems, hresults, hfollows'⟩
  refine ⟨_, _, _, _, _, _, hrun _, hrun' _, ?_, ?_, ?_⟩
  · rw [hcollected]
    exact hitems
  · rw [hcollected]
    exact hresults
  · rw [leave_store, leave_store, hcollected]
    exact hfollows'.alike

end Engine

/-- A session is asked for one thing after the other, or uploads, downloads or lists. With blocking
scheduling no operation breaks off, and with asynchronous scheduling each is carried out within the
limit; the stores are the same but for their times, and the clocks show whatever they do. Then both
schedulings give the same results one by one, the times of last changes aside, and leave the same
objects; no result is about a reply of the wrong kind, unless a body that is uploaded brings such a
failure along. -/
theorem schedulings_agree {e e' : Engine (Clusters × Nat)} (clock clock' : Nat → Int)
    (pool : PoolRef) (limit : Span) (hmode : e.mode = .blocking) (hmode' : e'.mode = .async)
    (hroom : e.HasRoom) (hroom' : e'.HasRoom) (halike : e.store.1.timeless = e'.store.1.timeless)
    (hidle : e'.store.1.dispatcher.jobs = [])
    (hprompt : ∀ number, (e'.store.1.dispatcher.delay number).nanos ≤ limit.nanos) :
    (∀ tasks, Engine.Unbroken clock pool (SessionTask.runAll tasks []).run e →
      Engine.RunsAlike clock clock' pool limit TaskResult.Alike
        (Session.Alike Failure.IsProper fun _ _ => True) (SessionTask.runAll tasks []).run e e')
    ∧ (∀ chunkSize request, Engine.Unbroken clock pool (Upload.run chunkSize request).run e →
      Engine.RunsAlike clock clock' pool limit (fun _ _ => True)
        (Session.Alike request.Fine fun receipt receipt' => receipt' = receipt)
        (Upload.run chunkSize request).run e e')
    ∧ (∀ chunkSize key size, Engine.Unbroken clock pool (Download.run chunkSize key size).run e →
      Engine.RunsAlike clock clock' pool limit (fun bytes bytes' => bytes' = bytes)
        (Session.Alike Failure.IsProper fun _ _ => True) (Download.run chunkSize key size).run e e')
    ∧ (Engine.Unbroken clock pool Listing.run.run e →
      Engine.RunsAlike clock clock' pool limit ListedObject.Alike
        (Session.Alike Failure.IsProper fun _ _ => True) Listing.run.run e e') := by
  have hrun : ∀ {β α : Type} {items : β → β → Prop} {results : α → α → Prop}
      {flow : SessionFlow β α}, Flow.Parallel SessionCall.Alike items results flow flow →
      Engine.Unbroken clock pool flow e →
      Engine.RunsAlike clock clock' pool limit items results flow e e' :=
    fun hparallel => Engine.runsAlike hparallel hmode hmode' hroom hroom' halike hidle hprompt
  exact ⟨fun tasks => hrun (SessionTask.runAll_parallel tasks []),
    fun chunkSize request => hrun (Upload.run_parallel chunkSize request),
    fun chunkSize key size => hrun (Download.run_parallel chunkSize key size),
    hrun Listing.run_parallel⟩

/-- One slot over one memory pool with an object that was changed at some time. Operations that are
handed over are carried out after three nanoseconds. -/
def oneObject (mode : SchedulingMode) (mtime : Int) : Engine (Clusters × Nat) :=
  ⟨mode, ⟨1, [0], 1, [], [], 0⟩, Switchboard.fresh 1,
    { members := [.memory "one" ⟨Shelf.set default "p" ⟨Shelf.set default "k" ⟨[7], mtime⟩⟩⟩],
      dispatcher := { delay := fun _ => ⟨3⟩ } }, 0⟩

theorem schedulings_agree_one_object :
    Engine.RunsAlike (fun n => n) (fun n => 100 + 2 * n) ⟨0, "p"⟩ (.ofSeconds 4) TaskResult.Alike
      (Session.Alike Failure.IsProper fun _ _ => True)
      (SessionTask.runAll [.write "k" [1, 2] 1, .stat "k", .stat "l", .list, .next 0] []).run
      (oneObject .blocking 5) (oneObject .async 60) := by
  have hroom : ∀ mode mtime, (oneObject mode mtime).HasRoom := fun mode mtime =>
    ⟨Nat.one_ne_zero, ⟨0, [], rfl, Nat.one_pos⟩, _, rfl, Wires.fresh_sound 1⟩
  have halike : (oneObject .blocking 5).store.1.timeless =
      (oneObject .async 60).store.1.timeless := rfl
  have hprompt : ∀ number, ((oneObject .async 60).store.1.dispatcher.delay number).nanos ≤
      (Span.ofSeconds 4).nanos := by
    intro number
    show 3 ≤ (Span.ofSeconds 4).nanos
    decide
  have hagree := schedulings_agree (fun n => n) (fun n => 100 + 2 * n) ⟨0, "p"⟩ (.ofSeconds 4) rfl
    rfl (hroom .blocking 5) (hroom .async 60) halike rfl hprompt
  exact hagree.1 [.write "k" [1, 2] 1, .stat "k", .stat "l", .list, .next 0] (by decide +kernel)

end DavGateway
