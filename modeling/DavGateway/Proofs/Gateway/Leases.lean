import DavGateway.Proofs.Gateway.Visits

/-!
# Slots and channels while requests are served

Only the opening and the closing of a session touch the slots and the channels that the bridges send
to; whatever else is done on the switchboard or asked of the store, whatever the store answers,
leaves them as they are (`Engine.KeepsLeases`). So the sessions that are held account for all slots
that are not free and for all channels (`Engine.Leased`), and a request that was answered holds one
slot more than before if its response needs a session, and no slot otherwise
(`Engine.Leased.handle`).
-/

namespace DavGateway

/-! ## Channels -/

/-- The bridges of the switchboards are as many, and send to the same channels. -/
structure Switchboard.SameWakes (b b' : Switchboard) : Prop where
  length : b'.bridges.length = b.bridges.length
  wake : ∀ slot, (b'.bridge slot).wake = (b.bridge slot).wake

namespace Switchboard.SameWakes

variable {b b' b'' : Switchboard} {slot : Nat}

theorem refl (b : Switchboard) : b.SameWakes b := ⟨rfl, fun _ => rfl⟩

theorem trans (h : b.SameWakes b') (h' : b'.SameWakes b'') : b.SameWakes b'' where
  length := h'.length.trans h.length
  wake := fun slot => (h'.wake slot).trans (h.wake slot)

theorem of_bridges (h : b'.bridges = b.bridges) : b.SameWakes b' where
  length := by rw [h]
  wake := by
    intro slot
    unfold bridge
    rw [h]

theorem atSlot {f : Bridge → Bridge} (hf : (f (b.bridge slot)).wake = (b.bridge slot).wake) :
    b.SameWakes (b.atSlot slot f) where
  length := length_atSlot b slot f
  wake := by
    intro other
    by_cases hne : slot = other
    · subst hne
      by_cases hlt : slot < b.bridges.length
      · rw [bridge_atSlot f hlt, hf]
      · -- there is no bridge to change
        have hle : b.bridges.length ≤ slot := Nat.not_lt.mp hlt
        have hle' : (b.atSlot slot f).bridges.length ≤ slot := by rwa [length_atSlot]
        rw [bridge_of_length_le hle, bridge_of_length_le hle']
    · rw [bridge_atSlot_ne f hne]

theorem callBack (b : Switchboard) (ticket : Nat) : b.SameWakes (b.callBack ticket) := by
  unfold Switchboard.callBack
  split
  · exact refl b
  · exact atSlot (Bridge.wake_fire _ _)

theorem complete (b : Switchboard) (ticket : Nat) (outcome : Outcome) :
    b.SameWakes (b.complete ticket outcome) := by
  have hrecord : b.SameWakes (b.record ticket outcome).2 := of_bridges bridges_record
  unfold Switchboard.complete
  simp only
  split
  · exact hrecord.trans (callBack _ ticket)
  · exact hrecord

theorem completeAll (b : Switchboard) (completed : Completed) :
    b.SameWakes (b.completeAll completed) := by
  unfold Switchboard.completeAll
  induction completed generalizing b with
  | nil => exact refl b
  | cons entry rest ih => exact (complete b entry.1 entry.2).trans (ih _)

end Switchboard.SameWakes

namespace Engine

variable {σ α β : Type}

/-- The slots of the engines are held alike, and their bridges send to the same channels. -/
structure SameLeases (e e' : Engine σ) : Prop where
  slots : e'.slots = e.slots
  board : e.board.SameWakes e'.board

theorem SameLeases.refl (e : Engine σ) : e.SameLeases e := ⟨rfl, .refl e.board⟩

theorem SameLeases.trans {e e' e'' : Engine σ} (h : e.SameLeases e') (h' : e'.SameLeases e'') :
    e.SameLeases e'' := ⟨h'.slots.trans h.slots, h.board.trans h'.board⟩

/-- On every engine, the computation leaves the slots and the channels as they are. -/
def KeepsLeases (x : StateM (Engine σ) α) : Prop := ∀ e : Engine σ, e.SameLeases (x e).2

namespace KeepsLeases

variable {client : StoreClient σ} {session : OpenSession}

theorem pure (a : α) : KeepsLeases (Pure.pure a : StateM (Engine σ) α) :=
  SameLeases.refl

theorem bind {x : StateM (Engine σ) α} {f : α → StateM (Engine σ) β} (hx : KeepsLeases x)
    (hf : ∀ a, KeepsLeases (f a)) : KeepsLeases (x >>= f) := by
  intro e
  have hfirst : x e = ((x e).1, (x e).2) := rfl
  rw [bind_apply hfirst]
  exact (hx e).trans (hf _ _)

theorem onStore (f : σ → α × σ) : KeepsLeases (Engine.onStore f) := fun e => ⟨rfl, .refl e.board⟩

theorem onBoard {f : Switchboard → α × Switchboard} (hf : ∀ b : Switchboard, b.SameWakes (f b).2) :
    KeepsLeases (Engine.onBoard f : StateM (Engine σ) α) := fun e => ⟨rfl, hf e.board⟩

theorem complete (completed : Completed) :
    KeepsLeases (Engine.complete completed : StateM (Engine σ) Unit) :=
  onBoard fun b => .completeAll b completed

theorem poll (slot channel : Nat) :
    KeepsLeases (Engine.poll slot channel : StateM (Engine σ) Signal) :=
  onBoard fun _ => .atSlot (Bridge.wake_poll _ channel)

theorem wait (client : StoreClient σ) (slot channel ticket : Nat) (limit : Span) :
    KeepsLeases (Engine.wait client slot channel ticket limit) := by
  refine (poll slot channel).bind ?_
  intro signal
  cases signal with
  | woken | closed => exact pure _
  | idle =>
    refine (onStore (client.await ticket limit)).bind ?_
    intro completed
    refine (complete completed).bind ?_
    intro _
    refine (poll slot channel).bind ?_
    intro signal
    cases signal <;> exact pure _

theorem bridgeStep (client : StoreClient σ) (session : OpenSession) (channel : Nat)
    (operation : Operation) (step : BridgeStep) :
    KeepsLeases (Engine.bridgeStep client session channel operation step) := by
  cases step with
  | bump => exact onBoard fun _ => .atSlot rfl
  | drain => exact onBoard fun _ => .atSlot rfl
  | allocate stamp =>
    refine (onStore (client.allocate session.pool)).bind ?_
    intro result
    cases result with
    | error failure => exact pure _
    | ok =>
      refine bind (onBoard fun b => .of_bridges Switchboard.bridges_allocate) ?_
      intro ticket
      exact pure _
  | submit ticket =>
    refine (onStore (client.submit session.pool operation ticket)).bind ?_
    rintro ⟨result, completed⟩
    refine (complete completed).bind ?_
    intro _
    exact pure result
  | wait ticket limit => exact wait client session.slot channel ticket limit
  | abandon stamp => exact onBoard fun _ => .atSlot (Bridge.wake_abandon _ stamp)
  | take ticket => exact onBoard fun _ => .of_bridges Switchboard.bridges_take

section Flows

variable {C : Type} {R : C → Type} {answer : (call : C) → StateM (Engine σ) (R call)}

theorem answered (hanswer : ∀ call, KeepsLeases (answer call)) {e : Engine σ} (call : C)
    (e' : Engine σ) (_ : True) (he : e.SameLeases e') : e.SameLeases (answer call e').2 :=
  he.trans (hanswer call e')

/-- A flow keeps what the answers to its calls keep. -/
theorem run (hanswer : ∀ call, KeepsLeases (answer call)) (flow : Flow C R Empty α) :
    KeepsLeases (flow.run answer) := by
  intro e
  exact (Flow.only_of_forall (fun _ => trivial) flow).run (answered hanswer) (.refl e)

theorem collect (hanswer : ∀ call, KeepsLeases (answer call)) (flow : Flow C R β α) :
    KeepsLeases (flow.collect answer) := by
  intro e
  exact (Flow.only_of_forall (fun _ => trivial) flow).collect (answered hanswer) (.refl e)

theorem collectUpTo (hanswer : ∀ call, KeepsLeases (answer call)) (limit : Nat)
    (flow : Flow C R β α) : KeepsLeases (flow.collectUpTo answer limit) := by
  intro e
  have honly := Flow.only_of_forall (fun _ => trivial) flow
  exact honly.collectUpTo (answered hanswer) limit (.refl e)

end Flows

theorem answer (client : StoreClient σ) (session : OpenSession) (call : SessionCall) :
    KeepsLeases (Engine.answer client session call) := by
  cases call with
  | operate operation =>
    show KeepsLeases (operate client session operation)
    unfold operate
    cases session.channel with
    | none => exact onStore _
    | some channel => exact run (bridgeStep client session channel operation) _
  | list | advance next => exact onStore _

theorem bodyAnswer (client : StoreClient σ) (session? : Option OpenSession) (call : SessionCall) :
    KeepsLeases (Engine.bodyAnswer client session? call) := by
  cases session? with
  | some session => exact answer client session call
  | none => cases call <;> exact pure _

end KeepsLeases

/-! ## Sessions that are held -/

/-- The slots that are not free are those of the sessions that are held, and nobody waits for one. A
bridge sends to a channel only while a session with a channel is held on its slot. -/
structure Leased (e : Engine σ) (n : Nat) (held : List OpenSession) : Prop where
  slots : e.slots.InStep n (held.map OpenSession.slot)
  queue : e.slots.queue = []
  granted : e.slots.granted = []
  length : e.board.bridges.length = n
  silent : ∀ slot, (e.board.bridge slot).wake ≠ none →
    ∃ session ∈ held, session.slot = slot ∧ session.channel ≠ none

namespace Leased

variable {e e' : Engine σ} {n : Nat} {held others : List OpenSession} {session : OpenSession}
variable {client : StoreClient σ} {table : MountTable}

/-- The slots that can be had and those that are held are all slots. -/
theorem available (h : e.Leased n held) : e.available + held.length = n := by
  have hlength := h.slots.slots.length_eq
  have hpermits := h.slots.permits
  rw [List.length_append, List.length_map, List.length_range] at hlength
  rw [h.granted, List.length_nil] at hpermits
  show e.slots.permits + held.length = n
  omega

theorem perm (h : e.Leased n held) (hperm : held.Perm others) : e.Leased n others where
  slots := h.slots.perm (hperm.map _)
  queue := h.queue
  granted := h.granted
  length := h.length
  silent := by
    intro slot hwake
    obtain ⟨session, hsession, hslot⟩ := h.silent slot hwake
    exact ⟨session, hperm.mem_iff.mp hsession, hslot⟩

theorem same (h : e.Leased n held) (hsame : e.SameLeases e') : e'.Leased n held where
  slots := hsame.slots ▸ h.slots
  queue := hsame.slots ▸ h.queue
  granted := hsame.slots ▸ h.granted
  length := hsame.board.length.trans h.length
  silent := by
    intro slot hwake
    rw [hsame.board.wake slot] at hwake
    exact h.silent slot hwake

/-- A session is opened, unless all slots are held. -/
theorem enter (h : e.Leased n held) (pool : PoolRef) (limit : Span) :
    e.available = 0 ∧ (Engine.enter pool limit).run e = (none, e)
    ∨ ∃ session e', (Engine.enter pool limit).run e = (some (.ok session), e')
      ∧ e'.Leased n (session :: held) := by
  rcases h.slots.acquire with ⟨hnone, hacquire⟩ | ⟨slot, rest, hfree, hacquire, hfits⟩
  · left
    refine ⟨hnone, ?_⟩
    rw [enter_run, hacquire]
  · right
    let taken : Engine σ :=
      { e with slots := { e.slots with permits := e.slots.permits - 1, free := rest } }
    have hentered : (Engine.enter pool limit).run e =
        (some (.ok (openSession slot pool limit taken).1),
          (openSession slot pool limit taken).2) := by
      rw [enter_run, hacquire]
    refine ⟨_, _, hentered, ?_⟩
    cases hmode : taken.mode with
    | blocking =>
      rw [openSession_blocking hmode]
      refine ⟨hfits, h.queue, h.granted, h.length, ?_⟩
      intro other hwake
      obtain ⟨session, hsession, hslot⟩ := h.silent other hwake
      exact ⟨session, List.mem_cons_of_mem _ hsession, hslot⟩
    | async =>
      rw [openSession_async hmode]
      refine ⟨hfits, h.queue, h.granted, (Switchboard.length_atSlot ..).trans h.length, ?_⟩
      intro other hwake
      -- only the bridge of the new session sends to another channel than before
      by_cases hother : slot = other
      · exact ⟨_, List.mem_cons_self, hother, nofun⟩
      · rw [Switchboard.bridge_atSlot_ne _ hother] at hwake
        obtain ⟨session, hsession, hslot⟩ := h.silent other hwake
        exact ⟨session, List.mem_cons_of_mem _ hsession, hslot⟩

/-- A session that is closed gives its slot back, and its channel is gone. -/
theorem leave (h : e.Leased n (session :: others)) :
    (Engine.leave session e).2.Leased n others := by
  have hslots : (e.slots.release session.slot).InStep n (others.map OpenSession.slot) :=
    h.slots.release
  have hrelease : e.slots.release session.slot =
      { e.slots with free := session.slot :: e.slots.free, permits := e.slots.permits + 1 } := by
    unfold SlotPool.release SlotPool.returnPermit
    simp only [h.queue]
  have hqueue : (e.slots.release session.slot).queue = [] := by rw [hrelease, h.queue]
  have hgranted : (e.slots.release session.slot).granted = [] := by rw [hrelease, h.granted]
  -- a channel that is left belongs to one of the others
  have hothers : ∀ slot, slot ≠ session.slot ∨ session.channel = none →
      (e.board.bridge slot).wake ≠ none →
        ∃ other ∈ others, other.slot = slot ∧ other.channel ≠ none := by
    intro slot hslot hwake
    obtain ⟨other, hother, rfl, hchannel⟩ := h.silent slot hwake
    rcases List.mem_cons.mp hother with rfl | hother
    · rcases hslot with hne | hnone
      · exact absurd rfl hne
      · exact absurd hnone hchannel
    · exact ⟨other, hother, rfl, hchannel⟩
  unfold Engine.leave
  cases hchannel : session.channel with
  | none => exact ⟨hslots, hqueue, hgranted, h.length, fun slot => hothers slot (.inr hchannel)⟩
  | some channel =>
    refine ⟨hslots, hqueue, hgranted, (Switchboard.length_atSlot ..).trans h.length, ?_⟩
    intro slot hwake
    have hlt : session.slot < e.board.bridges.length := by
      rw [h.length]
      exact h.slots.lt List.mem_cons_self
    have hne : slot ≠ session.slot := by
      rintro rfl
      refine hwake ?_
      show ((e.board.atSlot session.slot fun bridge => bridge.closeSession channel).bridge
        session.slot).wake = none
      rw [Switchboard.bridge_atSlot _ hlt]
      rfl
    refine hothers slot (.inl hne) ?_
    have hsame := Switchboard.bridge_atSlot_ne (b := e.board)
      (fun bridge => bridge.closeSession channel) hne.symm
    rw [← hsame]
    exact hwake

theorem dropBody {body : Http.Body} (h : e.Leased n (body.session?.toList ++ held)) :
    (Engine.dropBody body e).2.Leased n held := by
  unfold Engine.dropBody
  cases hsession : body.session? with
  | none =>
    rw [hsession] at h
    exact h
  | some session =>
    rw [hsession] at h
    exact h.leave

/-- While the calls of a request are answered, it holds its session besides the others. It waits
only if there is no slot. -/
theorem upheldBy (client : StoreClient σ) (may : Change → Prop) (n : Nat)
    (others : List OpenSession) :
    (GatewayFlow.protocol may).UpheldBy (respond client)
      (fun held e => e.Leased n (held.toList ++ others))
      (fun e => e.Leased n others ∧ e.available = 0) where
  answered := by
    intro held call e reply e' hcall he hanswer
    cases call with
    | enter pool limit =>
      cases hcall
      have hanswered := enter_answered hanswer
      rcases Leased.enter he pool limit with ⟨-, hblocked⟩ | ⟨session, e₁, hopened, hleased⟩
      · cases hblocked.symm.trans hanswer
      · cases hopened.symm.trans hanswer
        exact ⟨hanswered.2, hleased⟩
    | within session call =>
      cases hanswer
      exact ⟨trivial, he.same (KeepsLeases.answer client session call e)⟩
    | leave session =>
      cases hcall
      cases hanswer
      exact ⟨trivial, Leased.leave he⟩
    | createPool ref =>
      cases hanswer
      exact ⟨trivial, he.same (KeepsLeases.onStore (client.createPool ref) e)⟩
  unanswered := by
    intro held call e e' hcall he hanswer
    cases call with
    | enter pool limit =>
      cases hcall
      rcases Leased.enter he pool limit with ⟨hnone, hblocked⟩ | ⟨session, e₁, hopened, -⟩
      · cases hblocked.symm.trans hanswer
        exact ⟨he, hnone⟩
      · cases hopened.symm.trans hanswer
    | within session call | leave session | createPool ref => cases hanswer

/-- A request that is answered holds the session that its response needs, and no other. -/
theorem handle (h : e.Leased n held) {r : Http.Request} {response : Http.Response}
    (hresponse : (handle client table r).run e = (some response, e')) :
    e'.Leased n (response.body.session?.toList ++ held) := by
  have hstart : e.Leased n ((none : Option OpenSession).toList ++ held) := h
  obtain ⟨place, ⟨rfl, -⟩, hleased⟩ :=
    ((Http.serve_obeys table r).run (upheldBy client _ n held) hstart).1 hresponse
  exact hleased

/-- A request waits only if all slots are held, and holds nothing then. -/
theorem handle_none (h : e.Leased n held) {r : Http.Request}
    (hnone : (Engine.handle client table r).run e = (none, e')) :
    e'.Leased n held ∧ e.available = 0 := by
  have hstart : e.Leased n ((none : Option OpenSession).toList ++ held) := h
  obtain ⟨hleased, hzero⟩ :=
    ((Http.serve_obeys table r).run (upheldBy client _ n held) hstart).2 hnone
  have hbefore := h.available
  have hafter := hleased.available
  exact ⟨hleased, by omega⟩

end Leased

end Engine

end DavGateway
