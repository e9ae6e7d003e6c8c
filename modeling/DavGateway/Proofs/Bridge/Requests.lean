import DavGateway.Proofs.Bridge.Wires
import DavGateway.Proofs.Slots

/-!
# Requests keep out of each other's way

Any number of requests share a pool of slots and a switchboard. Each takes a slot, opens a session
on its bridge, carries operations out one after the other and may be dropped at any time, while the
store completes what it was given whenever it likes. `Crowd` lets these steps happen in any order.

A request that is dropped in the middle of an operation gives nothing up: its token stays live until
the next operation on its slot starts a generation, and may put a unit into the channel of the next
request before that. The channel is emptied once the old token is dead, and so every operation ends
with what happened to its own completion.
-/

namespace DavGateway

/-- What has happened to an operation: the refusal of its allocation, or the ticket of its
completion; the ticket it was submitted with, and the rejection of its submission; whether its
waiter is done with waiting, and whether its callback had run when the waiter looked into its
channel for the last time. -/
structure Account where
  operation : Operation
  limit : Span
  refusal : Option Failure := none
  ticket : Option Nat := none
  submitted : Option Nat := none
  rejection : Option Failure := none
  waited : Bool := false
  heard : Bool := false

namespace Account

/-- The account after a step of the waiter, where `called` are the callbacks that have run. -/
def note (a : Account) (called : List Nat) : (step : BridgeStep) → step.Answer → Account
  | .allocate _, .error failure => { a with refusal := some failure }
  | .allocate _, .ok ticket => { a with ticket := some ticket }
  | .submit ticket, .error failure =>
    { a with submitted := some ticket, rejection := some failure }
  | .submit ticket, .ok () => { a with submitted := some ticket }
  | .wait _ _, _ => { a with waited := true, heard := a.ticket.any (· ∈ called) }
  | .bump, _ | .drain, _ | .abandon _, _ | .take _, _ => a

/-- How the operation is to end, given the outcomes that were handed in. -/
def due (a : Account) (slot : Nat) (records : List (Nat × Outcome)) : Option Outcome :=
  match a.refusal, a.rejection with
  | some failure, _ => some (.error (.allocation slot failure.message))
  | none, some failure => some (.error failure)
  | none, none =>
    if a.heard then a.ticket.bind fun ticket => records.lookup ticket
    else some (.error (.timedOut a.limit))

/-- The stages of an operation that has ended: no completion was allocated for it; or one was, with
which it was submitted, and it was rejected, or else its waiter has waited. -/
inductive Ended (a : Account) : Prop
  | refused {failure : Failure} (hrefusal : a.refusal = some failure) (hticket : a.ticket = none)
    (hsubmitted : a.submitted = none) (hwaited : a.waited = false)
  | rejected {ticket : Nat} {failure : Failure} (hrefusal : a.refusal = none)
    (hticket : a.ticket = some ticket) (hsubmitted : a.submitted = some ticket)
    (hrejection : a.rejection = some failure) (hwaited : a.waited = false)
  | waited {ticket : Nat} (hrefusal : a.refusal = none) (hticket : a.ticket = some ticket)
    (hsubmitted : a.submitted = some ticket) (hrejection : a.rejection = none)
    (hwaited : a.waited = true)

/-- What the operation is and how long it may take does not change. -/
theorem note_asked (a : Account) (called : List Nat) (step : BridgeStep) (answer : step.Answer) :
    (a.note called step answer).operation = a.operation
      ∧ (a.note called step answer).limit = a.limit := by
  cases step with
  | allocate | submit => cases answer <;> exact ⟨rfl, rfl⟩
  | bump | drain | wait | abandon | take => exact ⟨rfl, rfl⟩

end Account

namespace Wires

variable {w w' : Wires} {slot channel : Nat} {account : Account} {limit : Span}

open BridgeFlow

/-- Where the operation of the waiter on a slot stands: what has happened to it, and what is left
of it. -/
inductive Point (w : Wires) (slot channel : Nat) : Account → BridgeFlow Outcome → Prop
  | opening (operation : Operation) (limit : Span) :
      Point w slot channel { operation := operation, limit := limit }
        (.ask .bump (afterBump slot limit))
  | bumped (operation : Operation) (limit : Span) {stamp : Nat} (h : w.Cleared slot stamp) :
      Point w slot channel { operation := operation, limit := limit }
        (.ask .drain fun _ => .ask (.allocate stamp) (afterAllocate slot limit stamp))
  | drained (operation : Operation) (limit : Span) {stamp : Nat} (h : w.Cleared slot stamp)
      (hempty : (w.bridge slot).queued? channel = some 0) :
      Point w slot channel { operation := operation, limit := limit }
        (.ask (.allocate stamp) (afterAllocate slot limit stamp))
  | allocated (operation : Operation) (limit : Span) {pending : Pending}
      (h : w.Live slot channel pending) :
      Point w slot channel
        { operation := operation, limit := limit, ticket := some pending.ticket }
        (.ask (.submit pending.ticket) (afterSubmit slot limit pending))
  | submitted (operation : Operation) (limit : Span) {pending : Pending}
      (h : w.Live slot channel pending) :
      Point w slot channel
        { operation := operation, limit := limit, ticket := some pending.ticket,
          submitted := some pending.ticket }
        (.ask (.wait pending.ticket limit) (afterWait slot limit pending))
  | woken (operation : Operation) (limit : Span) {pending : Pending} (h : w.Kept slot pending)
      (hrecorded : (w.records.lookup pending.ticket).isSome) :
      Point w slot channel
        { operation := operation, limit := limit, ticket := some pending.ticket,
          submitted := some pending.ticket, waited := true, heard := true }
        (.ask (.take pending.ticket) (afterTake slot pending))
  | givingUp {account : Account} (stamp : Nat) {failure : Failure} (hended : account.Ended)
      (h : account.due slot w.records = some (.error failure)) :
      Point w slot channel account (.ask (.abandon stamp) fun _ => .done (.error failure))
  | returned {account : Account} {outcome : Outcome} (hended : account.Ended)
      (h : account.due slot w.records = some outcome) : Point w slot channel account (.done outcome)

theorem Point.issue (operation : Operation) (limit : Span) :
    w.Point slot channel { operation := operation, limit := limit }
      (BridgeFlow.issue slot limit) := by
  rw [issue_eq]
  exact .opening operation limit

/-- What is due is not changed by outcomes that come in later. -/
theorem due_record {outcome result : Outcome} {ticket : Nat}
    (h : account.due slot w.records = some result) :
    account.due slot (w.record ticket outcome).records = some result := by
  unfold Account.due at h ⊢
  split
  · next hrefusal => simpa only [hrefusal] using h
  · next hrefusal hrejection => simpa only [hrefusal, hrejection] using h
  · next hrefusal hrejection =>
    simp only [hrefusal, hrejection] at h
    split at h
    · next hheard =>
      rw [if_pos hheard]
      rcases Option.bind_eq_some_iff.mp h with ⟨own, hown, hlookup⟩
      rw [hown, Option.bind_some]
      exact lookup_record_of_some hlookup
    · next hheard =>
      rw [if_neg hheard]
      exact h

theorem Point.alike {rest : BridgeFlow Outcome} (h : w.Point slot channel account rest)
    (ha : w.Alike w' slot) : w'.Point slot channel account rest := by
  cases h with
  | opening operation limit => exact .opening operation limit
  | bumped operation limit h => exact .bumped operation limit (h.alike ha)
  | drained operation limit h hempty =>
    exact .drained operation limit (h.alike ha) (ha.bridge ▸ hempty)
  | allocated operation limit h => exact .allocated operation limit (h.alike ha)
  | submitted operation limit h => exact .submitted operation limit (h.alike ha)
  | woken operation limit h hrecorded =>
    exact .woken operation limit (h.alike ha) (ha.records ▸ hrecorded)
  | givingUp stamp hended h => exact .givingUp stamp hended (ha.records ▸ h)
  | returned hended h => exact .returned hended (ha.records ▸ h)

theorem Point.record {rest : BridgeFlow Outcome} {ticket : Nat} {outcome : Outcome}
    (hw : w.Sound) (h : w.Point slot channel account rest) :
    (w.record ticket outcome).Point slot channel account rest := by
  cases h with
  | opening operation limit => exact .opening operation limit
  | bumped operation limit h => exact .bumped operation limit h.record
  | drained operation limit h hempty =>
    exact .drained operation limit h.record (bridge_record (w := w) ▸ hempty)
  | allocated operation limit h => exact .allocated operation limit (h.record hw)
  | submitted operation limit h => exact .submitted operation limit (h.record hw)
  | woken operation limit h hrecorded =>
    rcases Option.isSome_iff_exists.mp hrecorded with ⟨first, hfirst⟩
    exact .woken operation limit (h.record hw)
      (Option.isSome_iff_exists.mpr ⟨first, lookup_record_of_some hfirst⟩)
  | givingUp stamp hended h => exact .givingUp stamp hended (due_record h)
  | returned hended h => exact .returned hended (due_record h)

theorem Point.callBack {rest : BridgeFlow Outcome} {ticket : Nat} (hw : w.Sound)
    (hslot : slot < w.board.bridges.length) (hseat : w.Seated slot channel)
    (h : w.Point slot channel account rest) :
    (w.callBack ticket).Point slot channel account rest := by
  have hrecords : (w.callBack ticket).records = w.records := records_callBack
  cases h with
  | opening operation limit => exact .opening operation limit
  | bumped operation limit h => exact .bumped operation limit (h.callBack hw hslot).2
  | drained operation limit h hempty =>
    rcases h.callBack hw hslot with ⟨hbridge, hcleared⟩
    exact .drained operation limit hcleared (hbridge ▸ hempty)
  | allocated operation limit h => exact .allocated operation limit (h.callBack hw hslot hseat)
  | submitted operation limit h => exact .submitted operation limit (h.callBack hw hslot hseat)
  | woken operation limit h hrecorded =>
    exact .woken operation limit h.callBack (hrecords ▸ hrecorded)
  | givingUp stamp hended h => exact .givingUp stamp hended (hrecords ▸ h)
  | returned hended h => exact .returned hended (hrecords ▸ h)

/-! ## A step of a waiter -/

/-- A step of the waiter on a slot moves its operation on, and no waiter on another slot sees it. -/
theorem Point.step (hw : w.Sound) (hslot : slot < w.board.bridges.length)
    (hseat : w.Seated slot channel) {step : BridgeStep} {resume : step.Answer → BridgeFlow Outcome}
    (h : w.Point slot channel account (.ask step resume)) (reply : StoreReply) :
    ∃ answer? w', w.answer slot channel reply step = (answer?, w') ∧ w.Keeps w' slot channel
      ∧ match answer? with
        | none => w'.Point slot channel account (.ask step resume)
        | some answer =>
          w'.Point slot channel (account.note w.called step answer) (resume answer) := by
  cases h with
  | opening operation limit =>
    -- from here on the tokens of earlier operations on the slot are dead
    rcases hw.bump hslot hseat with ⟨hkeeps, hcleared⟩
    exact ⟨_, _, rfl, hkeeps, .bumped operation limit hcleared⟩
  | bumped operation limit h =>
    -- what they left in the channel goes, and nothing can come from them any more
    rcases h.drain hw hslot hseat with ⟨hkeeps, hcleared, hempty⟩
    exact ⟨_, _, rfl, hkeeps, .drained operation limit hcleared hempty⟩
  | drained operation limit h hempty =>
    cases hrefusal : reply.refusal with
    | some failure =>
      refine ⟨some (.error failure), w, by simp only [answer, hrefusal], .refl hw hseat, ?_⟩
      exact .returned (.refused rfl rfl rfl rfl) rfl
    | none =>
      rcases h.allocate hw hseat hempty with ⟨hkeeps, hlive⟩
      refine ⟨some (.ok w.board.tickets.size), _, by simp only [answer, hrefusal]; rfl, hkeeps, ?_⟩
      show Point _ _ _ _ (submitAndWait _ _ _)
      rw [submitAndWait_eq]
      exact .allocated operation limit hlive
  | allocated operation limit h =>
    cases hrejection : reply.rejection with
    | some failure =>
      refine ⟨some (.error failure), w, by simp only [answer, hrejection], .refl hw hseat, ?_⟩
      exact .givingUp _ (.rejected rfl rfl rfl rfl rfl) rfl
    | none =>
      refine ⟨some (.ok ()), w, by simp only [answer, hrejection], .refl hw hseat, ?_⟩
      exact .submitted operation limit h
  | @submitted operation limit pending h =>
    -- a unit in the channel is there if and only if the own callback has run
    by_cases hcalled : pending.ticket ∈ w.called
    · rcases h.poll_woken hw hslot hseat hcalled with ⟨bridge, hpoll, hkeeps, hkept⟩
      refine ⟨some .woken, _, ?_, hkeeps, ?_⟩
      · simp only [answer, Switchboard.stepAt]
        rw [← Wires.bridge, hpoll]
        rfl
      · have hheard : (some pending.ticket).any (· ∈ w.called) = true := decide_eq_true hcalled
        simp only [Account.note, hheard]
        exact .woken operation limit hkept (hw.rung _ (List.mem_append_right _ hcalled))
    · rcases h.poll_idle hw hslot hseat hcalled with ⟨hpoll, hkeeps, hlive⟩
      refine ⟨if reply.expired then some .timedOut else none, _, ?_, hkeeps, ?_⟩
      · simp only [answer, Switchboard.stepAt]
        rw [← Wires.bridge, hpoll]
        rfl
      · -- the wait goes on, or the operation is given up
        cases reply.expired with
        | false => exact .submitted operation limit hlive
        | true =>
          have hheard : (some pending.ticket).any (· ∈ w.called) = false :=
            decide_eq_false hcalled
          simp only [if_true, Account.note, hheard]
          exact .givingUp _ (.waited rfl rfl rfl rfl rfl) rfl
  | @woken operation limit pending h hrecorded =>
    -- the outcome was recorded before the callback ran, and nobody else takes it
    rcases Option.isSome_iff_exists.mp hrecorded with ⟨outcome, houtcome⟩
    rcases h.take hw hseat with ⟨hkeeps, htaken⟩
    refine ⟨some (some outcome), _, ?_, hkeeps, .returned (.waited rfl rfl rfl rfl rfl) houtcome⟩
    show (some (w.board.take pending.ticket).1, _) = _
    rw [htaken, houtcome]
    rfl
  | givingUp stamp hended h =>
    refine ⟨_, _, rfl, ?_, .returned hended h⟩
    refine Keeps.atSlot hw hslot (Bridge.generation_le_abandon _ _) ?_ ?_
    · rw [Bridge.wake_abandon, hseat.wake]
    · rw [Bridge.queued?, Bridge.queues_abandon]
      exact hseat.queue

end Wires

/-! ## Requests in a crowd -/

/-- Where a request stands: it waits for a slot, has one, sits on it with a channel of its own,
carries an operation out there, has closed its session, or is gone. -/
inductive Standing where
  | queued (waiter : Nat)
  | leased (slot : Nat)
  | idle (slot channel : Nat)
  | calling (slot channel : Nat) (account : Account) (rest : BridgeFlow Outcome)
  | closed (slot : Nat)
  | gone

namespace Standing

/-- The slot that a request has. -/
def slot? : Standing → Option Nat
  | .queued _ | .gone => none
  | .leased slot | .idle slot _ | .calling slot _ _ _ | .closed slot => some slot

/-- The ticket of the operation that a request carries out. -/
def ticket? : Standing → Option Nat
  | .calling _ _ account _ => account.ticket
  | .queued _ | .leased _ | .idle _ _ | .closed _ | .gone => none

/-- The operation that a request carries out, with the time it has for it. -/
def asked? : Standing → Option (Operation × Span)
  | .calling _ _ account _ => some (account.operation, account.limit)
  | .queued _ | .leased _ | .idle _ _ | .closed _ | .gone => none

/-- A request that sits on a slot reads its channel, and its operation stands at some point. -/
def Fits (w : Wires) : Standing → Prop
  | .idle slot channel => w.Seated slot channel
  | .calling slot channel account rest =>
    w.Seated slot channel ∧ w.Point slot channel account rest
  | .queued _ | .leased _ | .closed _ | .gone => True

variable {w w' : Wires} {standing : Standing}

theorem Fits.alike (h : standing.Fits w)
    (ha : ∀ slot, standing.slot? = some slot → w.Alike w' slot) : standing.Fits w' := by
  cases standing with
  | idle slot channel => exact Wires.Seated.alike h (ha slot rfl)
  | calling slot channel account rest => exact ⟨h.1.alike (ha slot rfl), h.2.alike (ha slot rfl)⟩
  | queued | leased | closed | gone => trivial

theorem Fits.record {ticket : Nat} {outcome : Outcome} (hw : w.Sound) (h : standing.Fits w) :
    standing.Fits (w.record ticket outcome) := by
  cases standing with
  | idle slot channel => exact Wires.Seated.record h
  | calling slot channel account rest => exact ⟨h.1.record, h.2.record hw⟩
  | queued | leased | closed | gone => trivial

theorem Fits.callBack {ticket : Nat} (hw : w.Sound)
    (hslot : ∀ slot, standing.slot? = some slot → slot < w.board.bridges.length)
    (h : standing.Fits w) : standing.Fits (w.callBack ticket) := by
  cases standing with
  | idle slot channel => exact Wires.Seated.callBack hw (hslot slot rfl) h
  | calling slot channel account rest =>
    exact ⟨h.1.callBack hw (hslot slot rfl), h.2.callBack hw (hslot slot rfl) h.1⟩
  | queued | leased | closed | gone => trivial

end Standing

/-- An operation that has ended. -/
structure Report where
  slot : Nat
  account : Account
  result : Outcome

/-- Requests with the slots and the switchboard they share, the operations that they were to carry
out, and those that have ended. -/
structure Crowd where
  slots : SlotPool
  wires : Wires
  requests : List Standing := []
  calls : List (Operation × Span) := []
  finished : List Report := []

/-- What happens in a crowd. A request is named by its place, a completion by its ticket. -/
inductive CrowdEvent where
  | arrive
  | poll (place : Nat)
  | openSession (place : Nat)
  | call (place : Nat) (operation : Operation) (limit : Span)
  | advance (place : Nat) (reply : StoreReply)
  | drop (place : Nat)
  | release (place : Nat)
  | record (ticket : Nat) (outcome : Outcome)
  | callBack (ticket : Nat)

namespace Crowd

/-- An empty crowd. -/
def fresh (slots : SlotPool) (n : Nat) : Crowd :=
  { slots := slots, wires := { board := Switchboard.fresh n } }

/-- A request has moved on. -/
def put (c : Crowd) (place : Nat) (standing : Standing) : Crowd :=
  { c with requests := c.requests.set place standing }

/-- A request arrives: it has a slot at once, or joins the waiters. -/
def arrive (c : Crowd) : Crowd :=
  match c.slots.enqueue with
  | (.slot slot, _, slots) => { c with slots := slots, requests := c.requests ++ [.leased slot] }
  | (.blocked, some waiter, slots) =>
    { c with slots := slots, requests := c.requests ++ [.queued waiter] }
  | (_, _, slots) => { c with slots := slots }

/-- A request that waits for a slot is polled. -/
def poll (c : Crowd) (place waiter : Nat) : Crowd :=
  match c.slots.poll waiter with
  | (some (.slot slot), slots) => { c with slots := slots }.put place (.leased slot)
  | (some (.failed _), slots) => { c with slots := slots }.put place .gone
  | (_, slots) => { c with slots := slots }

/-- A request that has a slot opens a session on its bridge. -/
def openSession (c : Crowd) (place slot : Nat) : Crowd :=
  let (channel, board) := c.wires.board.stepAt slot Bridge.openSession
  { c with wires := { c.wires with board := board } }.put place (.idle slot channel)

/-- A request begins an operation. -/
def call (c : Crowd) (place slot channel : Nat) (operation : Operation) (limit : Span) : Crowd :=
  { c with calls := c.calls ++ [(operation, limit)] }.put place
    (.calling slot channel { operation := operation, limit := limit } (BridgeFlow.issue slot limit))

/-- A request makes one step of its operation, or ends it. -/
def advance (c : Crowd) (place slot channel : Nat) (account : Account) (reply : StoreReply) :
    BridgeFlow Outcome → Crowd
  | .done result =>
    let report : Report := ⟨slot, account, result⟩
    { c with finished := c.finished ++ [report] }.put place (.idle slot channel)
  | .ask step resume =>
    match c.wires.answer slot channel reply step with
    | (none, wires) =>
      { c with wires := wires }.put place (.calling slot channel account (.ask step resume))
    | (some answer, wires) => { c with wires := wires }.put place
        (.calling slot channel (account.note c.wires.called step answer) (resume answer))

/-- A request is dropped: it leaves the waiters, or its session is closed before its slot is given
back. -/
def drop (c : Crowd) (place : Nat) : Standing → Crowd
  | .queued waiter => { c with slots := (c.slots.cancel waiter).2 }.put place .gone
  | .leased slot => c.put place (.closed slot)
  | .idle slot channel | .calling slot channel _ _ =>
    { c with wires := c.wires.atSlot slot fun bridge => bridge.closeSession channel }.put place
      (.closed slot)
  | .closed _ | .gone => c

/-- Lets one event happen. -/
def step (c : Crowd) : CrowdEvent → Crowd
  | .arrive => c.arrive
  | .poll place =>
    match c.requests[place]? with
    | some (.queued waiter) => c.poll place waiter
    | _ => c
  | .openSession place =>
    match c.requests[place]? with
    | some (.leased slot) => c.openSession place slot
    | _ => c
  | .call place operation limit =>
    match c.requests[place]? with
    | some (.idle slot channel) => c.call place slot channel operation limit
    | _ => c
  | .advance place reply =>
    match c.requests[place]? with
    | some (.calling slot channel account rest) => c.advance place slot channel account reply rest
    | _ => c
  | .drop place =>
    match c.requests[place]? with
    | some standing => c.drop place standing
    | none => c
  | .release place =>
    match c.requests[place]? with
    | some (.closed slot) => { c with slots := c.slots.release slot }.put place .gone
    | _ => c
  | .record ticket outcome => { c with wires := c.wires.record ticket outcome }
  | .callBack ticket => { c with wires := c.wires.callBack ticket }

/-- Lets events happen one after the other. -/
def run (c : Crowd) (events : List CrowdEvent) : Crowd := events.foldl step c

/-! ## The invariant -/

/-- What holds after every event. -/
structure Sound (c : Crowd) (n : Nat) : Prop where
  inStep : c.slots.InStep n (c.requests.filterMap Standing.slot?)
  length : c.wires.board.bridges.length = n
  wires : c.wires.Sound
  standings : ∀ standing ∈ c.requests, standing.Fits c.wires
  reports : ∀ report ∈ c.finished, report.account.Ended
    ∧ report.account.due report.slot c.wires.records = some report.result

variable {c : Crowd} {n place slot channel : Nat} {standing standing' : Standing}

theorem fresh_sound {slots : SlotPool} (h : SlotPool.create n = .ok slots) :
    (fresh slots n).Sound n where
  inStep := (SlotPool.create_inStep h).2.2.2
  length := by simp [fresh, Switchboard.fresh]
  wires := Wires.fresh_sound n
  standings := List.forall_mem_nil _
  reports := List.forall_mem_nil _

theorem Sound.lt_length (h : c.Sound n) (hmem : standing ∈ c.requests)
    (hslot : standing.slot? = some slot) : slot < c.wires.board.bridges.length := by
  have hleased : slot ∈ c.requests.filterMap Standing.slot? :=
    List.mem_filterMap.mpr ⟨standing, hmem, hslot⟩
  rw [h.length, ← List.mem_range]
  exact h.inStep.slots.mem_iff.mp (List.mem_append_right _ hleased)

/-- A request apart from the others. -/
theorem Sound.apart (h : c.Sound n) (hplace : c.requests[place]? = some standing) :
    c.slots.InStep n ((standing :: c.requests.eraseIdx place).filterMap Standing.slot?) := by
  rcases List.getElem?_eq_some_iff.mp hplace with ⟨hlt, rfl⟩
  exact h.inStep.perm ((List.getElem_cons_eraseIdx_perm hlt).symm.filterMap _)

/-- No two requests have the same slot. -/
theorem Sound.exclusive (h : c.Sound n) (hplace : c.requests[place]? = some standing)
    (hslot : standing.slot? = some slot) {other : Standing}
    (ho : other ∈ c.requests.eraseIdx place) : other.slot? ≠ some slot := by
  intro hsame
  have hslots := (h.apart hplace).slots
  rw [List.filterMap_cons_some hslot] at hslots
  have hnodup := (List.nodup_append.mp (hslots.nodup_iff.mpr List.nodup_range)).2.1
  exact (List.nodup_cons.mp hnodup).1 (List.mem_filterMap.mpr ⟨other, ho, hsame⟩)

/-- One request moves on, and the others see nothing of it. -/
theorem Sound.moved (h : c.Sound n) (hplace : c.requests[place]? = some standing)
    {slots : SlotPool} {wires : Wires}
    (hslots : slots.InStep n
      ((standing' :: c.requests.eraseIdx place).filterMap Standing.slot?))
    (hlength : wires.board.bridges.length = c.wires.board.bridges.length) (hwires : wires.Sound)
    (hstanding : standing'.Fits wires) (hrecords : wires.records = c.wires.records)
    (hothers : ∀ slot, standing.slot? ≠ some slot → c.wires.Alike wires slot) :
    ({ c with slots := slots, wires := wires }.put place standing').Sound n := by
  have hlt : place < c.requests.length := (List.getElem?_eq_some_iff.mp hplace).1
  have hperm := List.set_perm_cons_eraseIdx hlt standing'
  refine ⟨hslots.perm (hperm.symm.filterMap _), hlength.trans h.length, hwires, ?_, ?_⟩
  · intro other ho
    rcases List.mem_cons.mp (hperm.mem_iff.mp ho) with rfl | ho
    · exact hstanding
    · -- another request is on another slot, where nothing has changed
      refine (h.standings other (List.mem_of_mem_eraseIdx ho)).alike fun slot hslot => ?_
      exact hothers slot fun hsame => h.exclusive hplace hsame ho hslot
  · exact hrecords ▸ h.reports

/-- A request moves on with the slot it has. -/
theorem Sound.stayed (h : c.Sound n) (hplace : c.requests[place]? = some standing) {wires : Wires}
    (hslot : standing'.slot? = standing.slot?)
    (hlength : wires.board.bridges.length = c.wires.board.bridges.length) (hwires : wires.Sound)
    (hstanding : standing'.Fits wires) (hrecords : wires.records = c.wires.records)
    (hothers : ∀ slot, standing.slot? ≠ some slot → c.wires.Alike wires slot) :
    ({ c with wires := wires }.put place standing').Sound n := by
  refine h.moved hplace ?_ hlength hwires hstanding hrecords hothers
  have hsame : (standing' :: c.requests.eraseIdx place).filterMap Standing.slot? =
      (standing :: c.requests.eraseIdx place).filterMap Standing.slot? := by
    rw [List.filterMap_cons, List.filterMap_cons, hslot]
  exact hsame ▸ h.apart hplace

/-! ## One lemma for each event -/

theorem Sound.arrive (h : c.Sound n) : c.arrive.Sound n := by
  have happend : ∀ standing : Standing,
      (c.requests ++ [standing]).Perm (standing :: c.requests) := fun standing =>
    List.perm_append_singleton standing c.requests
  have hfits : ∀ {standing : Standing}, standing.Fits c.wires →
      ∀ other ∈ c.requests ++ [standing], other.Fits c.wires := by
    intro standing hstanding other ho
    rcases List.mem_append.mp ho with ho | ho
    · exact h.standings other ho
    · exact List.mem_singleton.mp ho ▸ hstanding
  unfold Crowd.arrive
  rcases h.inStep.enqueue with ⟨henqueue, hslots⟩ | ⟨index, rest, -, henqueue, hslots⟩
  · rw [henqueue]
    refine ⟨hslots.perm ?_, h.length, h.wires, hfits trivial, h.reports⟩
    exact ((happend (.queued _)).filterMap Standing.slot?).symm
  · rw [henqueue]
    refine ⟨hslots.perm ?_, h.length, h.wires, hfits trivial, h.reports⟩
    exact ((happend (.leased index)).filterMap Standing.slot?).symm

theorem Sound.poll (h : c.Sound n) {waiter : Nat}
    (hplace : c.requests[place]? = some (.queued waiter)) : (c.poll place waiter).Sound n := by
  unfold Crowd.poll
  -- nothing moves unless the waiter was granted; then the slots are counted without its request
  rcases h.inStep.poll waiter with ⟨-, ⟨-, hpoll⟩ | ⟨-, hpoll⟩⟩ | ⟨index, rest, -, -, hpoll, -⟩
  · rw [hpoll]
    exact h
  · rw [hpoll]
    exact h
  · rcases (h.apart hplace).poll waiter with
      ⟨-, ⟨-, hidle⟩ | ⟨-, hidle⟩⟩ | ⟨index', rest', -, -, htaken, hslots⟩
    · rw [hidle] at hpoll
      cases hpoll
    · rw [hidle] at hpoll
      cases hpoll
    · rw [htaken]
      exact h.moved hplace hslots rfl h.wires trivial rfl fun slot _ => .refl _ slot

theorem Sound.openSession (h : c.Sound n) (hplace : c.requests[place]? = some (.leased slot)) :
    (c.openSession place slot).Sound n := by
  have hlt := h.lt_length (List.mem_of_getElem? hplace) rfl
  unfold Crowd.openSession
  have hkeeps := h.wires.openSession hlt
  refine h.stayed hplace rfl hkeeps.length hkeeps.sound hkeeps.seated rfl fun other ho => ?_
  exact hkeeps.others other fun heq => ho (heq ▸ rfl)

theorem Sound.call (h : c.Sound n) (hplace : c.requests[place]? = some (.idle slot channel))
    (operation : Operation) (limit : Span) :
    (c.call place slot channel operation limit).Sound n := by
  have hseat := h.standings _ (List.mem_of_getElem? hplace)
  have hmoved : (c.put place (.calling slot channel { operation := operation, limit := limit }
      (BridgeFlow.issue slot limit))).Sound n :=
    h.stayed hplace rfl rfl h.wires ⟨hseat, .issue operation limit⟩ rfl fun slot _ => .refl _ slot
  exact ⟨hmoved.inStep, hmoved.length, hmoved.wires, hmoved.standings, hmoved.reports⟩

theorem Sound.advance (h : c.Sound n) {account : Account} {rest : BridgeFlow Outcome}
    (hplace : c.requests[place]? = some (.calling slot channel account rest)) (reply : StoreReply) :
    (c.advance place slot channel account reply rest).Sound n := by
  rcases h.standings _ (List.mem_of_getElem? hplace) with ⟨hseat, hpoint⟩
  have hlt := h.lt_length (List.mem_of_getElem? hplace) rfl
  cases rest with
  | emit item rest => exact item.elim
  | done result =>
    cases hpoint with
    | returned hended hdue =>
      -- the account is settled here, and later outcomes do not change what is due
      have hmoved : (c.put place (.idle slot channel)).Sound n :=
        h.stayed hplace rfl rfl h.wires hseat rfl fun slot _ => .refl _ slot
      refine ⟨hmoved.inStep, hmoved.length, hmoved.wires, hmoved.standings, fun report hr => ?_⟩
      rcases List.mem_append.mp hr with hr | hr
      · exact h.reports report hr
      · rw [List.mem_singleton.mp hr]
        exact ⟨hended, hdue⟩
  | ask step resume =>
    rcases hpoint.step h.wires hlt hseat reply with ⟨answer?, w', hanswer, hkeeps, hnext⟩
    have hothers : ∀ other,
        (Standing.calling slot channel account (.ask step resume)).slot? ≠ some other →
          c.wires.Alike w' other := fun other ho => hkeeps.others other fun heq => ho (heq ▸ rfl)
    simp only [Crowd.advance, hanswer]
    cases answer? with
    | none =>
      exact h.stayed hplace rfl hkeeps.length hkeeps.sound ⟨hkeeps.seated, hnext⟩ hkeeps.records
        hothers
    | some answer =>
      exact h.stayed hplace rfl hkeeps.length hkeeps.sound ⟨hkeeps.seated, hnext⟩ hkeeps.records
        hothers

theorem Sound.drop (h : c.Sound n) (hplace : c.requests[place]? = some standing) :
    (c.drop place standing).Sound n := by
  -- closing the channel of a session is seen on its own slot only
  have hclose : ∀ {slot channel : Nat}, standing.slot? = some slot →
      ({ c with wires := c.wires.atSlot slot fun bridge => bridge.closeSession channel }.put place
        (.closed slot)).Sound n := by
    intro slot channel hslot
    refine h.stayed hplace hslot.symm (Switchboard.length_atSlot ..)
      (h.wires.atSlot (Nat.le_refl _)) trivial rfl fun other ho => Wires.Alike.atSlot ?_ _
    rintro rfl
    exact ho hslot
  cases standing with
  | queued waiter =>
    exact h.moved hplace ((h.apart hplace).cancel waiter) rfl h.wires trivial rfl
      fun slot _ => .refl _ slot
  | leased slot => exact h.stayed hplace rfl rfl h.wires trivial rfl fun slot _ => .refl _ slot
  | idle slot channel => exact hclose rfl
  | calling slot channel account rest => exact hclose rfl
  | closed slot => exact h
  | gone => exact h

theorem Sound.release (h : c.Sound n) (hplace : c.requests[place]? = some (.closed slot)) :
    ({ c with slots := c.slots.release slot }.put place .gone).Sound n :=
  h.moved hplace (h.apart hplace).release rfl h.wires trivial rfl fun slot _ => .refl _ slot

theorem Sound.record (h : c.Sound n) (ticket : Nat) (outcome : Outcome) :
    ({ c with wires := c.wires.record ticket outcome } : Crowd).Sound n where
  inStep := h.inStep
  length := Wires.length_record.trans h.length
  wires := h.wires.record
  standings := fun standing hs => (h.standings standing hs).record h.wires
  reports := fun report hr => (h.reports report hr).imp id Wires.due_record

theorem Sound.callBack (h : c.Sound n) (ticket : Nat) :
    ({ c with wires := c.wires.callBack ticket } : Crowd).Sound n where
  inStep := h.inStep
  length := Wires.length_callBack.trans h.length
  wires := h.wires.callBack
  standings := fun standing hs =>
    (h.standings standing hs).callBack h.wires fun _ hslot => h.lt_length hs hslot
  reports := fun report hr =>
    (h.reports report hr).imp id (congrArg _ Wires.records_callBack).trans

theorem Sound.step (h : c.Sound n) (event : CrowdEvent) : (c.step event).Sound n := by
  cases event with
  | arrive => exact h.arrive
  | poll place =>
    simp only [Crowd.step]
    split
    · next hplace => exact h.poll hplace
    · exact h
  | openSession place =>
    simp only [Crowd.step]
    split
    · next hplace => exact h.openSession hplace
    · exact h
  | call place operation limit =>
    simp only [Crowd.step]
    split
    · next hplace => exact h.call hplace operation limit
    · exact h
  | advance place reply =>
    simp only [Crowd.step]
    split
    · next hplace => exact h.advance hplace reply
    · exact h
  | drop place =>
    simp only [Crowd.step]
    split
    · next hplace => exact h.drop hplace
    · exact h
  | release place =>
    simp only [Crowd.step]
    split
    · next hplace => exact h.release hplace
    · exact h
  | record ticket outcome => exact h.record ticket outcome
  | callBack ticket => exact h.callBack ticket

theorem Sound.run (h : c.Sound n) (events : List CrowdEvent) : (c.run events).Sound n := by
  induction events generalizing c with
  | nil => exact h
  | cons event events ih => exact ih (h.step event)

/-! ## Whose completion is whose -/

/-- The tickets of the operations that have ended or are under way. -/
def tickets (c : Crowd) : List Nat :=
  c.finished.filterMap (·.account.ticket) ++ c.requests.filterMap Standing.ticket?

/-- Every operation has a completion of its own. -/
structure Owned (c : Crowd) : Prop where
  nodup : c.tickets.Nodup
  lt_size : ∀ ticket ∈ c.tickets, ticket < c.wires.board.tickets.size

theorem fresh_owned (slots : SlotPool) (n : Nat) : (fresh slots n).Owned :=
  ⟨List.nodup_nil, List.forall_mem_nil _⟩

theorem Owned.grow (h : c.Owned) {wires : Wires}
    (hsize : wires.board.tickets.size = c.wires.board.tickets.size) :
    ({ c with wires := wires } : Crowd).Owned :=
  ⟨h.nodup, fun ticket ht => Nat.lt_of_lt_of_eq (h.lt_size ticket ht) hsize.symm⟩

/-- A request moves on with the completion it has, with none, or with a new one. -/
theorem Owned.moved (h : c.Owned) (hplace : c.requests[place]? = some standing) {slots : SlotPool}
    {wires : Wires} (hsize : c.wires.board.tickets.size ≤ wires.board.tickets.size)
    (hticket : standing'.ticket? = standing.ticket? ∨ standing'.ticket? = none ∨
      standing'.ticket? = some c.wires.board.tickets.size
        ∧ c.wires.board.tickets.size < wires.board.tickets.size) :
    ({ c with slots := slots, wires := wires }.put place standing').Owned := by
  rcases List.getElem?_eq_some_iff.mp hplace with ⟨hlt, hstanding⟩
  let ended := c.finished.filterMap (·.account.ticket)
  let others := c.requests.eraseIdx place
  have hold : c.tickets.Perm (ended ++ (standing :: others).filterMap Standing.ticket?) :=
    hstanding ▸ ((List.getElem_cons_eraseIdx_perm hlt).symm.filterMap _).append_left ended
  have hnew : ({ c with slots := slots, wires := wires }.put place standing').tickets.Perm
      (ended ++ (standing' :: others).filterMap Standing.ticket?) :=
    ((List.set_perm_cons_eraseIdx hlt standing').filterMap _).append_left ended
  -- without the ticket of the request itself
  have hsub : (ended ++ others.filterMap Standing.ticket?).Sublist
      (ended ++ (standing :: others).filterMap Standing.ticket?) :=
    ((List.sublist_cons_self standing others).filterMap _).append_left ended
  have hnodup := hold.nodup_iff.mp h.nodup
  have hbound : ∀ ticket ∈ ended ++ (standing :: others).filterMap Standing.ticket?,
      ticket < c.wires.board.tickets.size := fun ticket ht =>
    h.lt_size ticket (hold.mem_iff.mpr ht)
  -- the order of the requests does not matter, so the one that moved may stand in front
  suffices hall : (ended ++ (standing' :: others).filterMap Standing.ticket?).Nodup
      ∧ ∀ ticket ∈ ended ++ (standing' :: others).filterMap Standing.ticket?,
        ticket < wires.board.tickets.size from
    ⟨hnew.nodup_iff.mpr hall.1, fun ticket ht => hall.2 ticket (hnew.mem_iff.mp ht)⟩
  rcases hticket with hsame | hnone | ⟨hfresh, hgrown⟩
  · rw [List.filterMap_cons, hsame, ← List.filterMap_cons]
    exact ⟨hnodup, fun ticket ht => Nat.lt_of_lt_of_le (hbound ticket ht) hsize⟩
  · rw [List.filterMap_cons_none hnone]
    exact ⟨hsub.nodup hnodup,
      fun ticket ht => Nat.lt_of_lt_of_le (hbound ticket (hsub.mem ht)) hsize⟩
  · rw [List.filterMap_cons_some hfresh]
    have hunused : c.wires.board.tickets.size ∉ ended ++ others.filterMap Standing.ticket? :=
      fun hmem => Nat.lt_irrefl _ (hbound _ (hsub.mem hmem))
    refine ⟨List.perm_middle.nodup_iff.mpr (List.nodup_cons.mpr ⟨hunused, hsub.nodup hnodup⟩), ?_⟩
    intro ticket ht
    rcases List.mem_cons.mp (List.perm_middle.mem_iff.mp ht) with rfl | ht
    · exact hgrown
    · exact Nat.lt_of_lt_of_le (hbound ticket (hsub.mem ht)) hsize

/-- Only an allocation gives an operation a ticket, and it gives it a new one. -/
theorem ticket_answer {w w' : Wires} {slot channel : Nat} {reply : StoreReply} {step : BridgeStep}
    {answer? : Option step.Answer} (account : Account) (called : List Nat)
    (h : w.answer slot channel reply step = (answer?, w')) :
    w.board.tickets.size ≤ w'.board.tickets.size ∧ ∀ answer, answer? = some answer →
      (account.note called step answer).ticket = account.ticket ∨
        (account.note called step answer).ticket = some w.board.tickets.size
          ∧ w.board.tickets.size < w'.board.tickets.size := by
  cases step with
  | allocate stamp =>
    simp only [Wires.answer] at h
    split at h
    · cases h
      exact ⟨Nat.le_refl _, by rintro _ ⟨⟩; exact .inl rfl⟩
    · cases h
      have hgrown : w.board.tickets.size < (w.board.allocate slot stamp).2.tickets.size := by
        rw [Switchboard.size_allocate]
        exact Nat.lt_succ_self _
      exact ⟨Nat.le_of_lt hgrown, by rintro _ ⟨⟩; exact .inr ⟨rfl, hgrown⟩⟩
  | submit ticket =>
    simp only [Wires.answer] at h
    split at h
    all_goals
      cases h
      exact ⟨Nat.le_refl _, by rintro _ ⟨⟩; exact .inl rfl⟩
  | take ticket =>
    cases h
    exact ⟨Nat.le_of_eq Switchboard.size_take.symm, fun _ _ => .inl rfl⟩
  | bump | drain | abandon =>
    cases h
    exact ⟨Nat.le_refl _, fun _ _ => .inl rfl⟩
  | wait ticket limit =>
    have hboard := congrArg (fun pair => pair.2.board.tickets) h
    exact ⟨Nat.le_of_eq (congrArg Array.size hboard), fun _ _ => .inl rfl⟩

/-- An operation that ends takes its ticket along. -/
theorem Owned.ended (h : c.Owned) {account : Account} {result : Outcome}
    {rest : BridgeFlow Outcome}
    (hplace : c.requests[place]? = some (.calling slot channel account rest)) :
    ({ c with finished := c.finished ++ [Report.mk slot account result] }.put place
      (.idle slot channel)).Owned := by
  rcases List.getElem?_eq_some_iff.mp hplace with ⟨hlt, hstanding⟩
  let others := (c.requests.eraseIdx place).filterMap Standing.ticket?
  have hold : (c.requests.filterMap Standing.ticket?).Perm (account.ticket.toList ++ others) := by
    have hperm := (List.getElem_cons_eraseIdx_perm hlt).symm.filterMap Standing.ticket?
    rw [hstanding, List.filterMap_cons] at hperm
    cases hticket : account.ticket <;> simpa [Standing.ticket?, hticket] using hperm
  have hnew :
      ((c.requests.set place (.idle slot channel)).filterMap Standing.ticket?).Perm others :=
    (List.set_perm_cons_eraseIdx hlt (.idle slot channel)).filterMap Standing.ticket?
  have hmove : ({ c with finished := c.finished ++ [Report.mk slot account result] }.put place
      (.idle slot channel)).tickets.Perm c.tickets := by
    have hended : (c.finished ++ [Report.mk slot account result]).filterMap (·.account.ticket) =
        c.finished.filterMap (·.account.ticket) ++ account.ticket.toList := by
      rw [List.filterMap_append]
      cases hticket : account.ticket <;> simp [hticket]
    -- the ticket goes from the requests over to the operations that have ended
    show (List.filterMap _ (c.finished ++ _) ++ _).Perm (_ ++ _)
    rw [hended, List.append_assoc]
    exact (((hnew.append_left _).trans hold.symm)).append_left _
  exact ⟨hmove.nodup_iff.mpr h.nodup, fun ticket ht => h.lt_size ticket (hmove.mem_iff.mp ht)⟩

theorem Owned.step (h : c.Owned) (event : CrowdEvent) : (c.step event).Owned := by
  cases event with
  | arrive =>
    have hcame : ∀ (slots : SlotPool) (standing : Standing), standing.ticket? = none →
        ({ c with slots := slots, requests := c.requests ++ [standing] } : Crowd).Owned := by
      intro slots standing hnone
      have hsame :
          ({ c with slots := slots, requests := c.requests ++ [standing] } : Crowd).tickets =
            c.tickets := by
        simp [tickets, List.filterMap_cons_none hnone]
      exact ⟨hsame ▸ h.nodup, fun ticket ht => h.lt_size ticket (hsame ▸ ht)⟩
    simp only [Crowd.step, arrive]
    split
    · exact hcame _ _ rfl
    · exact hcame _ _ rfl
    · exact ⟨h.nodup, h.lt_size⟩
  | poll place =>
    simp only [Crowd.step]
    split
    · next hplace =>
      unfold poll
      split
      · exact h.moved hplace (Nat.le_refl _) (.inl rfl)
      · exact h.moved hplace (Nat.le_refl _) (.inl rfl)
      · exact ⟨h.nodup, h.lt_size⟩
    · exact h
  | openSession place =>
    simp only [Crowd.step]
    split
    · next hplace => exact h.moved hplace (Nat.le_refl _) (.inl rfl)
    · exact h
  | call place operation limit =>
    simp only [Crowd.step]
    split
    · next slot channel hplace =>
      have hmoved : (c.put place (.calling slot channel { operation := operation, limit := limit }
          (BridgeFlow.issue slot limit))).Owned := h.moved hplace (Nat.le_refl _) (.inl rfl)
      exact ⟨hmoved.nodup, hmoved.lt_size⟩
    · exact h
  | advance place reply =>
    simp only [Crowd.step]
    split
    · next slot channel account rest hplace =>
      cases rest with
      | emit item rest => exact item.elim
      | done result => exact h.ended hplace
      | ask step resume =>
        rcases hanswer : c.wires.answer slot channel reply step with ⟨answer?, wires⟩
        rcases ticket_answer account c.wires.called hanswer with ⟨hsize, hticket⟩
        simp only [advance, hanswer]
        cases answer? with
        | none => exact h.moved hplace hsize (.inl rfl)
        | some answer => exact h.moved hplace hsize ((hticket answer rfl).imp id .inr)
    · exact h
  | drop place =>
    simp only [Crowd.step]
    split
    · next standing hplace =>
      cases standing with
      | queued | leased | idle | calling => exact h.moved hplace (Nat.le_refl _) (.inr (.inl rfl))
      | closed | gone => exact h
    · exact h
  | release place =>
    simp only [Crowd.step]
    split
    · next hplace => exact h.moved hplace (Nat.le_refl _) (.inl rfl)
    · exact h
  | record ticket outcome => exact h.grow Wires.size_record
  | callBack ticket => exact h.grow Wires.size_callBack

theorem Owned.run (h : c.Owned) (events : List CrowdEvent) : (c.run events).Owned := by
  induction events generalizing c with
  | nil => exact h
  | cons event events ih => exact ih (h.step event)

/-! ## Which operations they are -/

/-- The operations that have ended or are under way are such as requests were to carry out. -/
structure Asked (c : Crowd) : Prop where
  ended : ∀ report ∈ c.finished, (report.account.operation, report.account.limit) ∈ c.calls
  underWay : ∀ standing ∈ c.requests, ∀ asked, standing.asked? = some asked → asked ∈ c.calls

theorem fresh_asked (slots : SlotPool) (n : Nat) : (fresh slots n).Asked :=
  ⟨List.forall_mem_nil _, List.forall_mem_nil _⟩

theorem Asked.moved (h : c.Asked) {slots : SlotPool} {wires : Wires}
    (hstanding : ∀ asked, standing'.asked? = some asked → asked ∈ c.calls) :
    ({ c with slots := slots, wires := wires }.put place standing').Asked := by
  refine ⟨h.ended, fun other ho => ?_⟩
  rcases List.mem_or_eq_of_mem_set ho with ho | rfl
  · exact h.underWay other ho
  · exact hstanding

theorem Asked.call (h : c.Asked) (operation : Operation) (limit : Span) :
    (c.call place slot channel operation limit).Asked := by
  have hgrown : Asked { c with calls := c.calls ++ [(operation, limit)] } :=
    ⟨fun report hr => List.mem_append_left _ (h.ended report hr),
      fun other ho asked hasked => List.mem_append_left _ (h.underWay other ho asked hasked)⟩
  refine hgrown.moved fun asked hasked => ?_
  cases hasked
  exact List.mem_append_right _ (List.mem_singleton_self _)

theorem Asked.advance (h : c.Asked) {account : Account} {rest : BridgeFlow Outcome}
    (hplace : c.requests[place]? = some (.calling slot channel account rest)) (reply : StoreReply) :
    (c.advance place slot channel account reply rest).Asked := by
  have hasked : (account.operation, account.limit) ∈ c.calls :=
    h.underWay _ (List.mem_of_getElem? hplace) _ rfl
  cases rest with
  | emit item rest => exact item.elim
  | done result =>
    have hmoved : (c.put place (.idle slot channel)).Asked := h.moved nofun
    refine ⟨fun report hr => ?_, hmoved.underWay⟩
    rcases List.mem_append.mp hr with hr | hr
    · exact h.ended report hr
    · exact List.mem_singleton.mp hr ▸ hasked
  | ask step resume =>
    rcases hanswer : c.wires.answer slot channel reply step with ⟨answer?, wires⟩
    simp only [Crowd.advance, hanswer]
    cases answer? with
    | none =>
      refine h.moved fun asked heq => ?_
      cases heq
      exact hasked
    | some answer =>
      refine h.moved fun asked heq => ?_
      cases heq
      obtain ⟨hoperation, hlimit⟩ := account.note_asked c.wires.called step answer
      rw [hoperation, hlimit]
      exact hasked

theorem Asked.step (h : c.Asked) (event : CrowdEvent) : (c.step event).Asked := by
  cases event with
  | arrive =>
    have hcame : ∀ (slots : SlotPool) (standing : Standing), standing.asked? = none →
        ({ c with slots := slots, requests := c.requests ++ [standing] } : Crowd).Asked := by
      intro slots standing hnone
      refine ⟨h.ended, fun other ho asked hasked => ?_⟩
      rcases List.mem_append.mp ho with ho | ho
      · exact h.underWay other ho asked hasked
      · rw [List.mem_singleton.mp ho, hnone] at hasked
        cases hasked
    simp only [Crowd.step, arrive]
    split
    · exact hcame _ _ rfl
    · exact hcame _ _ rfl
    · exact ⟨h.ended, h.underWay⟩
  | poll place =>
    simp only [Crowd.step]
    split
    · unfold poll
      split
      · exact h.moved nofun
      · exact h.moved nofun
      · exact ⟨h.ended, h.underWay⟩
    · exact h
  | openSession place =>
    simp only [Crowd.step]
    split
    · exact h.moved nofun
    · exact h
  | call place operation limit =>
    simp only [Crowd.step]
    split
    · exact h.call operation limit
    · exact h
  | advance place reply =>
    simp only [Crowd.step]
    split
    · next hplace => exact h.advance hplace reply
    · exact h
  | drop place =>
    simp only [Crowd.step]
    split
    · next standing _ =>
      cases standing with
      | queued | leased | idle | calling => exact h.moved nofun
      | closed | gone => exact h
    · exact h
  | release place =>
    simp only [Crowd.step]
    split
    · exact h.moved nofun
    · exact h
  | record ticket outcome => exact ⟨h.ended, h.underWay⟩
  | callBack ticket => exact ⟨h.ended, h.underWay⟩

theorem Asked.run (h : c.Asked) (events : List CrowdEvent) : (c.run events).Asked := by
  induction events generalizing c with
  | nil => exact h
  | cons event events ih => exact ih (h.step event)

/-! ## What holds in every run -/

/-- The waiter was told that its channel is closed, or that it was woken too early. -/
def Astray (slot : Nat) (failure : Failure) : Prop :=
  failure = .channelClosed slot ∨ ∃ stamp : Nat, failure = .internal
    ("slot " ++ toString slot ++ " woken before generation " ++ toString stamp ++ " completed")

/-- What can be said of the operations that have ended. -/
structure Answered (c : Crowd) : Prop where
  asked : ∀ report ∈ c.finished, (report.account.operation, report.account.limit) ∈ c.calls
  /-- A completion was allocated, the operation submitted with it, and its waiter has waited, each
  unless it failed before. -/
  ended : ∀ report ∈ c.finished, report.account.Ended
  due : ∀ report ∈ c.finished,
    report.account.due report.slot c.wires.records = some report.result
  own : (c.finished.filterMap (·.account.ticket)).Nodup
  not_astray : ∀ report ∈ c.finished, ∀ failure, Astray report.slot failure →
    report.result = .error failure → report.account.rejection = some failure ∨
      ∃ ticket, report.account.ticket = some ticket
        ∧ c.wires.records.lookup ticket = some (.error failure)

theorem Sound.answered (h : c.Sound n) (howned : c.Owned) (hasked : c.Asked) : c.Answered where
  asked := hasked.ended
  ended := fun report hr => (h.reports report hr).1
  due := fun report hr => (h.reports report hr).2
  own := (List.nodup_append.mp howned.nodup).1
  not_astray := by
    intro report hr failure hastray hresult
    have hdue := (h.reports report hr).2
    -- neither a refused allocation nor a timeout reads like a waiter gone astray
    have hforeign : ∀ message, failure ≠ .allocation report.slot message := by
      rintro message rfl
      rcases hastray with h | ⟨_, h⟩ <;> cases h
    have hlate : failure ≠ .timedOut report.account.limit := by
      rintro rfl
      rcases hastray with h | ⟨_, h⟩ <;> cases h
    unfold Account.due at hdue
    rw [hresult] at hdue
    split at hdue
    · cases hdue
      exact absurd rfl (hforeign _)
    · next hrejection =>
      cases hdue
      exact .inl hrejection
    · split at hdue
      · rcases Option.bind_eq_some_iff.mp hdue with ⟨ticket, hticket, hlookup⟩
        exact .inr ⟨ticket, hticket, hlookup⟩
      · cases hdue
        exact absurd rfl hlate

end Crowd

/-- Whatever happens in a crowd that shares the slots of a pool, in whatever order: an operation
that ends is one that a request was to carry out, and it has gone through its stages. It gives the
refusal of its allocation or the rejection of its submission if there was one, else the first
outcome that was handed in for its own completion if the callback of this completion had run when
the waiter last looked into its channel, and else its timeout. -/
theorem crowd_answered {n : Nat} (hn : 1 ≤ n) :
    ∃ slots, SlotPool.create n = .ok slots ∧
      ∀ events, ((Crowd.fresh slots n).run events).Answered := by
  have hne : n ≠ 0 := Nat.ne_of_gt hn
  refine ⟨_, if_neg hne, fun events => ?_⟩
  exact ((Crowd.fresh_sound (if_neg hne)).run events).answered
    ((Crowd.fresh_owned _ n).run events) ((Crowd.fresh_asked _ n).run events)

/-- A request is dropped while it waits, and its completion comes when the next request has opened
its session on the same slot: the operation of that request is answered by its own completion. -/
theorem crowd_answered_after_drop :
    1 ≤ 1 ∧ ∃ slots, SlotPool.create 1 = .ok slots ∧
      let crowd := (Crowd.fresh slots 1).run
        [.arrive, .openSession 0, .call 0 (.stat "a") (.ofSeconds 1), .advance 0 {}, .advance 0 {},
          .advance 0 {}, .advance 0 {}, .drop 0, .release 0, .arrive, .openSession 1,
          .record 0 (.error (.store "late")), .callBack 0, .call 1 (.remove "b") (.ofSeconds 1),
          .advance 1 {}, .advance 1 {}, .advance 1 {}, .advance 1 {}, .record 1 (.ok .done),
          .callBack 1, .advance 1 {}, .advance 1 {}, .advance 1 {}]
      crowd.Answered
        ∧ crowd.finished.map (fun report => (report.account.operation, report.result)) =
          [(.remove "b", .ok .done)] := by
  rcases crowd_answered (n := 1) (by decide) with ⟨slots, hslots, hanswered⟩
  obtain rfl : ({ concurrency := 1, free := [0], permits := 1 } : SlotPool) = slots :=
    Except.ok.inj hslots
  exact ⟨by decide, _, hslots, hanswered _, rfl⟩

end DavGateway
