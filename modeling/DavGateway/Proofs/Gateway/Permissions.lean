import DavGateway.Proofs.Gateway.Visits

/-!
# Permissions are enforced

A client that keeps a journal shows what requests ask of their stores, whatever the stores answer.
Every call in it that changes something is granted by the mount that its request leads to, and a
request with a verb that its mount disables is answered without any call at all.
-/

namespace DavGateway

/-- A question that is asked of a store. -/
inductive StoreCall where
  | openPool (ref : PoolRef)
  | createPool (ref : PoolRef)
  | perform (ref : PoolRef) (operation : Operation)
  | list (ref : PoolRef)
  | advance (ref : PoolRef) (next : Option String)
  | allocate (ref : PoolRef)
  | submit (ref : PoolRef) (operation : Operation) (ticket : Nat)
  | await (ticket : Nat) (limit : Span)
deriving DecidableEq, Repr

/-- The change that is asked of a store. -/
def StoreCall.change? : StoreCall → Option Change
  | .createPool ref => some (.create ref)
  | .perform ref operation | .submit ref operation _ => operation.change? ref
  | .openPool _ | .list _ | .advance _ _ | .allocate _ | .await _ _ => none

/-- Asks a store, and writes the question into the journal. -/
def StoreCall.noted {σ α : Type} (call : StoreCall) (f : σ → α × σ) (s : σ × List StoreCall) :
    α × (σ × List StoreCall) := ((f s.1).1, (f s.1).2, s.2 ++ [call])

/-- The client that keeps a journal of what is asked of its stores. -/
def StoreClient.journaled {σ : Type} (client : StoreClient σ) :
    StoreClient (σ × List StoreCall) where
  openPool ref := StoreCall.noted (.openPool ref) (client.openPool ref)
  createPool ref := StoreCall.noted (.createPool ref) (client.createPool ref)
  perform ref operation := StoreCall.noted (.perform ref operation) (client.perform ref operation)
  list ref := StoreCall.noted (.list ref) (client.list ref)
  advance ref next := StoreCall.noted (.advance ref next) (client.advance ref next)
  allocate ref := StoreCall.noted (.allocate ref) (client.allocate ref)
  submit ref operation ticket :=
    StoreCall.noted (.submit ref operation ticket) (client.submit ref operation ticket)
  await ticket limit := StoreCall.noted (.await ticket limit) (client.await ticket limit)

namespace Engine

variable {σ : Type}

/-- Makes visits one after the other. Each comes with what it asked of the store. -/
def journal (client : StoreClient σ) (table : MountTable) :
    List Visit → Engine σ → List (Visit × List StoreCall)
  | [], _ => []
  | v :: rest, e =>
    let visited := ((visit client.journaled table v).run { e with store := (e.store, []) }).2
    (v, visited.store.2) :: journal client table rest { visited with store := visited.store.1 }

end Engine

/-- What is granted is all that a journal needs. -/
theorem StoreClient.journaled_keeps {σ : Type} (client : StoreClient σ) (may : Change → Prop) :
    client.journaled.Keeps may fun s =>
      ∀ call ∈ s.2, ∀ change, call.change? = some change → may change := by
  have hnoted : ∀ {α : Type} {call : StoreCall} (f : σ → α × σ) {s : σ × List StoreCall},
      (∀ change, call.change? = some change → may change) →
      (∀ call ∈ s.2, ∀ change, call.change? = some change → may change) →
      ∀ other ∈ (call.noted f s).2.2, ∀ change, other.change? = some change → may change := by
    intro α call f s hcall hs other hother
    rcases List.mem_append.mp hother with hother | hother
    · exact hs other hother
    · rw [List.mem_singleton.mp hother]
      exact hcall
  constructor
  case createPool =>
    intro ref s hmay hs
    exact hnoted _ (by rintro _ ⟨⟩; exact hmay) hs
  case perform => exact fun hmakes hs => hnoted _ hmakes hs
  case submit => exact fun hmakes hs => hnoted _ hmakes hs
  all_goals exact fun hs => hnoted _ nofun hs

/-- Changes are granted to no other requests than these. -/
theorem Http.Request.IsGranted.method_mem {r : Request} {table : MountTable} {change : Change}
    (h : r.IsGranted table change) :
    Verb.ofMethod? r.method ∈ [some .put, some .delete, some .mkcol] := by
  rcases h with ⟨d, verb, -, hverb, hgrants⟩
  rw [hverb]
  cases change with
  | write pool key => simp [hgrants.1]
  | remove pool key => rcases hgrants.1 with ⟨rfl, -⟩ | ⟨rfl, -⟩ <;> simp
  | create pool => simp [hgrants.1]

/-! ## Verbs that are disabled -/

namespace Http

variable {table : MountTable} {r : Request} {d : Destination} {verb : Verb}

/-- A request whose verb is disabled is refused before any call is made. -/
theorem serve_disabled (hlocate : Serve.locate table r = .ok d)
    (hverb : Verb.ofMethod? r.method = some verb)
    (hdisabled : ¬ verb.isPermitted d.mount.permissions) :
    serve table r =
      .done (Response.ofProblem (.methodNotAllowed d.mount.permissions.allowed)).framed := by
  have hrequest : Serve.request table r =
      throw (.methodNotAllowed d.mount.permissions.allowed) := by
    rw [Serve.request_eq hlocate, hverb]
    have hroot : Serve.onRoot r d.mount verb =
        throw (.methodNotAllowed d.mount.permissions.allowed) := by
      unfold Serve.onRoot
      rw [if_neg]
      rintro ⟨rfl, hallowed⟩
      exact hdisabled hallowed
    have hkey : ∀ key, Serve.onKey r d.mount verb key =
        throw (.methodNotAllowed d.mount.permissions.allowed) := by
      intro key
      unfold Serve.onKey
      rw [if_pos (by simpa using hdisabled)]
    -- nobody can disable the question about the allowed methods
    cases verb with
    | options => exact absurd rfl hdisabled
    | get | head | put | delete | mkcol | propfind =>
      cases d.key with
      | none => exact hroot
      | some key => exact hkey key
  rw [serve_eq, hrequest]
  rfl

/-- The list of the allowed methods can always be sent. -/
theorem allow_sent (p : Permissions) :
    (Response.ofProblem (.methodNotAllowed p.allowed)).framed.headers.lookup "allow" =
      some p.allowed := by
  rcases p with ⟨put, delete, mkcol, propfind⟩
  cases put <;> cases delete <;> cases mkcol <;> cases propfind <;> decide +kernel

/-- A request is refused with a list of allowed methods. No call is made for it, and its exchange is
the same on any engine over any store, which stays as it is. -/
structure Request.IsRefused (r : Request) (table : MountTable) (allow : String) : Prop where
  calls : ∃ response, serve table r = .done response
  exchange : ∀ patience, ∃ x : Exchange, x.status = 405 ∧ x.headers.lookup "allow" = some allow
    ∧ ∀ {σ : Type} (client : StoreClient σ) (e : Engine σ),
      (Engine.visit client table ⟨r, patience⟩).run e = (some x, e)

theorem Request.isRefused (hlocate : Serve.locate table r = .ok d)
    (hverb : Verb.ofMethod? r.method = some verb)
    (hdisabled : ¬ verb.isPermitted d.mount.permissions) :
    r.IsRefused table d.mount.permissions.allowed := by
  have hserve := serve_disabled hlocate hverb hdisabled
  let problem : Problem := .methodNotAllowed d.mount.permissions.allowed
  let chunks := if (Bytes.ofText problem.text).isEmpty then [] else [Bytes.ofText problem.text]
  have hhandle : ∀ {σ : Type} (client : StoreClient σ) (e : Engine σ),
      (Engine.handle client table r).run e = (some (Response.ofProblem problem).framed, e) := by
    intro σ client e
    unfold Engine.handle
    rw [hserve]
    rfl
  refine ⟨⟨_, hserve⟩, fun patience => ⟨⟨405, (Response.ofProblem problem).framed.headers,
    patience.elim chunks chunks.take, none⟩, rfl, allow_sent _, fun client e => ?_⟩⟩
  rw [Engine.visit_run, hhandle]
  simp only [Response.framed_status, Response.framed_body]
  cases patience <;> rfl

end Http

/-! ## All requests -/

/-- Whatever requests are made of an engine over whatever stores, and however far the answers are
read: every change that is asked of a store is granted by the mount that its request leads to, and
only uploads, removals and requests for new pools ask for any. A request for a verb that its mount
disables is refused without a call, in the same way over all stores. -/
theorem permissions_enforced {σ : Type} (client : StoreClient σ) (table : MountTable)
    (visits : List Visit) (e : Engine σ) :
    (∀ visited ∈ Engine.journal client table visits e, ∀ call ∈ visited.2,
      (∀ change, call.change? = some change → visited.1.request.IsGranted table change)
        ∧ (Http.Verb.ofMethod? visited.1.request.method ∉
            [some .put, some .delete, some .mkcol] → call.change? = none))
    ∧ ∀ (r : Http.Request) (path : String) (d : Destination) (verb : Http.Verb), r.path ≠ "" →
      Percent.decode? r.path = some path → path.utf8ByteSize ≤ Http.longestPath →
      table.resolve path = some d → Http.Verb.ofMethod? r.method = some verb →
      ¬ verb.isPermitted d.mount.permissions → r.IsRefused table d.mount.permissions.allowed := by
  constructor
  · -- induction on the visits: the journal is empty when the next one begins
    induction visits generalizing e with
    | nil => exact nofun
    | cons v rest ih =>
      intro visited hvisited
      rcases List.mem_cons.mp hvisited with rfl | hvisited
      · have hgranted : ∀ call ∈ ((Engine.visit client.journaled table v).run
            { e with store := (e.store, []) }).2.store.2, ∀ change, call.change? = some change →
              v.request.IsGranted table change :=
          StoreClient.Keeps.visit v (client.journaled_keeps _) nofun
        intro call hcall
        refine ⟨hgranted call hcall, fun hmethod => ?_⟩
        cases hchange : call.change? with
        | none => rfl
        | some change =>
          exact absurd (hgranted call hcall change hchange).method_mem hmethod
      · exact ih _ visited hvisited
  · intro r path d verb hpath hdecode hlength hresolve hverb hdisabled
    exact Http.Request.isRefused (Http.Serve.locate_eq hpath hdecode hlength hresolve) hverb
      hdisabled

/-- A mount that allows everything. -/
def openMount : Mount := ⟨"/rw", ⟨0, "work"⟩, 1, ⟨true, true, true, true⟩, .ofSeconds 4⟩

/-- A mount that can only be read. -/
def readOnlyMount : Mount := ⟨"/ro", ⟨0, "past"⟩, 1, {}, .ofSeconds 4⟩

/-- One slot for two pools of one memory cluster. -/
def twoPools : Engine Clusters :=
  ⟨.async, ⟨1, [0], 1, [], [], 0⟩, Switchboard.fresh 1,
    { members := [.memory "two" ⟨(Shelf.set default "work" ⟨default⟩).set "past" ⟨default⟩⟩] }⟩

theorem permissions_enforced_two_pools :
    (Engine.journal Clusters.client ⟨[openMount, readOnlyMount], none⟩
      [⟨{ method := "PUT", path := "/rw/k", body := [.ok [1]] }, none⟩,
        ⟨{ method := "PUT", path := "/ro/k", body := [.ok [1]] }, none⟩,
        ⟨{ method := "PUT", path := "/rw/k" }, some 0⟩] twoPools).map
          (fun visited => visited.2.filterMap StoreCall.change?) =
      [[.write ⟨0, "work"⟩ "k"], [], [.remove ⟨0, "work"⟩ "k", .write ⟨0, "work"⟩ "k"]]
    ∧ Http.Request.IsRefused { method := "PUT", path := "/ro/k", body := [.ok [1]] }
      ⟨[openMount, readOnlyMount], none⟩ "OPTIONS, GET, HEAD" := by
  refine ⟨by decide +kernel, ?_⟩
  exact (permissions_enforced Clusters.client ⟨[openMount, readOnlyMount], none⟩ [] twoPools).2
    { method := "PUT", path := "/ro/k", body := [.ok [1]] } "/ro/k" ⟨readOnlyMount, some "k"⟩ .put
    (by decide) (by decide +kernel) (by decide +kernel) (by decide +kernel) rfl (by decide)

/-- A target that is only the name of a host has no path. A mount without a base covers it, but the
request is refused before the mount is looked for, and is not told what is allowed. -/
theorem authority_refused :
    ∃ r d, Http.Request.ofParts? "PUT" "host" [] [] = some r
      ∧ Percent.decode? r.path = some ""
      ∧ MountTable.resolve ⟨[{ readOnlyMount with base := "" }], none⟩ "" = some d
      ∧ Http.Verb.ofMethod? r.method = some .put ∧ ¬ Http.Verb.put.isPermitted d.mount.permissions
      ∧ (((Engine.visit Clusters.client ⟨[{ readOnlyMount with base := "" }], none⟩ ⟨r, none⟩).run
        twoPools).1.map fun x => (x.status, x.headers.lookup "allow")) = some (403, none) := by
  have hpath : Http.Request.pathOf? "host" = some "" := by decide +kernel
  refine ⟨{ method := "PUT", path := "" }, ⟨{ readOnlyMount with base := "" }, none⟩, ?_,
    by decide +kernel, by decide +kernel, rfl, by decide, by decide +kernel⟩
  unfold Http.Request.ofParts?
  rw [hpath]
  rfl

end DavGateway
