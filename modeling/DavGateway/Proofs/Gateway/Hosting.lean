import DavGateway.Proofs.Gateway.Consistency
import DavGateway.Proofs.Http.Stages

/-!
# Requests that work on an object of an engine

An engine that answers the calls of a request which works by the rules for its stages
(`Engine.Hosts`) lets its operations pass through the clusters and does nothing else to them
(`Engine.Moves`). So what is shown of single operations at the places of the work holds of whole
requests (`Engine.upholds_stage`).
-/

namespace DavGateway

namespace Engine

variable {S : Type} {q : Flow.Protocol Operation (fun _ => Outcome) S} {ref : PoolRef} {start : S}
variable {e e' : Engine Clusters} {stage : Http.Stage S} {others : List OpenSession}

/-- The engine is consistent with the request at its stage, which works on the pool, and with what
others hold. -/
structure Hosts (e : Engine Clusters) (ref : PoolRef) (stage : Http.Stage S)
    (others : List OpenSession) : Prop where
  consistent : e.Consistent (stage.held.toList ++ others)
  pool : ∀ session, stage.held = some session → session.pool = ref

/-- What a call of a request at its stage does to the clusters, and how it is answered. -/
inductive Moves (q : Flow.Protocol Operation (fun _ => Outcome) S) (ref : PoolRef) :
    Http.Stage S → (call : GatewayCall) → call.Answer → Clusters → Clusters → Prop
  | enter {limit : Span} {session : OpenSession} {c c' : Clusters} (hstore : c' = c) :
    Moves q ref .before (.enter ref limit) (.ok session) c c'
  | operate {session : OpenSession} {place : S} {operation : Operation} {outcome : Outcome}
    {c c' : Clusters} (hmay : q.may place operation) (hpasses : c.Passes ref operation outcome c') :
    Moves q ref (.inside session place) (.within session (.operate operation)) outcome c c'
  | leave {session : OpenSession} {place : S} {c c' : Clusters} (hstore : c' = c) :
    Moves q ref (.inside session place) (.leave session) () c c'

/-- A call is left without an answer only while it waits for a slot, and then nothing happens. -/
theorem Hosts.respond {call : GatewayCall} (h : e.Hosts ref stage others)
    (hmay : (Http.Stage.protocol q ref start).may stage call) :
    ((Engine.respond Clusters.client call).run e = (none, e) ∧ stage = .before)
    ∨ ∃ reply e', (Engine.respond Clusters.client call).run e = (some reply, e')
      ∧ e'.Hosts ref ((Http.Stage.protocol q ref start).next stage call reply) others
      ∧ Moves q ref stage call reply e.store e'.store := by
  cases stage with
  | before =>
    cases call with
    | enter pool limit =>
      cases hmay
      rcases h.consistent.enter ref limit with
        hblocked | ⟨session, e', hentered, hconsistent, hstore, hpool⟩
      · exact .inl ⟨hblocked, rfl⟩
      · right
        refine ⟨.ok session, e', hentered, ⟨hconsistent, ?_⟩, ?_⟩
        · rintro _ ⟨⟩
          exact hpool
        · exact .enter hstore
    | within session call | leave session | createPool pool => exact hmay.elim
  | inside session place =>
    right
    cases call with
    | within session' call =>
      cases call with
      | operate operation =>
        obtain ⟨rfl, hmay⟩ := hmay
        obtain ⟨outcome, e', hoperate, hconsistent, hpasses⟩ := h.consistent.operate operation
        rw [h.pool session' rfl] at hpasses
        refine ⟨outcome, e', ?_, ⟨hconsistent, h.pool⟩, .operate hmay hpasses⟩
        show (some (operate Clusters.client session' operation e).1,
          (operate Clusters.client session' operation e).2) = _
        rw [hoperate]
        rfl
      | list | advance next => exact hmay.elim
    | leave session' =>
      cases hmay
      refine ⟨(), (leave session e).2, rfl, ⟨h.consistent.leave, nofun⟩, ?_⟩
      exact .leave (leave_store session)
    | enter pool limit | createPool pool => exact hmay.elim
  | after place => cases call <;> exact hmay.elim

/-- What the operations of the work keep, as long as they go by the rules, is kept by the engine for
the whole request. -/
theorem upholds_stage {inv : S → Clusters → Prop} (others : List OpenSession)
    (hstep : ∀ {place operation outcome} {c c' : Clusters}, q.may place operation → inv place c →
      c.Passes ref operation outcome c' →
      q.can place operation outcome ∧ inv (q.next place operation outcome) c') :
    (Http.Stage.protocol q ref start).UpheldBy (Engine.respond Clusters.client)
      (fun stage e => e.Hosts ref stage others ∧ inv (stage.place?.getD start) e.store)
      (fun e => e.Consistent others ∧ inv start e.store) where
  answered := by
    intro stage call e reply e' hmay he hanswer
    obtain ⟨hhosts, hinv⟩ := he
    rcases hhosts.respond hmay with ⟨hblocked, -⟩ | ⟨reply', e₁, hrun, hhosts₁, hmoves⟩
    · cases hblocked.symm.trans hanswer
    · cases hrun.symm.trans hanswer
      cases hmoves with
      | enter hstore => exact ⟨trivial, hhosts₁, by rw [hstore]; exact hinv⟩
      | leave hstore => exact ⟨trivial, hhosts₁, by rw [hstore]; exact hinv⟩
      | operate hallowed hpasses =>
        obtain ⟨hcan, hnext⟩ := hstep hallowed hinv hpasses
        exact ⟨hcan, hhosts₁, hnext⟩
  unanswered := by
    intro stage call e e' hmay he hanswer
    rcases he.1.respond hmay with ⟨hblocked, rfl⟩ | ⟨reply, e₁, hrun, -⟩
    · cases hblocked.symm.trans hanswer
      exact ⟨he.1.consistent, he.2⟩
    · cases hrun.symm.trans hanswer

/-- What the operations of a body keep, as long as they go by the rules, is kept while the body is
read. -/
theorem Hosts.collect {inv : S → Clusters → Prop}
    (hstep : ∀ {place operation outcome} {c c' : Clusters}, q.may place operation → inv place c →
      c.Passes ref operation outcome c' →
      q.can place operation outcome ∧ inv (q.next place operation outcome) c')
    {session : OpenSession} {flow : SessionFlow Bytes (Except Failure Unit)}
    {post : S → List Bytes → Except Failure Unit → Prop} (hflow : flow.Brings q.session post start)
    (h : e.Hosts ref (.inside session start) others) (hinv : inv start e.store) :
    ∃ place', post place' (flow.collect (bodyAnswer Clusters.client (some session)) e).1.1
      (flow.collect (bodyAnswer Clusters.client (some session)) e).1.2 := by
  have hupholds : (Http.Stage.protocol q ref start).UpheldBy (Engine.respond Clusters.client)
      (fun stage e => e.Hosts ref stage others ∧ inv (stage.place?.getD start) e.store)
      (fun e => e.Consistent others ∧ inv start e.store) := upholds_stage others hstep
  let kept : S → Engine Clusters → Prop := fun place e =>
    e.Hosts ref (.inside session place) others ∧ inv place e.store
  have hanswer : ∀ place call e, q.session.may place call → kept place e →
      q.session.can place call (bodyAnswer Clusters.client (some session) call e).1
        ∧ kept (q.session.next place call (bodyAnswer Clusters.client (some session) call e).1)
          (bodyAnswer Clusters.client (some session) call e).2 := by
    intro place call e hmay he
    cases call with
    | operate operation =>
      have hcall : (Http.Stage.protocol q ref start).may (.inside session place)
          (.within session (.operate operation)) := ⟨rfl, hmay⟩
      exact hupholds.answered hcall he rfl
    | list | advance next => exact hmay.elim
  have hstart : kept start e := ⟨h, hinv⟩
  obtain ⟨place', hpost, -⟩ := hflow.collect hanswer hstart
  exact ⟨place', hpost⟩

end Engine

end DavGateway
