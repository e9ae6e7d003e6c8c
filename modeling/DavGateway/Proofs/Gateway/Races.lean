import DavGateway.Proofs.Gateway.Hosting
import DavGateway.Proofs.Transfer.Meetings

/-!
# Two uploads at the same time

Two requests are served at the same time, each in a session of its own: call by call, in any order,
and other requests may come in between (`Race`). If both are uploads of one object and both are
answered 201, then nothing is left of what the object was before; it ends where one of the bodies
does, and is one of the bodies where the chunks of one were written after those of the other and
cover them (`uploads_blend`). In general it is neither of them (`uploads_torn`).
-/

namespace DavGateway

/-- The operation that a call asks for, if it asks for one. -/
def GatewayCall.operation? : GatewayCall → Option Operation
  | .within _ (.operate operation) => some operation
  | _ => none

/-- Two requests that an engine serves at the same time: how each of them goes on, and their
operations that were answered. -/
structure Race where
  engine : Engine Clusters
  flow : Side → GatewayFlow Http.Response
  log : List (Side × Operation)

namespace Race

/-- Nothing has been done for the requests. -/
def start (table : MountTable) (engine : Engine Clusters) (request : Side → Http.Request) : Race :=
  ⟨engine, fun side => Http.serve table (request side), []⟩

/-- One of the requests makes its next call. If there is no slot for it, it stays where it is. -/
def turn (side : Side) (race : Race) : Race :=
  match race.flow side with
  | .done _ => race
  | .ask call resume =>
    match (Engine.respond Clusters.client call).run race.engine with
    | (none, engine) => { race with engine := engine }
    | (some reply, engine) =>
      ⟨engine, Function.update race.flow side (resume reply),
        race.log ++ (call.operation?.map fun operation => (side, operation)).toList⟩

/-- What comes next: a call of one of the requests, or something that happens besides. -/
inductive Move where
  | turn (side : Side)
  | meanwhile (happening : Engine.Happening)

/-- Lets one thing come after the other. -/
def run (table : MountTable) (race : Race) (moves : List Move) : Race :=
  moves.foldl (fun race move => match move with
    | .turn side => race.turn side
    | .meanwhile happening => { race with engine := race.engine.happen table happening }) race

/-- The response to one of the requests, if there is one. -/
def answer? (race : Race) (side : Side) : Option Http.Response :=
  match race.flow side with
  | .done response => some response
  | .ask _ _ => none

end Race

/-- A gateway serves two requests at the same time. -/
def Gateway.race (g : Gateway) (request : Side → Http.Request) (moves : List Race.Move) : Race :=
  (Race.start g.table g.engine request).run g.table moves

namespace Race

variable {race : Race} {ref : PoolRef} {key : String} {body : Side → Bytes}
variable {stage : Side → Http.Stage Upload.Place} {table : MountTable} {side : Side}

/-! ## Two uploads -/

/-- The places of the two uploads. -/
def places (stage : Side → Http.Stage Upload.Place) (side : Side) : Upload.Place :=
  (stage side).place?.getD .looking

/-- The rules for the calls of one of the uploads. -/
abbrev protocol (ref : PoolRef) (key : String) (body : Bytes) :
    Flow.Protocol GatewayCall GatewayCall.Answer (Http.Stage Upload.Place) :=
  Http.Stage.protocol (Upload.rules key body) ref .looking

/-- Both requests go on by the rules, and each has written its body if it is answered 201. -/
def Obeys (race : Race) (ref : PoolRef) (key : String) (body : Side → Bytes)
    (stage : Side → Http.Stage Upload.Place) : Prop :=
  ∀ side, (race.flow side).Obeys (protocol ref key (body side))
    (fun stage response => response.status = 201 →
      stage.place? = some (.writing (some (body side).length))) (stage side)

/-- The engine serves both requests at their stages. Nothing is outstanding that would change the
object, and it is what the two uploads have made of it. -/
structure Sound (race : Race) (ref : PoolRef) (key : String) (body : Side → Bytes)
    (stage : Side → Http.Stage Upload.Place) : Prop where
  hosts : ∀ side, race.engine.Hosts ref (stage side) (stage side.other).held.toList
  pool : (race.engine.store.poolAt? ref).isSome
  quiet : race.engine.store.Quiet ref key
  meeting : Upload.Meeting key body (places stage) (race.engine.store.content? ref key) race.log

/-- Two uploads of an object go on, and one of them has failed or both are sound. -/
def Stands (race : Race) (ref : PoolRef) (key : String) (body : Side → Bytes) : Prop :=
  ∃ stage, race.Obeys ref key body stage
    ∧ ((∃ side, (stage side).place? = some .refused) ∨ race.Sound ref key body stage)

theorem places_update {next : Http.Stage Upload.Place} :
    places (Function.update stage side next) =
      Function.update (places stage) side (next.place?.getD .looking) := by
  funext t
  by_cases ht : t = side
  · rw [ht, places, Function.update_self, Function.update_self]
  · rw [places, Function.update_of_ne ht, Function.update_of_ne ht, places]

/-- An upload that has failed makes no more operations. -/
theorem refused_next {stage : Http.Stage Upload.Place} {body : Bytes} {call : GatewayCall}
    {reply : call.Answer} (hmay : (protocol ref key body).may stage call)
    (h : stage.place? = some .refused) :
    ((protocol ref key body).next stage call reply).place? = some .refused := by
  cases stage with
  | before => cases h
  | after place => cases call <;> exact hmay.elim
  | inside session place =>
    cases h
    cases call with
    | leave session' => rfl
    | enter pool limit | createPool pool => exact hmay.elim
    | within session' call =>
      cases call with
      | operate operation => cases operation <;> exact hmay.2.elim
      | list | advance next => exact hmay.elim

theorem protocol_can {stage : Http.Stage Upload.Place} {body : Bytes} {call : GatewayCall}
    {reply : call.Answer} : (protocol ref key body).can stage call reply := by
  cases stage with
  | before | after place => trivial
  | inside session place =>
    cases call with
    | enter pool limit | leave session' | createPool pool => trivial
    | within session' call => cases call <;> trivial

theorem hosts_update {e e' : Engine Clusters} {next : Http.Stage Upload.Place}
    (h : ∀ side, e.Hosts ref (stage side) (stage side.other).held.toList)
    (hhosts : e'.Hosts ref next (stage side.other).held.toList) (t : Side) :
    e'.Hosts ref (Function.update stage side next t)
      (Function.update stage side next t.other).held.toList := by
  by_cases ht : t = side
  · subst ht
    rw [Function.update_self, Function.update_of_ne t.other_ne]
    exact hhosts
  · -- the other request stays where it is, with its session
    have hother := Side.eq_other_of_ne ht
    subst hother
    rw [Function.update_of_ne ht, Side.other_other, Function.update_self]
    exact ⟨hhosts.consistent.perm List.perm_append_comm, (h side.other).pool⟩

/-- A call that asks for no operation. -/
theorem Sound.kept {e : Engine Clusters} {flow : Side → GatewayFlow Http.Response}
    {next : Http.Stage Upload.Place} (h : race.Sound ref key body stage)
    (hhosts : e.Hosts ref next (stage side.other).held.toList)
    (hstore : e.store = race.engine.store)
    (hplace : next.place?.getD .looking = places stage side) :
    (⟨e, flow, race.log⟩ : Race).Sound ref key body (Function.update stage side next) := by
  refine ⟨hosts_update h.hosts hhosts, ?_, ?_, ?_⟩
  · rw [hstore]
    exact h.pool
  · rw [hstore]
    exact h.quiet
  · rw [hstore, places_update, hplace, Function.update_eq_self]
    exact h.meeting

/-- A call of one of the uploads that is answered: the upload fails, or both are sound. -/
theorem Sound.answered {call : GatewayCall} {reply : call.Answer} {e : Engine Clusters}
    {flow : Side → GatewayFlow Http.Response} (h : race.Sound ref key body stage)
    (hhosts : e.Hosts ref ((protocol ref key (body side)).next (stage side) call reply)
      (stage side.other).held.toList)
    (hmoves : Engine.Moves (Upload.rules key (body side)) ref (stage side) call reply
      race.engine.store e.store) :
    (((protocol ref key (body side)).next (stage side) call reply).place? = some .refused)
    ∨ (⟨e, flow, race.log ++ (call.operation?.map fun operation => (side, operation)).toList⟩ :
        Race).Sound ref key body
          (Function.update stage side
            ((protocol ref key (body side)).next (stage side) call reply)) := by
  have hplace : places stage side = (stage side).place?.getD .looking := rfl
  generalize stage side = now at hhosts hmoves hplace ⊢
  cases hmoves with
  | enter hstore =>
    right
    show Race.Sound ⟨e, flow, race.log ++ []⟩ _ _ _ _
    rw [List.append_nil]
    exact h.kept hhosts hstore hplace.symm
  | leave hstore =>
    right
    show Race.Sound ⟨e, flow, race.log ++ []⟩ _ _ _ _
    rw [List.append_nil]
    exact h.kept hhosts hstore hplace.symm
  | @operate session place operation outcome c c' hmay hpasses =>
    have hkey := Upload.key_of_may hmay
    rcases hpasses.takes h.pool (hkey ▸ h.quiet) with ⟨htakes, hquiet⟩ | ⟨failure, rfl, hfound⟩
    · right
      rw [hkey] at htakes hquiet
      refine ⟨hosts_update h.hosts hhosts, hpasses.isSome_poolAt? h.pool, hquiet, ?_⟩
      have hat : places stage side = place := hplace
      rw [places_update]
      subst hat
      exact h.meeting.step hmay htakes
    · left
      exact congrArg some (Upload.next_refused hfound)

/-- A call of one of the uploads. -/
theorem Stands.turn (h : race.Stands ref key body) (side : Side) :
    (race.turn side).Stands ref key body := by
  obtain ⟨stage, hobeys, hstands⟩ := h
  have hflow := hobeys side
  unfold Race.turn
  split
  · exact ⟨stage, hobeys, hstands⟩
  · next call resume hask =>
    rw [hask] at hflow
    obtain ⟨hmay, hresume⟩ := hflow
    -- the flow of the request goes on after the answer, and the other one stays
    have hobeys' : ∀ (e : Engine Clusters) log reply,
        (⟨e, Function.update race.flow side (resume reply), log⟩ : Race).Obeys ref key body
          (Function.update stage side
            ((protocol ref key (body side)).next (stage side) call reply)) := by
      intro e log reply t
      by_cases ht : t = side
      · subst ht
        simp only [Function.update_self]
        exact hresume reply protocol_can
      · simp only [Function.update_of_ne ht]
        exact hobeys t
    rcases hstands with ⟨t, hrefused⟩ | hsound
    · split
      · exact ⟨stage, hobeys, .inl ⟨t, hrefused⟩⟩
      · next reply e hrun =>
        refine ⟨_, hobeys' _ _ reply, .inl ⟨t, ?_⟩⟩
        by_cases ht : t = side
        · subst ht
          rw [Function.update_self]
          exact refused_next hmay hrefused
        · rw [Function.update_of_ne ht]
          exact hrefused
    · rcases (hsound.hosts side).respond hmay with ⟨hrun, -⟩ | ⟨reply, e, hrun, hhosts, hmoves⟩
      · rw [hrun]
        exact ⟨stage, hobeys, .inr hsound⟩
      · rw [hrun]
        refine ⟨_, hobeys' _ _ reply, ?_⟩
        rcases hsound.answered hhosts hmoves with hrefused | hsound'
        · left
          refine ⟨side, ?_⟩
          rw [Function.update_self]
          exact hrefused
        · exact .inr hsound'

/-- Something happens besides that leaves the object alone. -/
theorem Stands.happen (h : race.Stands ref key body) {happening : Engine.Happening}
    (hspares : ∀ v, happening = .visit v → ∀ change, v.request.IsGranted table change →
      change.Spares ref key) :
    ({ race with engine := race.engine.happen table happening } : Race).Stands ref key body := by
  obtain ⟨stage, hobeys, hrefused | hsound⟩ := h
  · exact ⟨stage, hobeys, .inl hrefused⟩
  · refine ⟨stage, hobeys, .inr ?_⟩
    have hrests : race.engine.store.Rests ref key (race.engine.store.content? ref key) :=
      ⟨hsound.pool, hsound.quiet, rfl⟩
    have hkept := fun side => (hsound.hosts side).consistent.happen
      (Clusters.keeps_rests ref key _) hspares hrests
    obtain ⟨-, hpool, hquiet, hcontent⟩ := hkept .left
    refine ⟨fun side => ⟨(hkept side).1, (hsound.hosts side).pool⟩, hpool, hquiet, ?_⟩
    show Upload.Meeting key body _ ((race.engine.happen table happening).store.content? ref key) _
    rw [hcontent]
    exact hsound.meeting

/-- Whatever the order is in which things come. -/
theorem Stands.run {moves : List Move} (h : race.Stands ref key body)
    (hspares : ∀ v, .meanwhile (.visit v) ∈ moves → ∀ change, v.request.IsGranted table change →
      change.Spares ref key) : (race.run table moves).Stands ref key body := by
  induction moves generalizing race with
  | nil => exact h
  | cons move rest ih =>
    have hrest : ∀ v, .meanwhile (.visit v) ∈ rest → ∀ change,
        v.request.IsGranted table change → change.Spares ref key :=
      fun v hv => hspares v (List.mem_cons_of_mem _ hv)
    cases move with
    | turn side => exact ih (h.turn side) hrest
    | meanwhile happening =>
      refine ih (h.happen fun v hv => ?_) hrest
      exact hspares v (hv ▸ List.mem_cons_self)

/-- Two uploads of an object that nothing outstanding would change. -/
theorem start_stands {e : Engine Clusters} {request : Side → Http.Request}
    (hput : ∀ side, (request side).IsFor table .put ref key) (hconsistent : e.Consistent [])
    (hpool : (e.store.poolAt? ref).isSome) (hquiet : e.store.Quiet ref key) :
    (start table e request).Stands ref key fun side => (request side).bytes := by
  refine ⟨fun _ => .before, ?_, .inr ⟨fun _ => ⟨hconsistent, nofun⟩, hpool, hquiet, ?_⟩⟩
  · intro side
    obtain ⟨mount, hlocated, hmount, hmethod⟩ := hput side
    rw [← hmount]
    exact (Http.put_obeys hlocated hmethod).mono fun _ _ hpost => hpost.2.2
  · exact Upload.Meeting.start key _ _

/-- An upload that was answered 201 has written its body. -/
theorem Obeys.written (h : race.Obeys ref key body stage)
    (hcreated : (race.answer? side).map Http.Response.status = some 201) :
    (stage side).place? = some (.writing (some (body side).length)) := by
  have hflow := h side
  unfold answer? at hcreated
  split at hcreated
  · next response hdone =>
    rw [hdone] at hflow
    exact hflow (Option.some.inj hcreated)
  · cases hcreated

end Race

/-- Two uploads of one object at the same time. The gateway has served other requests before, of
which none has left anything outstanding that would change the object. The calls of the two come in
any order, and so does what happens besides, as long as nobody else uploads or removes the object.
When both are answered 201, the object is there and ends where one of the bodies does, and each byte
is one of the bodies or fills a gap. If all chunks of one upload were written after those of the
other, and cover them or follow a removal, then the object is the body of that one. -/
theorem uploads_blend {s : GatewaySettings} {mounts : List Mount} {c : Clusters} {g : Gateway}
    (hstart : Gateway.ofMounts s mounts c = .ok g)
    (hpools : ∀ m ∈ mounts, ∃ p, c.poolAt? m.ref = some p) (hidle : c.dispatcher.jobs = [])
    {ref : PoolRef} {key : String} {request : Side → Http.Request}
    (hput : ∀ side, (request side).IsFor g.table .put ref key)
    (earlier : List Engine.Happening) (hquiet : (g.after earlier).engine.store.Quiet ref key)
    (moves : List Race.Move) (hmoves : ∀ v, .meanwhile (.visit v) ∈ moves →
      ¬ v.request.IsFor g.table .put ref key ∧ ¬ v.request.IsFor g.table .delete ref key)
    (hcreated : ∀ side, (((g.after earlier).race request moves).answer? side).map
      Http.Response.status = some 201) :
    ∃ x, ((g.after earlier).race request moves).engine.store.content? ref key = some x
      ∧ (∃ side, x.length = (request side).bytes.length)
      ∧ (∀ (i : Nat) (b : UInt8), x[i]? = some b →
        b = 0 ∨ ∃ side, (request side).bytes[i]? = some b)
      ∧ ∀ side, Upload.Overwrites key (fun side => (request side).bytes)
        ((g.after earlier).race request moves).log side → x = (request side).bytes := by
  obtain ⟨hconsistent, hpool⟩ := Gateway.ofMounts_consistent hstart hpools hidle
  obtain ⟨hconsistent₁, hpool₁⟩ := hconsistent.after (Clusters.keeps_pool ref)
    (fun v _ change _ => trivial) (hpool (hput .left))
  have hstands : ((g.after earlier).race request moves).Stands ref key
      fun side => (request side).bytes :=
    (Race.start_stands hput hconsistent₁ hpool₁ hquiet).run fun v hv change hgranted =>
      Http.Request.spares (hmoves v hv).1 (hmoves v hv).2 hgranted
  obtain ⟨stage, hobeys, hends⟩ := hstands
  have hwritten := fun side => hobeys.written (hcreated side)
  rcases hends with ⟨side, hrefused⟩ | hsound
  · cases (hwritten side).symm.trans hrefused
  · have hended : ∀ side, Race.places stage side =
        .writing (some ((request side).bytes).length) := by
      intro side
      unfold Race.places
      rw [hwritten side]
      rfl
    obtain ⟨x, hcontent, hlength, hbytes⟩ := hsound.meeting.blended hended
    exact ⟨x, hcontent, hlength, hbytes, fun side hover =>
      hsound.meeting.overwritten hended hcontent hover⟩

/-- A mount that permits uploads. -/
def sharedMount : Mount := ⟨"/m", ⟨0, "shared"⟩, 2, ⟨true, false, false, false⟩, .ofSeconds 4⟩

/-- One memory cluster with an empty pool. -/
def sharedClusters : Clusters where
  members := [.memory "shared" ⟨Shelf.set default "shared" ⟨default⟩⟩]

/-- A gateway with two slots that serves the pool. -/
def sharedGateway : Gateway where
  table := ⟨[sharedMount], none⟩
  engine := ⟨.blocking, ⟨2, [0, 1], 2, [], [], 0⟩, Switchboard.fresh 2, sharedClusters⟩

/-- Two uploads of one object, the first of four bytes and the second of two. -/
def sharedUpload : Side → Http.Request
  | .left => { method := "PUT", path := "/m/k", body := [.ok [65, 65, 65, 65]] }
  | .right => { method := "PUT", path := "/m/k", body := [.ok [66, 66]] }

theorem ofMounts_shared :
    Gateway.ofMounts { scheduling := ⟨.blocking, 2⟩ } [sharedMount] sharedClusters =
      .ok sharedGateway := Gateway.ofMounts_singleton rfl rfl

theorem sharedUpload_isFor (side : Side) :
    (sharedUpload side).IsFor sharedGateway.table .put ⟨0, "shared"⟩ "k" := by
  cases side <;> exact ⟨sharedMount, rfl, rfl, rfl⟩

/-- The first upload looks the object up and writes, then the second looks it up, removes it and
writes. -/
def removalBetween : List Race.Move :=
  [.turn .left, .turn .right, .turn .left, .turn .left, .turn .right, .turn .right, .turn .right,
    .turn .left, .turn .right]

theorem uploads_blend_removed :
    (sharedGateway.race sharedUpload removalBetween).engine.store.content? ⟨0, "shared"⟩ "k" =
      some [66, 66] := by
  have hpools : ∀ m ∈ [sharedMount], ∃ p, sharedClusters.poolAt? m.ref = some p := by
    intro m hm
    rw [List.mem_singleton.mp hm]
    exact ⟨{}, by decide +kernel⟩
  have hmoves : ∀ v, .meanwhile (.visit v) ∈ removalBetween →
      ¬ v.request.IsFor sharedGateway.table .put ⟨0, "shared"⟩ "k"
        ∧ ¬ v.request.IsFor sharedGateway.table .delete ⟨0, "shared"⟩ "k" := by
    intro v hv
    simp [removalBetween] at hv
  have hcreated : ∀ side, (((sharedGateway.after []).race sharedUpload
      removalBetween).answer? side).map Http.Response.status = some 201 := by
    intro side
    cases side <;> decide +kernel
  obtain ⟨x, hcontent, -, -, hover⟩ := uploads_blend ofMounts_shared hpools rfl sharedUpload_isFor
    [] (by decide +kernel) removalBetween hmoves hcreated
  have hright : x = [66, 66] := by
    refine hover .right ⟨[(.left, .stat "k"), (.left, .write "k" [65, 65, 65, 65] 0)],
      [(.right, .stat "k"), (.right, .remove "k"), (.right, .write "k" [66, 66] 0)],
      by decide +kernel, ?_, ?_, .inr (by decide)⟩
    · intro data offset hmem
      simp at hmem
    · intro data offset hmem
      simp [Side.other] at hmem
  rw [hright] at hcontent
  exact hcontent

/-- Both uploads look the object up before one of them writes. -/
def takingTurns : List Race.Move :=
  [.turn .left, .turn .right, .turn .left, .turn .right, .turn .left, .turn .right, .turn .left,
    .turn .right]

/-- Neither upload finds the object, and both are answered 201. Then two bytes of the second are in
front of two bytes of the first. -/
theorem uploads_torn :
    Gateway.ofMounts { scheduling := ⟨.blocking, 2⟩ } [sharedMount] sharedClusters =
      .ok sharedGateway
    ∧ (∀ side, (sharedUpload side).IsFor sharedGateway.table .put ⟨0, "shared"⟩ "k")
    ∧ (∀ side, ((sharedGateway.race sharedUpload takingTurns).answer? side).map
      Http.Response.status = some 201)
    ∧ (sharedGateway.race sharedUpload takingTurns).engine.store.content? ⟨0, "shared"⟩ "k" =
      some [66, 66, 65, 65]
    ∧ ∀ side, (sharedUpload side).bytes ≠ [66, 66, 65, 65] := by
  refine ⟨ofMounts_shared, sharedUpload_isFor, ?_, by decide +kernel, ?_⟩
  · intro side
    cases side <;> decide +kernel
  · intro side
    cases side <;> decide

end DavGateway
