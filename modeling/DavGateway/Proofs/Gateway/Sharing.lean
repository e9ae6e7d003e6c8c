import DavGateway.Proofs.Gateway.Connections
import DavGateway.Proofs.Gateway.Lasting
import DavGateway.Proofs.Gateway.Outcomes
import DavGateway.Proofs.Http.Entrances

/-!
# Shared pools and separate ones

With clusters in memory, mounts with the same connection and the same pool show the same objects,
and what is asked through any other mount makes no difference to them (`mounts_share_or_part`). A
request that does not concern a pool leaves it as it is (`Gateway.Open.unseen`); and of two gateways
that agree on the pool, a request that concerns it is answered the same by both
(`Gateway.Agree.visit`), so that they agree all the time.
-/

namespace DavGateway

/-- The request leads to the mount. -/
def Http.Request.Through (r : Http.Request) (table : MountTable) (m : Mount) : Prop :=
  ∃ key?, Http.Serve.locate table r = .ok ⟨m, key?⟩

/-- The request has the verb, and is for a key of the mount. -/
def Http.Request.Asks (r : Http.Request) (table : MountTable) (m : Mount) (verb : Http.Verb)
    (key : String) : Prop :=
  Http.Serve.locate table r = .ok ⟨m, some key⟩ ∧ Http.Verb.ofMethod? r.method = some verb

/-- The request asks for a new pool. -/
def Http.Request.MakesPool (r : Http.Request) : Prop := Http.Verb.ofMethod? r.method = some .mkcol

/-- The request leads to a mount on the pool, and does not ask for a new one. -/
def Http.Request.Concerns (r : Http.Request) (table : MountTable) (ref : PoolRef) : Prop :=
  (∃ d, Http.Serve.locate table r = .ok d ∧ d.mount.ref = ref) ∧ ¬ r.MakesPool

/-- Does the request lead to the mount, and not ask for a new pool? -/
def Http.Request.isOf (r : Http.Request) (table : MountTable) (m : Mount) : Bool :=
  match Http.Serve.locate table r with
  | .ok d => d.mount == m && Http.Verb.ofMethod? r.method != some .mkcol
  | .error _ => false

theorem Http.Request.concerns_of_isOf {r : Http.Request} {table : MountTable} {m : Mount}
    (h : r.isOf table m = true) : r.Concerns table m.ref := by
  unfold isOf at h
  split at h
  · next d hlocated =>
    obtain ⟨hmount, hmethod⟩ := Bool.and_eq_true_iff.mp h
    refine ⟨⟨d, hlocated, congrArg Mount.ref (beq_iff_eq.mp hmount)⟩, ?_⟩
    exact bne_iff_ne.mp hmethod
  · cases h

theorem Http.Request.not_isFor {r : Http.Request} {table : MountTable} {d : Destination}
    {ref : PoolRef} (hlocated : Http.Serve.locate table r = .ok d) (hother : d.mount.ref ≠ ref)
    (verb : Http.Verb) (key : String) : ¬ r.IsFor table verb ref key := by
  rintro ⟨mount, hmount, href, -⟩
  cases hlocated.symm.trans hmount
  exact hother href

/-- The body of a request that is made can be kept in memory. -/
def Engine.Happening.IsSmall : Engine.Happening → Prop
  | .visit v => v.request.bytes.length < Text.signedLimit
  | .pause _ | .date _ => True

instance Engine.Happening.IsSmall.decidable : DecidablePred IsSmall
  | .visit v => inferInstanceAs (Decidable (v.request.bytes.length < Text.signedLimit))
  | .pause _ | .date _ => inferInstanceAs (Decidable True)

namespace Engine

variable {e : Engine Clusters} {table : MountTable} {v : Visit}

/-- A request that leads nowhere is answered without the store. -/
theorem visit_nowhere {problem : Http.Problem}
    (h : Http.Serve.locate table v.request = .error problem) :
    ∃ x, ∀ e, (visit Clusters.client table v).run e = (some x, e) := by
  have hrefused : Http.Serve.request table v.request = Http.Serve.ensure (.error problem) := by
    unfold Http.Serve.request
    rw [h]
    rfl
  obtain ⟨x, -, hvisit⟩ := visit_at_once _ hrefused nofun
  exact ⟨x, hvisit⟩

/-- A request for a new pool makes one, or does nothing. -/
theorem visit_makesPool (h : v.request.MakesPool) (e : Engine Clusters) :
    (∃ x, (visit Clusters.client table v).run e = (some x, e))
      ∨ ∃ x ref, (visit Clusters.client table v).run e =
        (some x, { e with store := (e.store.createPool ref).2 }) := by
  cases hlocated : Http.Serve.locate table v.request with
  | error problem =>
    obtain ⟨x, hvisit⟩ := visit_nowhere hlocated
    exact .inl ⟨x, hvisit e⟩
  | ok d =>
    obtain ⟨mount, key?⟩ := d
    cases key? with
    | none =>
      -- at the root of a mount nothing is made
      have hrefused : Http.Serve.request table v.request =
          Http.Serve.ensure (.error (.methodNotAllowed mount.permissions.allowed)) := by
        rw [Http.Serve.request_eq hlocated, show Http.Verb.ofMethod? _ = _ from h]
        rfl
      obtain ⟨x, -, hvisit⟩ := visit_at_once _ hrefused nofun
      exact .inl ⟨x, hvisit e⟩
    | some key =>
      have hwants : v.request.WantsPool table ⟨mount.ref.cluster, Text.withoutEndSlashes key⟩ :=
        ⟨mount, key, hlocated, h, rfl⟩
      rcases visit_wantsPool hwants e with ⟨x, hrun, -⟩ | ⟨x, hrun, -⟩
      · exact .inl ⟨x, hrun⟩
      · exact .inr ⟨x, _, hrun⟩

/-- While nothing is outstanding, a pause only moves the clock. -/
theorem pause_idle (h : e.store.dispatcher.jobs = []) (span : Span) :
    ∃ d : Dispatcher, (pause Clusters.client span e).2 =
        { e with store := { e.store with dispatcher := d } }
      ∧ d.jobs = [] ∧ d.delay = e.store.dispatcher.delay := by
  have hawait : e.store.await e.board.tickets.size span =
      ([], { e.store with dispatcher := { e.store.dispatcher with
        jobs := [], clock := max e.store.dispatcher.clock
          (e.store.dispatcher.clock + span.nanos) } }) := by
    unfold Clusters.await Dispatcher.await
    rw [h]
    rfl
  have hpause : (pause Clusters.client span e).2 =
      { e with
        store := (e.store.await e.board.tickets.size span).2
        board := e.board.completeAll (e.store.await e.board.tickets.size span).1 } := rfl
  rw [hpause, hawait]
  exact ⟨_, rfl, rfl, rfl⟩

end Engine

/-- What is done in other pools leaves a pool as it is. -/
theorem Clusters.stable_pool (ref : PoolRef) (p : MemoryPool) :
    Clusters.Stable (Change.Within (· ≠ ref)) fun c => c.poolAt? ref = some p where
  createPool := fun {c other} h => c.poolAt?_createPool_of_some other h
  perform := by
    intro c other operation hmakes h
    cases hother : c.poolAt? other with
    | none => exact (Clusters.poolAt?_perform_of_none hother operation ref).trans h
    | some q =>
      obtain ⟨c', hperform, hpools, -⟩ := Clusters.perform_of_poolAt? hother operation
      rw [hperform, hpools]
      split
      · next hsame =>
        subst hsame
        cases hother.symm.trans h
        cases operation with
        | stat key | read key length offset => rfl
        | write key data offset => exact absurd rfl (hmakes _ rfl)
        | remove key => exact absurd rfl (hmakes _ rfl)
      · exact h
  dispatcher := fun h => h
  date := fun h => h

namespace Gateway

variable {g g' g'' : Gateway} {ref : PoolRef} {m m' : Mount} {v : Visit} {key : String}
variable {happening : Engine.Happening} {happenings : List Engine.Happening} {p : MemoryPool}

/-! ## Gateways that agree on a pool -/

/-- Two gateways with the same mounts are between two requests, and agree on the date and on a
pool. -/
structure Agree (ref : PoolRef) (g g' : Gateway) : Prop where
  left : g.Open
  right : g'.Open
  table : g'.table = g.table
  now : g'.engine.store.now = g.engine.store.now
  pool : g'.engine.store.poolAt? ref = g.engine.store.poolAt? ref

theorem Agree.refl (h : g.Open) : Agree ref g g := ⟨h, h, rfl, rfl, rfl⟩

theorem Agree.symm (h : Agree ref g g') : Agree ref g' g :=
  ⟨h.right, h.left, h.table.symm, h.now.symm, h.pool.symm⟩

theorem Agree.trans (h : Agree ref g g') (h' : Agree ref g' g'') : Agree ref g g'' :=
  ⟨h.left, h'.right, h'.table.trans h.table, h'.now.trans h.now, h'.pool.trans h.pool⟩

theorem Open.mounted_at (h : g.Open) (hm : g.Serves m)
    (hp : g.engine.store.poolAt? m.ref = some p) : g.engine.Mounted m p :=
  ⟨h.ready, hp, h.prompt m hm⟩

/-- The gateway after a visit. -/
theorem after_visit {x? : Option Exchange} {e' : Engine Clusters}
    (h : (Engine.visit Clusters.client g.table v).run g.engine = (x?, e')) :
    g.after [.visit v] = { g with engine := e' } := by
  show ({ g with engine := ((Engine.visit Clusters.client g.table v).run g.engine).2 } :
    Gateway) = _
  rw [h]

/-- A visit that does not concern a pool that is there leaves it as it is. -/
theorem Open.unseen (h : g.Open) (hp : g.engine.store.poolAt? ref = some p)
    (hsmall : v.request.bytes.length < Text.signedLimit)
    (hunseen : ¬ v.request.Concerns g.table ref) : Agree ref g (g.after [.visit v]) := by
  cases hlocated : Http.Serve.locate g.table v.request with
  | error problem =>
    obtain ⟨x, hvisit⟩ := Engine.visit_nowhere hlocated
    rw [after_visit (hvisit g.engine)]
    exact .refl h
  | ok d =>
    by_cases hmakes : v.request.MakesPool
    · rcases Engine.visit_makesPool hmakes g.engine with ⟨x, hvisit⟩ | ⟨x, other, hvisit⟩
      · rw [after_visit hvisit]
        exact .refl h
      · rw [after_visit hvisit]
        refine ⟨h, h.createPool other, rfl, (g.engine.store.createPool_keeps other).1, ?_⟩
        exact (g.engine.store.poolAt?_createPool_of_some other hp).trans hp.symm
    · have hother : ref ≠ d.mount.ref :=
        fun hsame => hunseen ⟨⟨d, hlocated, hsame.symm⟩, hmakes⟩
      have hserves : g.Serves d.mount := Http.Serve.locate_mount hlocated
      obtain ⟨q, hq⟩ := h.pools d.mount hserves
      obtain ⟨x, q', hcomes⟩ :=
        Visit.exists_comes hlocated hmakes hsmall g.engine.store.now q
      obtain ⟨e', hvisit, hsettled⟩ := hcomes (h.mounted_at hserves hq) rfl
      rw [after_visit hvisit]
      exact ⟨h, h.settled hsettled, rfl, hsettled.beside.now, hsettled.beside.others ref hother⟩

/-- A visit that concerns the pool is answered the same by both, and both go on to agree. -/
theorem Agree.visit (h : Agree ref g g') (hsmall : v.request.bytes.length < Text.signedLimit)
    (hseen : v.request.Concerns g.table ref) :
    ∃ x, (g.visit v).1 = some x ∧ (g'.visit v).1 = some x
      ∧ Agree ref (g.after [.visit v]) (g'.after [.visit v]) := by
  obtain ⟨⟨d, hlocated, rfl⟩, hmakes⟩ := hseen
  have hserves : g.Serves d.mount := Http.Serve.locate_mount hlocated
  have hserves' : g'.Serves d.mount := by
    unfold Serves
    rw [h.table]
    exact hserves
  obtain ⟨p, hp⟩ := h.left.pools d.mount hserves
  obtain ⟨x, p', hcomes⟩ := Visit.exists_comes hlocated hmakes hsmall g.engine.store.now p
  obtain ⟨e₁, hvisit, hsettled⟩ := hcomes (h.left.mounted_at hserves hp) rfl
  obtain ⟨e₂, hvisit', hsettled'⟩ :=
    hcomes (h.right.mounted_at hserves' (h.pool.trans hp)) h.now
  rw [← h.table] at hvisit'
  rw [visit_eq hvisit, visit_eq hvisit', after_visit hvisit, after_visit hvisit']
  refine ⟨x, rfl, rfl, h.left.settled hsettled, h.right.settled hsettled', h.table, ?_, ?_⟩
  · exact hsettled'.beside.now.trans (h.now.trans hsettled.beside.now.symm)
  · exact hsettled'.pool.trans hsettled.pool.symm

/-- The gateway stays open while only the clock moves. -/
theorem Open.pause (h : g.Open) (span : Span) : (g.after [.pause span]).Open
    ∧ (g.after [.pause span]).engine.store.now = g.engine.store.now
    ∧ ∀ ref, (g.after [.pause span]).engine.store.poolAt? ref =
      g.engine.store.poolAt? ref := by
  obtain ⟨d, hpause, hjobs, hdelay⟩ := Engine.pause_idle h.ready.idle span
  have hafter : g.after [.pause span] = { g with engine :=
      { g.engine with store := { g.engine.store with dispatcher := d } } } := by
    show ({ g with engine := (Engine.pause Clusters.client span g.engine).2 } : Gateway) = _
    rw [hpause]
  rw [hafter]
  refine ⟨⟨⟨h.ready.free, h.ready.permits, h.ready.queue, hjobs, h.ready.wired⟩, h.pools, ?_⟩,
    rfl, fun _ => rfl⟩
  intro m hm number
  show (d.delay number).nanos ≤ m.limit.nanos
  rw [hdelay]
  exact h.prompt m hm number

/-- Whatever happens, both go on to agree. -/
theorem Agree.happen (h : Agree ref g g') (hp : g.engine.store.poolAt? ref = some p)
    (hsmall : happening.IsSmall) : Agree ref (g.after [happening]) (g'.after [happening]) := by
  cases happening with
  | visit v =>
    by_cases hseen : v.request.Concerns g.table ref
    · obtain ⟨x, -, -, hagree⟩ := h.visit hsmall hseen
      exact hagree
    · have hunseen' : ¬ v.request.Concerns g'.table ref := by rwa [h.table]
      have hleft := h.left.unseen hp hsmall hseen
      have hright := h.right.unseen (h.pool.trans hp) hsmall hunseen'
      exact (hleft.symm.trans h).trans hright
  | pause span =>
    obtain ⟨hopen, hnow, hpools⟩ := h.left.pause span
    obtain ⟨hopen', hnow', hpools'⟩ := h.right.pause span
    refine ⟨hopen, hopen', h.table, ?_, ?_⟩
    · rw [hnow, hnow', h.now]
    · rw [hpools, hpools', h.pool]
  | date now => exact ⟨h.left.atTime now, h.right.atTime now, h.table, rfl, h.pool⟩

/-- A gateway that is open stays open, whatever happens. -/
theorem Open.after (h : g.Open) (hm : g.Serves m)
    (hsmall : ∀ happening ∈ happenings, happening.IsSmall) : (g.after happenings).Open := by
  induction happenings generalizing g with
  | nil => exact h
  | cons happening rest ih =>
    obtain ⟨hfirst, hrest⟩ := List.forall_mem_cons.mp hsmall
    obtain ⟨p, hp⟩ := h.pools m hm
    have hserves : (g.after [happening]).Serves m := hm
    exact ih ((Agree.refl h).happen hp hfirst).left hserves hrest

/-! ## What is told through a mount -/

/-- What is answered through a mount while things happen, but to requests for new pools. -/
def told (g : Gateway) (m : Mount) : List Engine.Happening → List (Option Exchange)
  | [] => []
  | .visit v :: rest =>
    if v.request.isOf g.table m then (g.visit v).1 :: (g.after [.visit v]).told m rest
    else (g.after [.visit v]).told m rest
  | happening :: rest => (g.after [happening]).told m rest

/-- Two gateways that agree on the pool of a mount tell the same through it, also if one of them is
not asked what does not concern the pool. -/
theorem Agree.told (h : Agree m.ref g g') (hm : g.Serves m) {keep : Engine.Happening → Bool}
    (hkeep : ∀ happening, keep happening = false →
      ∃ v, happening = .visit v ∧ ¬ v.request.Concerns g.table m.ref)
    (hsmall : ∀ happening ∈ happenings, happening.IsSmall) :
    g'.told m (happenings.filter keep) = g.told m happenings := by
  -- induction on what happens, with both gateways
  induction happenings generalizing g g' with
  | nil => rfl
  | cons happening rest ih =>
    obtain ⟨hfirst, hrest⟩ := List.forall_mem_cons.mp hsmall
    obtain ⟨p, hp⟩ := h.left.pools m hm
    have hserves : (g.after [happening]).Serves m := hm
    cases hkept : keep happening with
    | true =>
      rw [List.filter_cons_of_pos hkept]
      have htold := ih (h.happen hp hfirst) hserves hkeep hrest
      cases happening with
      | visit v =>
        simp only [Gateway.told, h.table]
        split
        · next hof =>
          obtain ⟨x, hleft, hright, -⟩ := h.visit hfirst (Http.Request.concerns_of_isOf hof)
          rw [hleft, hright, htold]
        · exact htold
      | pause span | date now => exact htold
    | false =>
      rw [List.filter_cons_of_neg (by simp [hkept])]
      obtain ⟨v, rfl, hunseen⟩ := hkeep happening hkept
      have hagree := (h.left.unseen hp hfirst hunseen).symm.trans h
      have hnot : ¬ v.request.isOf g.table m = true :=
        fun hof => hunseen (Http.Request.concerns_of_isOf hof)
      rw [Gateway.told, if_neg hnot]
      exact ih hagree hserves hkeep hrest

/-- Whatever happens that does not concern a pool, and however late it is carried out, the pool
stays as it is, unless something outstanding changes it. -/
theorem poolAt?_after (hp : g.engine.store.poolAt? ref = some p)
    (hhands : g.engine.store.Hands (Change.Within (· ≠ ref)))
    (hunseen : ∀ v, .visit v ∈ happenings → ¬ v.request.Concerns g.table ref) :
    (g.after happenings).engine.store.poolAt? ref = some p := by
  refine (Engine.stable_after (Clusters.stable_pool ref p) ?_ ⟨hp, hhands⟩).1
  rintro v hv change ⟨d, verb, hlocated, hmethod, hgrants⟩
  have hother : verb ≠ .mkcol → d.mount.ref ≠ ref := by
    intro hverb hsame
    refine hunseen v hv ⟨⟨d, hlocated, hsame⟩, fun hmakes => hverb ?_⟩
    exact Option.some.inj (hmethod.symm.trans hmakes)
  cases change with
  | create pool => trivial
  | write pool key =>
    obtain ⟨rfl, -, rfl, -⟩ := hgrants
    exact hother nofun
  | remove pool key =>
    obtain ⟨⟨rfl, -⟩ | ⟨rfl, -⟩, rfl, -⟩ := hgrants
    · exact hother nofun
    · exact hother nofun

/-! ## Two mounts -/

/-- Every operation through a mount is carried out before the time of the mount is up. -/
def Prompt (g : Gateway) : Prop :=
  ∀ m, g.Serves m → ∀ number, (g.engine.store.dispatcher.delay number).nanos ≤ m.limit.nanos

/-- Two mounts show the same objects. What was stored through the one is what is returned through
the other, for as long as it is not uploaded anew or removed (`stored`, `returned`); at every time
both answer requests for an object the same (`shown`), and list the same objects (`listed`). Where
operations can be late, this is said of what is sent to the end. -/
structure Shares (g : Gateway) (m m' : Mount) : Prop where
  stored : ∀ {earlier later : List Engine.Happening} {put get : Visit} {key : String}
      {x y : Exchange}, put.request.Asks g.table m .put key →
    get.request.Asks g.table m' .get key → get.patience = none →
    (g.after earlier).engine.store.Quiet m.ref key →
    ((g.after earlier).visit put).1 = some x → x.status = 201 →
    (∀ v, .visit v ∈ later → ¬ v.request.IsFor g.table .put m.ref key
      ∧ ¬ v.request.IsFor g.table .delete m.ref key) →
    ((g.after (earlier ++ .visit put :: later)).visit get).1 = some y →
    y.status = 200 → y.failure = none → y.chunks.flatten = put.request.bytes
  returned : g.Prompt → ∀ {earlier later : List Engine.Happening} {put get : Visit} {key : String}
      {x : Exchange}, (∀ happening ∈ earlier ++ .visit put :: later, happening.IsSmall) →
    put.request.Asks g.table m .put key → get.request.Asks g.table m' .get key →
    get.patience = none → get.request.header? "if-modified-since" = none →
    ((g.after earlier).visit put).1 = some x → x.status = 201 →
    (∀ v, .visit v ∈ later → ¬ v.request.IsFor g.table .put m.ref key
      ∧ ¬ v.request.IsFor g.table .delete m.ref key) →
    ∃ y, ((g.after (earlier ++ .visit put :: later)).visit get).1 = some y
      ∧ y.status = 200 ∧ y.failure = none ∧ y.chunks.flatten = put.request.bytes
  shown : g.Prompt → ∀ {happenings : List Engine.Happening} {v v' : Visit} {key : String},
    (∀ happening ∈ happenings, happening.IsSmall) →
    v.request.Asks g.table m .get key → v'.request.Asks g.table m' .get key →
    v'.request.header? "if-modified-since" = v.request.header? "if-modified-since" →
    v'.patience = v.patience →
    ∃ x, ((g.after happenings).visit v).1 = some x ∧ ((g.after happenings).visit v').1 = some x
  listed : g.Prompt → ∀ {happenings : List Engine.Happening} {r r' : Http.Request},
    (∀ happening ∈ happenings, happening.IsSmall) → r.Lists g.table m → r'.Lists g.table m' →
    ∃ (p : MemoryPool) (x x' : Exchange), ((g.after happenings).visit ⟨r, none⟩).1 = some x
      ∧ ((g.after happenings).visit ⟨r', none⟩).1 = some x'
      ∧ x.chunks = Engine.listing m.base p ∧ x'.chunks = Engine.listing m'.base p

/-- What is asked through the first mount, and what pools are made through any mount, makes no
difference to the second one. Its pool stays as it is, however late operations are (`stays`); and
all that is told through it is the same if some of those requests are left out (`answers`). -/
structure Parts (g : Gateway) (m m' : Mount) : Prop where
  stays : ∀ {earlier others : List Engine.Happening},
    (g.after earlier).engine.store.Hands (Change.Within (· ≠ m'.ref)) →
    (∀ v, .visit v ∈ others → v.request.Through g.table m ∨ v.request.MakesPool) →
    ((g.after earlier).after others).engine.store.poolAt? m'.ref =
      (g.after earlier).engine.store.poolAt? m'.ref
  answers : g.Prompt → ∀ {happenings : List Engine.Happening} {keep : Engine.Happening → Bool},
    (∀ happening ∈ happenings, happening.IsSmall) →
    (∀ happening, keep happening = false → ∃ v, happening = .visit v
      ∧ (v.request.Through g.table m ∨ v.request.MakesPool)) →
    g.told m' (happenings.filter keep) = g.told m' happenings

theorem not_concerns {r : Http.Request} {table : MountTable} (hne : m.ref ≠ m'.ref)
    (h : r.Through table m ∨ r.MakesPool) : ¬ r.Concerns table m'.ref := by
  rintro ⟨⟨d, hlocated, hsame⟩, hnot⟩
  rcases h with ⟨key?, hthrough⟩ | hmakes
  · cases hlocated.symm.trans hthrough
    exact hne hsame
  · exact hnot hmakes

/-- Mounts on different pools have nothing to do with each other. -/
theorem parts_of_ne (hpool : ∀ {happenings : List Engine.Happening},
      ((g.after happenings).engine.store.poolAt? m'.ref).isSome) (hopen : g.Prompt → g.Open)
    (hm' : g.Serves m') (hne : m.ref ≠ m'.ref) : g.Parts m m' where
  stays := by
    intro earlier others hhands hothers
    obtain ⟨p, hp⟩ := Option.isSome_iff_exists.mp hpool
    rw [hp]
    exact poolAt?_after hp hhands fun v hv => not_concerns hne (hothers v hv)
  answers := by
    intro hprompt happenings keep hsmall hkeep
    refine (Agree.refl (hopen hprompt)).told hm' (fun happening hdropped => ?_) hsmall
    obtain ⟨v, hv, haside⟩ := hkeep happening hdropped
    exact ⟨v, hv, not_concerns hne haside⟩

theorem isFor_of_asks {r : Http.Request} {table : MountTable} {verb : Http.Verb}
    (h : r.Asks table m verb key) : r.IsFor table verb m.ref key := ⟨m, h.1, rfl, h.2⟩

/-- An upload that was answered 201 is one under a proper key. -/
theorem valid_of_created {table : MountTable} {e e' : Engine Clusters} {x : Exchange}
    (hasks : v.request.Asks table m .put key)
    (hvisit : (Engine.visit Clusters.client table v).run e = (some x, e'))
    (hcreated : x.status = 201) : Names.checkKey key = .ok () := by
  cases hkey : Names.checkKey key with
  | ok => rfl
  | error failure =>
    obtain ⟨problem, hrefused, hstatus⟩ : ∃ problem : Http.Problem,
        Http.Serve.request table v.request = Http.Serve.ensure (.error problem)
          ∧ 400 ≤ problem.status := by
      by_cases hpermitted : Http.Verb.put.isPermitted m.permissions
      · exact ⟨_, Visit.request_of_improper hasks.1 hasks.2 nofun nofun hpermitted hkey,
          Http.Problem.refuses_ofFailure () failure⟩
      · have hstatus : 400 ≤ (405 : Nat) := by decide
        exact ⟨_, Visit.request_of_denied hasks.1 hasks.2 nofun hpermitted, hstatus⟩
    obtain ⟨y, hy, hrun⟩ := Engine.visit_at_once _ hrefused nofun
    cases (hrun e).symm.trans hvisit
    have hproblem : (Http.Response.ofResult (.error problem)).status = problem.status :=
      Http.Response.framed_status _
    omega

/-- An object that is there is sent to the end through every mount on its pool. -/
theorem Open.returns (h : g.Open) (hm : g.Serves m) {get : Visit} {bytes : Bytes}
    (hcontent : g.engine.store.content? m.ref key = some bytes)
    (hkey : Names.checkKey key = .ok ()) (hget : get.request.Asks g.table m .get key)
    (hpatience : get.patience = none) (hsince : get.request.header? "if-modified-since" = none) :
    ∃ y, (g.visit get).1 = some y ∧ y.status = 200 ∧ y.failure = none
      ∧ y.chunks.flatten = bytes := by
  obtain ⟨p, hp, hcontent⟩ := Option.bind_eq_some_iff.mp hcontent
  obtain ⟨object, hobject, rfl⟩ := Option.map_eq_some_iff.mp hcontent
  obtain ⟨r, patience⟩ := get
  cases hpatience
  have hunmodified := Http.Serve.isUnmodified_of_none hsince object.stat
  obtain ⟨y, e', hanswers, hdescribes, hsent, -⟩ :=
    (h.mounted_at hm hp).get ⟨hget.1, hget.2, rfl, hkey⟩ hobject
  obtain ⟨hflatten, hfailure⟩ := hsent hunmodified
  have hstatus := hdescribes.status
  rw [hunmodified] at hstatus
  have hvisit : (Engine.visit Clusters.client g.table ⟨r, none⟩).run g.engine = (some y, e') :=
    hanswers
  rw [visit_eq hvisit]
  exact ⟨y, rfl, hstatus, hfailure, hflatten⟩

/-- An object that was uploaded is at rest, until another visit uploads or removes it. -/
theorem rests_after_upload (hconsistent : g.engine.Consistent [])
    (hpool : (g.engine.store.poolAt? m.ref).isSome) {earlier later : List Engine.Happening}
    {put : Visit} {x : Exchange} (hput : put.request.Asks g.table m .put key)
    (hquiet : (g.after earlier).engine.store.Quiet m.ref key)
    (hvisit : ((g.after earlier).visit put).1 = some x) (hcreated : x.status = 201)
    (hlater : ∀ v, .visit v ∈ later → ¬ v.request.IsFor g.table .put m.ref key
      ∧ ¬ v.request.IsFor g.table .delete m.ref key) :
    (g.after (earlier ++ .visit put :: later)).engine.Consistent []
      ∧ (g.after (earlier ++ .visit put :: later)).engine.store.Rests m.ref key
        (some put.request.bytes)
      ∧ Names.checkKey key = .ok () := by
  rcases hserved : (Engine.visit Clusters.client g.table put).run (g.after earlier).engine with
    ⟨x?, e₁⟩
  have hvisited : (g.after earlier).visit put = (x?, { g with engine := e₁ }) := visit_eq hserved
  rw [hvisited] at hvisit
  cases hvisit
  have hafter : (g.after (earlier ++ .visit put :: later)).engine = e₁.after g.table later := by
    show (earlier ++ .visit put :: later).foldl (Engine.happen g.table) g.engine = _
    rw [List.foldl_append, List.foldl_cons]
    exact congrArg (fun answered => Engine.after g.table answered.2 later) hserved
  rw [hafter]
  obtain ⟨hconsistent', hrests⟩ :=
    hconsistent.upload_rests hpool (isFor_of_asks hput) hquiet hserved hcreated hlater
  exact ⟨hconsistent', hrests, valid_of_created hput hserved hcreated⟩

/-- Mounts on one pool show the same objects. -/
theorem shares_of_eq (hconsistent : g.engine.Consistent [])
    (hpool : (g.engine.store.poolAt? m.ref).isSome) (hopen : g.Prompt → g.Open)
    (hm : g.Serves m) (hm' : g.Serves m') (hsame : m.ref = m'.ref) : g.Shares m m' where
  stored := by
    intro earlier later put get key x y hput hget hpatience hquiet hvisit hcreated hlater hanswer
      hstatus hfailure
    obtain ⟨r, patience⟩ := get
    cases hpatience
    obtain ⟨hconsistent', hrests, -⟩ :=
      rests_after_upload hconsistent hpool hput hquiet hvisit hcreated hlater
    rcases hserved : (Engine.visit Clusters.client g.table ⟨r, none⟩).run
      (g.after (earlier ++ .visit put :: later)).engine with ⟨y?, e'⟩
    have hvisited : (g.after (earlier ++ .visit put :: later)).visit ⟨r, none⟩ =
        (y?, { g with engine := e' }) := visit_eq hserved
    rw [hvisited] at hanswer
    cases hanswer
    exact hconsistent'.download hrests (hsame ▸ isFor_of_asks hget) hserved hstatus hfailure
  returned := by
    intro hprompt earlier later put get key x hsmall hput hget hpatience hsince hvisit hcreated
      hlater
    have hearlier : (g.after earlier).Open :=
      (hopen hprompt).after hm fun happening h => hsmall happening (List.mem_append_left _ h)
    -- operations that are in time leave nothing behind
    have hquiet : (g.after earlier).engine.store.Quiet m.ref key := by
      intro job hjob
      rw [hearlier.ready.idle] at hjob
      cases hjob
    obtain ⟨-, hrests, hkey⟩ :=
      rests_after_upload hconsistent hpool hput hquiet hvisit hcreated hlater
    exact ((hopen hprompt).after hm hsmall).returns hm' (hsame ▸ hrests.content) hkey hget
      hpatience hsince
  shown := by
    intro hprompt happenings v v' key hsmall hv hv' hsince hpatience
    have hopen' := (hopen hprompt).after hm hsmall
    obtain ⟨p, hp⟩ := hopen'.pools m hm
    obtain ⟨x, p', hcomes⟩ := Visit.exists_comes_get (g.after happenings).engine.store.now p key
      v.request v.patience
    obtain ⟨e₁, hleft, -⟩ := hcomes hv.1 hv.2 rfl rfl (hopen'.mounted_at hm hp) rfl
    obtain ⟨e₂, hright, -⟩ := hcomes hv'.1 hv'.2 hsince hpatience
      (hopen'.mounted_at hm' (hsame ▸ hp)) rfl
    refine ⟨x, ?_, ?_⟩
    · rw [visit_eq hleft]
    · rw [visit_eq hright]
  listed := by
    intro hprompt happenings r r' hsmall hr hr'
    have hopen' := (hopen hprompt).after hm hsmall
    obtain ⟨p, hp⟩ := hopen'.pools m hm
    obtain ⟨x, e₁, hleft, -, hchunks, -, -⟩ := (hopen'.mounted_at hm hp).members hr.located
      hr.verb hr.permitted hr.depth hr.drained
    obtain ⟨x', e₂, hright, -, hchunks', -, -⟩ :=
      (hopen'.mounted_at hm' (hsame ▸ hp)).members hr'.located hr'.verb hr'.permitted hr'.depth
        hr'.drained
    have hvisit : (Engine.visit Clusters.client g.table ⟨r, none⟩).run
      (g.after happenings).engine = (some x, e₁) := hleft
    have hvisit' : (Engine.visit Clusters.client g.table ⟨r', none⟩).run
      (g.after happenings).engine = (some x', e₂) := hright
    refine ⟨p, x, x', ?_, ?_, hchunks, hchunks'⟩
    · rw [visit_eq hvisit]
    · rw [visit_eq hvisit']

/-- A gateway that starts is consistent and has the pools of its mounts, and while operations are in
time it is open. -/
theorem start_works {s : GatewaySettings} {here : DiskPath} {c c' : Clusters}
    (hbackend : s.store.backend = .memory) (hmemory : c.InMemory)
    (hidle : c.dispatcher.jobs = []) (h : start s here c = (.ok g, c')) :
    g.engine.Consistent [] ∧ (∀ m, g.Serves m → ∃ p, g.engine.store.poolAt? m.ref = some p)
      ∧ (g.Prompt → g.Open) := by
  obtain ⟨-, mounts, hopen, hworks⟩ := start_parts h
  obtain ⟨hgrows, hmounts⟩ := openMounts_opens hbackend hmemory hopen
  obtain ⟨-, hengine⟩ := ofMounts_parts hworks
  have hidle' : c'.dispatcher.jobs = [] := by rw [hgrows.dispatcher, hidle]
  obtain ⟨hconsistent, hstore⟩ := Engine.create_consistent hengine hidle'
  have hpools : ∀ m, g.Serves m → ∃ p, g.engine.store.poolAt? m.ref = some p := by
    intro m hm
    rw [hstore]
    exact (hmounts m ((serves_iff hworks).mp hm)).1
  exact ⟨hconsistent, hpools,
    fun hprompt => ⟨(Engine.create_ready hengine hidle').1, hpools, hprompt⟩⟩

end Gateway

/-- Two mounts of a gateway over memory clusters whose settings name the same connection and the
same pool show the same objects; and what is asked through a mount makes no difference to one whose
settings name another connection or another pool, and neither does a new pool, through whichever
mount it is made. -/
theorem mounts_share_or_part {s : GatewaySettings} {here : DiskPath} {c c' : Clusters} {g : Gateway}
    (hbackend : s.store.backend = .memory) (hmemory : c.InMemory)
    (hidle : c.dispatcher.jobs = []) (hstart : Gateway.start s here c = (.ok g, c')) :
    (∀ settings ∈ s.mounts, ∃ m, g.Serves m ∧ m.IsOf s settings)
      ∧ ∀ {settings settings' : MountSettings} {m m' : Mount}, settings ∈ s.mounts →
        settings' ∈ s.mounts → g.Serves m → g.Serves m' → m.IsOf s settings →
        m'.IsOf s settings' →
          (settings.connection = settings'.connection ∧ settings.pool = settings'.pool →
            g.Shares m m')
          ∧ (settings.connection ≠ settings'.connection ∨ settings.pool ≠ settings'.pool →
            g.Parts m m') := by
  obtain ⟨hconsistent, hpools, hopen⟩ := Gateway.start_works hbackend hmemory hidle hstart
  obtain ⟨hmounts, hrefs⟩ := Gateway.start_refs hbackend hmemory hstart
  have hpool : ∀ {m}, g.Serves m → (g.engine.store.poolAt? m.ref).isSome :=
    fun hm => Option.isSome_iff_exists.mpr (hpools _ hm)
  refine ⟨hmounts, fun {settings settings' m m'} hmem hmem' hm hm' hof hof' => ?_⟩
  have href := hrefs hmem hmem' hm hm' hof hof'
  constructor
  · intro hsame
    exact Gateway.shares_of_eq hconsistent (hpool hm) hopen hm hm' (href.mpr hsame)
  · intro hother
    have hne : m.ref ≠ m'.ref := fun hsame =>
      hother.elim (fun h => h (href.mp hsame).1) fun h => h (href.mp hsame).2
    refine Gateway.parts_of_ne ?_ hopen hm' hne
    intro happenings
    exact (hconsistent.after (Clusters.keeps_pool m'.ref) (fun _ _ _ _ => trivial) (hpool hm')).2

/-- Settings of a mount on the pool `p` that permits everything. -/
def eastMountSettings (mountpoint : String) (connection : Option String) : MountSettings where
  mountpoint := mountpoint
  pool := "p"
  connection := connection
  permissions := ⟨true, true, true, true⟩

/-- Two mounts on one pool, and one on the pool of the same name behind another connection. -/
def eastSettings : GatewaySettings where
  scheduling := ⟨.async, 1⟩
  mounts := [eastMountSettings "/a" none, eastMountSettings "/b/" none,
    eastMountSettings "/c" (some "east")]

/-- A mount with such settings. -/
def eastMount (base : String) (cluster : Nat) : Mount :=
  ⟨base, ⟨cluster, "p"⟩, 1, ⟨true, true, true, true⟩, .ofSeconds 4⟩

/-- The mounts with these settings. -/
def eastMounts : List Mount := [eastMount "/a" 0, eastMount "/b" 0, eastMount "/c" 1]

/-- Two clusters with an empty pool each. -/
def eastClusters : Clusters where
  members := [.memory (Text.padded 26 0) ⟨Shelf.set default "p" ⟨default⟩⟩,
    .memory (Text.padded 26 1) ⟨Shelf.set default "p" ⟨default⟩⟩]

/-- The gateway that starts with these settings. -/
def eastGateway : Gateway where
  table := ⟨eastMounts, none⟩
  engine := ⟨.async, ⟨1, [0], 1, [], [], 0⟩, Switchboard.fresh 1, eastClusters⟩

theorem start_east :
    Gateway.start eastSettings [] {} = (.ok eastGateway, eastClusters) := by
  have hcheck : eastSettings.check = .ok () := by decide +kernel
  have hopen : Gateway.openMounts eastSettings [] eastSettings.mounts [] {} =
      (.ok eastMounts, eastClusters) := rfl
  have hsorted : eastMounts.Pairwise fun a b => MountTable.atLeastAsLong a b = true := by
    decide +kernel
  have htwins : MountTable.twin? eastMounts = none := by decide +kernel
  have htable : MountTable.ofMounts eastMounts none = .ok ⟨eastMounts, none⟩ :=
    MountTable.ofMounts_of_sorted hsorted htwins
  have hworks : Gateway.ofMounts eastSettings eastMounts eastClusters =
      .ok eastGateway := by
    unfold Gateway.ofMounts
    rw [show eastSettings.defaultMount = none from rfl, htable]
    rfl
  unfold Gateway.start
  simp only [hcheck, hopen, hworks]

/-- Is it anything but a request for the path? -/
def Engine.Happening.isBeside (path : String) : Engine.Happening → Bool
  | .visit v => v.request.path != path
  | .pause _ | .date _ => true

/-- The object that is uploaded to `/a/k` is downloaded from `/b/k`, although another one is
uploaded to `/c/k` meanwhile; and what is told of that one is the same without the first upload. -/
theorem mounts_share_or_part_three :
    (∃ y, ((eastGateway.after [.visit (.upload "/a/k" [1, 2]),
        .visit (.upload "/c/k" [3])]).visit (.download "/b/k")).1 = some y
      ∧ y.status = 200 ∧ y.failure = none ∧ y.chunks.flatten = [1, 2])
    ∧ eastGateway.told (eastMount "/c" 1) [.visit (.upload "/c/k" [3]),
        .visit (.download "/c/k")] =
      eastGateway.told (eastMount "/c" 1) [.visit (.upload "/a/k" [1, 2]),
        .visit (.upload "/c/k" [3]), .visit (.download "/c/k")] := by
  have hmemory : ({} : Clusters).InMemory := nofun
  obtain ⟨-, hmounts⟩ := mounts_share_or_part rfl hmemory rfl start_east
  have hprompt : eastGateway.Prompt := fun _ _ _ => Nat.zero_le _
  have hlocated : ∀ {r : Http.Request}, r.path = "/a/k" →
      Http.Serve.locate eastGateway.table r = .ok ⟨eastMount "/a" 0, some "k"⟩ := by
    intro r hpath
    unfold Http.Serve.locate
    rw [hpath]
    rfl
  have ha : (eastMount "/a" 0).IsOf eastSettings (eastMountSettings "/a" none) :=
    ⟨by decide +kernel, rfl, rfl, rfl, rfl⟩
  have hb : (eastMount "/b" 0).IsOf eastSettings (eastMountSettings "/b/" none) :=
    ⟨by decide +kernel, rfl, rfl, rfl, rfl⟩
  have hc : (eastMount "/c" 1).IsOf eastSettings (eastMountSettings "/c" (some "east")) :=
    ⟨by decide +kernel, rfl, rfl, rfl, rfl⟩
  constructor
  · have hcreated : ((eastGateway.after []).visit (.upload "/a/k" [1, 2])).1 =
        some ⟨201, [("content-length", "0")], [], none⟩ := by decide +kernel
    -- the later upload is one to the other cluster
    have hlater : ∀ v, .visit v ∈ [Engine.Happening.visit (.upload "/c/k" [3])] →
        ¬ v.request.IsFor eastGateway.table .put (eastMount "/a" 0).ref "k"
          ∧ ¬ v.request.IsFor eastGateway.table .delete (eastMount "/a" 0).ref "k" := by
      intro v hv
      cases List.mem_singleton.mp hv
      have hother : Http.Serve.locate eastGateway.table (Visit.upload "/c/k" [3]).request =
        .ok ⟨eastMount "/c" 1, some "k"⟩ := rfl
      have hne : (eastMount "/c" 1).ref ≠ (eastMount "/a" 0).ref := by decide
      exact ⟨Http.Request.not_isFor hother hne .put "k",
        Http.Request.not_isFor hother hne .delete "k"⟩
    have hshares := (hmounts (by decide +kernel) (by decide +kernel) (.inl (by decide))
      (.inl (by decide)) ha hb).1 ⟨rfl, rfl⟩
    have hsmall : ∀ happening ∈ ([] ++ .visit (.upload "/a/k" [1, 2]) ::
        [.visit (.upload "/c/k" [3])] : List Engine.Happening), happening.IsSmall := by
      decide +kernel
    have hget : (Visit.download "/b/k").request.Asks eastGateway.table (eastMount "/b" 0) .get
        "k" := ⟨rfl, rfl⟩
    have hread := hshares.returned hprompt hsmall ⟨hlocated rfl, rfl⟩ hget rfl rfl hcreated rfl
      hlater
    exact hread
  · have hparts := (hmounts (by decide +kernel) (by decide +kernel) (.inl (by decide))
      (.inl (by decide)) ha hc).2 (.inl nofun)
    have hdropped : ∀ happening, Engine.Happening.isBeside "/a/k" happening = false →
        ∃ v, happening = .visit v ∧ (v.request.Through eastGateway.table (eastMount "/a" 0)
          ∨ v.request.MakesPool) := by
      intro happening hbeside
      cases happening with
      | visit v => exact ⟨v, rfl, .inl ⟨_, hlocated (bne_eq_false_iff_eq.mp hbeside)⟩⟩
      | pause span | date now => cases hbeside
    have hsmall : ∀ happening ∈ ([.visit (.upload "/a/k" [1, 2]), .visit (.upload "/c/k" [3]),
        .visit (.download "/c/k")] : List Engine.Happening), happening.IsSmall := by decide +kernel
    have htold := hparts.answers hprompt hsmall hdropped
    exact htold

end DavGateway
