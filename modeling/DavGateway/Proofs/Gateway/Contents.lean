import DavGateway.Proofs.Gateway.Exchanges
import DavGateway.Proofs.Http.Lengths

/-!
# The gateway as a map

From outside, a gateway over memory clusters is a map from pools and keys to byte strings. Every
whole exchange reads the map, or changes it under the one key that the request is for
(`Contents.Answers`, `Contents.after`); slots, sessions, bridges, chunks and the order of the store
cannot be told from it.
-/

namespace DavGateway

/-- The bytes under every key of every pool, if there are any. -/
abbrev Contents := PoolRef → String → Option Bytes

/-- A request whose path decodes and leads to a mount that permits the verb: to a key that is not
empty and has no NUL, or, for a listing of the members, to the root. The body of an upload can be
kept in memory and arrives in any frames; a length that is declared for it is its length. -/
structure Http.Request.Fits (r : Http.Request) (table : MountTable) (d : Destination)
    (verb : Http.Verb) : Prop where
  path : r.path ≠ "" ∧ ∃ path, Percent.decode? r.path = some path
    ∧ path.utf8ByteSize ≤ Http.longestPath ∧ table.resolve path = some d
  method : Http.Verb.ofMethod? r.method = some verb
  permitted : verb.isPermitted d.mount.permissions
  key : match d.key with
    | some key => key ≠ "" ∧ '\x00' ∉ key.toList
    | none => verb = .propfind ∧ Http.Depth.ofRequest r = .ok .members
  body : verb = .put ∨ d.key = none → ∀ frame ∈ r.body, ∃ data, frame = .ok data
  small : verb = .put → r.bytes.length < Text.signedLimit
  framing : verb = .put → r.header? "content-length" = none
    ∨ r.header? "content-length" = some (Bytes.ofText (toString r.bytes.length))
    ∨ Http.Serve.declaredLength r = .ok (some r.bytes.length)

namespace Contents

/-- The contents with other bytes under one key. -/
def set (c : Contents) (ref : PoolRef) (key : String) (content : Option Bytes) : Contents :=
  fun ref' key' => if ref' = ref ∧ key' = key then content else c ref' key'

/-- The contents after a request. -/
def after (c : Contents) (d : Destination) (verb : Http.Verb) (r : Http.Request) : Contents :=
  match verb, d.key with
  | .put, some key => c.set d.mount.ref key (some r.bytes)
  | .delete, some key => c.set d.mount.ref key none
  | _, _ => c

/-- An exchange lists the objects of a pool, in ascending order, with the right sizes. -/
def Lists (c : Contents) (mount : Mount) (x : Exchange) : Prop :=
  ∃ objects : List (String × ObjectStat), x.status = 207 ∧ x.failure = none
    ∧ x.chunks = Bytes.ofText Http.Multistatus.opening ::
      ((objects.map fun o => Bytes.ofText (Http.Entry.object mount.base o.1 o.2).text)
        ++ [Bytes.ofText Http.Multistatus.closing])
    ∧ (objects.map Prod.fst).Pairwise (· < ·)
    ∧ ∀ key size, (∃ mtime, (key, ⟨size, mtime⟩) ∈ objects) ↔
      (c mount.ref key).map List.length = some size

/-- The exchange that a request has to lead to on these contents. -/
def Answers (c : Contents) (d : Destination) (verb : Http.Verb) (r : Http.Request)
    (x : Exchange) : Prop :=
  match verb, d.key with
  | .put, some _ => x.status = 201
  | .get, some key =>
    match c d.mount.ref key with
    | some bytes => r.header? "if-modified-since" = none →
      x.status = 200 ∧ x.chunks.flatten = bytes ∧ x.failure = none
        ∧ x.headers.lookup "content-length" = some (toString bytes.length)
    | none => x.status = 404
  | .head, some key => (c d.mount.ref key).isSome → x.chunks = []
  | .delete, some key => x.status = if (c d.mount.ref key).isSome then 200 else 404
  | .propfind, none => c.Lists d.mount x
  | _, _ => True

end Contents

/-- A path leads to one of the mounts, or to the default mount. -/
theorem MountTable.resolve_mount {t : MountTable} {path : String} {d : Destination}
    (h : t.resolve path = some d) : d.mount ∈ t.mounts ∨ t.fallback = some d.mount := by
  rcases Option.map_eq_some_iff.mp h with ⟨⟨mount, rest⟩, hfound, rfl⟩
  split at hfound
  · next mount' rest' hcovering =>
    cases hfound
    rcases List.exists_of_findSome?_eq_some hcovering with ⟨m, hmem, hm⟩
    rcases Option.map_eq_some_iff.mp hm with ⟨rest'', -, hpair⟩
    cases hpair
    exact .inl hmem
  · rcases Option.map_eq_some_iff.mp hfound with ⟨m, hfallback, hpair⟩
    cases hpair
    exact .inr hfallback

namespace Gateway

/-- What the gateway holds. -/
def contents (g : Gateway) : Contents := g.engine.store.content?

/-- The gateway at another time. -/
def atTime (g : Gateway) (now : Int) : Gateway :=
  { g with engine := { g.engine with store := { g.engine.store with now := now } } }

/-- A request is answered as it has to be on the contents before it, and leaves the contents that
it has to leave. The answer to HEAD has the status and the header fields of the one to GET. -/
structure Exchanges (g : Gateway) (r : Http.Request) (d : Destination) (verb : Http.Verb)
    (x : Exchange) (g' : Gateway) : Prop where
  exchange : g.exchange r = (some x, g')
  answers : g.contents.Answers d verb r x
  contents : g'.contents = g.contents.after d verb r
  head : verb = .head → ∃ y g'', g.exchange { r with method := "GET" } = (some y, g'')
    ∧ x.status = y.status ∧ x.headers = y.headers

/-- Requests are made one after the other, each at any time, and every one is answered as it has
to be. -/
def Faithful (g : Gateway) : List Http.Request → Prop
  | [] => True
  | r :: rest => ∀ now, ∃ d verb x g', r.Fits g.table d verb
    ∧ (g.atTime now).Exchanges r d verb x g' ∧ g'.Faithful rest

/-! ## Between two requests -/

/-- No request is under way, the pools of all mounts are there, and operations are in time. -/
structure Open (g : Gateway) : Prop where
  ready : g.engine.Ready
  pools : ∀ m, m ∈ g.table.mounts ∨ g.table.fallback = some m →
    ∃ p, g.engine.store.poolAt? m.ref = some p
  prompt : ∀ m, m ∈ g.table.mounts ∨ g.table.fallback = some m →
    ∀ number, (g.engine.store.dispatcher.delay number).nanos ≤ m.limit.nanos

variable {g g' : Gateway} {e' : Engine Clusters} {r : Http.Request} {x : Exchange}
variable {d : Destination} {verb : Http.Verb} {p p' : MemoryPool}

theorem Open.atTime (h : g.Open) (now : Int) : (g.atTime now).Open where
  ready := ⟨h.ready.free, h.ready.permits, h.ready.queue, h.ready.idle, h.ready.wired⟩
  pools := h.pools
  prompt := h.prompt

theorem Open.mounted (h : g.Open) {path : String} (hpath : g.table.resolve path = some d) :
    ∃ p, g.engine.Mounted d.mount p := by
  have hmount := MountTable.resolve_mount hpath
  rcases h.pools d.mount hmount with ⟨p, hp⟩
  exact ⟨p, h.ready, hp, h.prompt d.mount hmount⟩

/-- The gateway stays open when an exchange has changed one pool. -/
theorem Open.settled (h : g.Open) {ref : PoolRef} (hsettled : g.engine.Settled e' ref p') :
    ({ g with engine := e' } : Gateway).Open where
  ready := hsettled.ready
  pools := by
    intro m hm
    by_cases hsame : m.ref = ref
    · exact ⟨p', hsame ▸ hsettled.pool⟩
    · rcases h.pools m hm with ⟨p, hp⟩
      exact ⟨p, (hsettled.beside.others m.ref hsame).trans hp⟩
  prompt := by
    intro m hm number
    rw [hsettled.beside.delay]
    exact h.prompt m hm number

/-- What an exchange leaves in the pool is what the gateway then holds in it. -/
theorem contents_settled {ref : PoolRef} (hsettled : g.engine.Settled e' ref p') (other : PoolRef)
    (key : String) : ({ g with engine := e' } : Gateway).contents other key =
      if other = ref then p'.content? key else g.contents other key := by
  show e'.store.content? other key = if other = ref then p'.content? key
    else g.engine.store.content? other key
  unfold Clusters.content?
  split
  · next hsame =>
    rw [hsame, hsettled.pool]
    rfl
  · next hother => rw [hsettled.beside.others other hother]

theorem contents_of_pool {ref : PoolRef} (hpool : g.engine.store.poolAt? ref = some p)
    (key : String) : g.contents ref key = p.content? key := by
  show g.engine.store.content? ref key = p.content? key
  rw [Clusters.content?, hpool]
  rfl

/-- An exchange that leaves the pool as it is leaves the contents as they are. -/
theorem contents_unchanged {ref : PoolRef} (hpool : g.engine.store.poolAt? ref = some p)
    (hsettled : g.engine.Settled e' ref p) :
    ({ g with engine := e' } : Gateway).contents = g.contents := by
  funext other key
  rw [contents_settled hsettled]
  split
  · next hsame => rw [hsame, contents_of_pool hpool]
  · rfl

/-- An exchange that changes one key of the pool. -/
theorem contents_stored {ref : PoolRef} {key : String} {content : Option Bytes}
    (hpool : g.engine.store.poolAt? ref = some p) (hsettled : g.engine.Settled e' ref p')
    (hstored : Upload.Stored p p' key content) :
    ({ g with engine := e' } : Gateway).contents = g.contents.set ref key content := by
  funext other key'
  rw [contents_settled hsettled]
  unfold Contents.set
  -- another pool is not touched, and in this one another key is not
  by_cases hsame : other = ref
  · rw [if_pos hsame, hsame]
    by_cases hkey : key' = key
    · rw [if_pos ⟨rfl, hkey⟩, hkey, hstored.content]
    · rw [if_neg fun h : ref = ref ∧ key' = key => hkey h.2]
      rw [contents_of_pool hpool]
      exact congrArg (Option.map _) (hstored.others key' hkey)
  · rw [if_neg hsame, if_neg fun h : other = ref ∧ key' = key => hsame h.1]

end Gateway

/-! ## One request -/

namespace Http.Request.Fits

variable {r : Http.Request} {table : MountTable} {d : Destination} {verb : Http.Verb}
variable {mount : Mount} {key : String}

theorem located (h : r.Fits table d verb) : Http.Serve.locate table r = .ok d := by
  rcases h.path with ⟨hne, path, hdecode, hlength, hresolve⟩
  exact Http.Serve.locate_eq hne hdecode hlength hresolve

theorem asksFor (h : r.Fits table ⟨mount, some key⟩ verb) :
    Engine.AsksFor table r verb mount key where
  located := h.located
  method := h.method
  permitted := h.permitted
  valid := by
    obtain ⟨hne, hnul⟩ : key ≠ "" ∧ '\x00' ∉ key.toList := h.key
    unfold Names.checkKey
    rw [if_neg hne, if_neg hnul]

/-- The chunks of a body that arrives are its bytes. -/
theorem frames (h : r.Fits table d verb) (hbody : verb = .put ∨ d.key = none) :
    ∃ frames : List Bytes, r.body = frames.map .ok ∧ frames.flatten = r.bytes := by
  have harrives := h.body hbody
  unfold Http.Request.bytes
  generalize r.body = body at harrives
  induction body with
  | nil => exact ⟨[], rfl, rfl⟩
  | cons frame rest ih =>
    rcases harrives frame List.mem_cons_self with ⟨data, rfl⟩
    rcases ih fun f hf => harrives f (List.mem_cons_of_mem _ hf) with ⟨frames, hframes, hflatten⟩
    refine ⟨data :: frames, ?_, ?_⟩
    · rw [hframes, List.map_cons]
    · rw [List.flatten_cons, hflatten, List.flatMap_cons]

theorem declares (h : r.Fits table d .put) :
    ∃ declared, Http.Serve.declaredLength r = .ok declared
      ∧ ∀ length, declared = some length → length = r.bytes.length := by
  have hexact : Http.Serve.declaredLength r = .ok (some r.bytes.length) →
      ∃ declared, Http.Serve.declaredLength r = .ok declared
        ∧ ∀ length, declared = some length → length = r.bytes.length := by
    intro hlength
    refine ⟨_, hlength, ?_⟩
    intro length hsame
    cases hsame
    rfl
  rcases h.framing rfl with hnone | hdecimal | hlength
  · refine ⟨none, ?_, nofun⟩
    unfold Http.Serve.declaredLength
    rw [hnone]
  · have hword : r.bytes.length < Text.wordLimit := Nat.lt_trans (h.small rfl) (by decide)
    exact hexact (Http.Serve.declaredLength_decimal hdecimal hword)
  · exact hexact hlength

end Http.Request.Fits

namespace Gateway

variable {g g' : Gateway} {e' : Engine Clusters} {r : Http.Request} {x : Exchange}
variable {mount : Mount} {verb : Http.Verb} {key : String}

theorem exchange_of_answers (h : g.engine.Answers g.table r x e') :
    g.exchange r = (some x, { g with engine := e' }) := by
  have hrun : (Engine.exchange Clusters.client g.table r).run.run g.engine = (some x, e') := h
  unfold exchange
  rw [hrun]

theorem Open.put (h : g.Open) (hfits : r.Fits g.table ⟨mount, some key⟩ .put) :
    ∃ x g', g.Exchanges r ⟨mount, some key⟩ .put x g' ∧ g'.Open ∧ g'.table = g.table := by
  rcases hfits.path with ⟨-, path, -, -, hpath⟩
  rcases h.mounted hpath with ⟨p, hmounted⟩
  rcases hfits.frames (.inl rfl) with ⟨frames, hframes, hflatten⟩
  rcases hfits.declares with ⟨declared, hdeclared, hlength⟩
  have hsmall := hfits.small rfl
  rw [← hflatten] at hlength hsmall
  rcases hmounted.put hfits.asksFor hframes hdeclared hlength hsmall
      with ⟨x, e', p', hanswers, hstatus, hsettled, hstored⟩
  rw [hflatten] at hstored
  refine ⟨x, { g with engine := e' }, ⟨exchange_of_answers hanswers, hstatus, ?_,
    (absurd · (by decide))⟩, h.settled hsettled, rfl⟩
  exact contents_stored hmounted.pool hsettled hstored

/-- A request that leaves its pool as it is. -/
theorem Open.unchanged (h : g.Open) {d : Destination} {p : MemoryPool}
    (hpool : g.engine.store.poolAt? d.mount.ref = some p)
    (hanswers : g.engine.Answers g.table r x e') (hsettled : g.engine.Settled e' d.mount.ref p)
    (hafter : g.contents.after d verb r = g.contents) (hx : g.contents.Answers d verb r x)
    (hhead : verb = .head → ∃ y g'', g.exchange { r with method := "GET" } = (some y, g'')
      ∧ x.status = y.status ∧ x.headers = y.headers) :
    ∃ x g', g.Exchanges r d verb x g' ∧ g'.Open ∧ g'.table = g.table := by
  refine ⟨x, { g with engine := e' }, ⟨exchange_of_answers hanswers, hx, ?_, hhead⟩,
    h.settled hsettled, rfl⟩
  rw [hafter]
  exact contents_unchanged hpool hsettled

theorem Open.get (h : g.Open) (hfits : r.Fits g.table ⟨mount, some key⟩ .get) :
    ∃ x g', g.Exchanges r ⟨mount, some key⟩ .get x g' ∧ g'.Open ∧ g'.table = g.table := by
  rcases hfits.path with ⟨-, path, -, -, hpath⟩
  rcases h.mounted hpath with ⟨p, hmounted⟩
  have hcontents := contents_of_pool hmounted.pool key
  cases hget : p.objects.get? key with
  | some object =>
    -- the answer is a description of the object and its bytes
    rcases hmounted.get hfits.asksFor hget with ⟨x, e', hanswers, hdescribes, hsent, hsettled⟩
    refine h.unchanged hmounted.pool hanswers hsettled rfl ?_ (absurd · (by decide))
    have hbytes : g.contents mount.ref key = some object.data := by
      rw [hcontents, MemoryPool.content?, hget]
      rfl
    unfold Contents.Answers
    simp only [hbytes]
    intro hsince
    have hmodified := Http.Serve.isUnmodified_of_none hsince object.stat
    rcases hsent hmodified with ⟨hflatten, hfailure⟩
    have hstatus := hdescribes.status
    have hheaders := hdescribes.headers
    rw [hmodified] at hstatus hheaders
    refine ⟨hstatus, hflatten, hfailure, ?_⟩
    rw [hheaders]
    rfl
  | none =>
    rcases hmounted.missing hfits.asksFor hget
        (by decide) (by decide) (by decide) with ⟨e', hanswers, hsettled⟩
    refine h.unchanged hmounted.pool hanswers hsettled rfl ?_ (absurd · (by decide))
    have hnone : g.contents mount.ref key = none := by
      rw [hcontents, MemoryPool.content?, hget]
      rfl
    unfold Contents.Answers
    simp only [hnone]
    rfl

theorem Open.head (h : g.Open) (hfits : r.Fits g.table ⟨mount, some key⟩ .head) :
    ∃ x g', g.Exchanges r ⟨mount, some key⟩ .head x g' ∧ g'.Open ∧ g'.table = g.table := by
  rcases hfits.path with ⟨-, path, -, -, hpath⟩
  rcases h.mounted hpath with ⟨p, hmounted⟩
  have hcontents := contents_of_pool hmounted.pool key
  have hask := hfits.asksFor
  -- the same request with the other method is served on the same state
  have hget : Engine.AsksFor g.table { r with method := "GET" } .get mount key :=
    ⟨hask.located, rfl, rfl, hask.valid⟩
  cases hobject : p.objects.get? key with
  | some object =>
    rcases hmounted.head hask hobject with ⟨x, e', hanswers, hdescribes, hempty, hsettled⟩
    rcases hmounted.get hget hobject with ⟨y, e'', hanswers', hdescribes', -, -⟩
    refine h.unchanged hmounted.pool hanswers hsettled rfl (fun _ => hempty) fun _ => ?_
    refine ⟨y, _, exchange_of_answers hanswers', ?_, ?_⟩
    · exact hdescribes.status.trans hdescribes'.status.symm
    · exact hdescribes.headers.trans hdescribes'.headers.symm
  | none =>
    rcases hmounted.missing hask hobject
        (by decide) (by decide) (by decide) with ⟨e', hanswers, hsettled⟩
    rcases hmounted.missing hget hobject
        (by decide) (by decide) (by decide) with ⟨e'', hanswers', -⟩
    refine h.unchanged hmounted.pool hanswers hsettled rfl ?_ fun _ =>
      ⟨_, _, exchange_of_answers hanswers', rfl, rfl⟩
    intro hsome
    rw [hcontents, MemoryPool.content?, hobject] at hsome
    cases hsome

theorem Open.delete (h : g.Open) (hfits : r.Fits g.table ⟨mount, some key⟩ .delete) :
    ∃ x g', g.Exchanges r ⟨mount, some key⟩ .delete x g' ∧ g'.Open ∧ g'.table = g.table := by
  rcases hfits.path with ⟨-, path, -, -, hpath⟩
  rcases h.mounted hpath with ⟨p, hmounted⟩
  have hcontents := contents_of_pool hmounted.pool key
  cases hobject : p.objects.get? key with
  | some object =>
    rcases hmounted.delete hfits.asksFor hobject with ⟨x, e', hanswers, hstatus, hsettled⟩
    have hstored : Upload.Stored p ⟨p.objects.erase key⟩ key none := by
      constructor
      · rw [MemoryPool.content?, Shelf.get?_erase, if_pos rfl, Option.map_none]
      · intro other hne
        rw [Shelf.get?_erase, if_neg hne]
    refine ⟨x, { g with engine := e' }, ⟨exchange_of_answers hanswers, ?_, ?_,
      (absurd · (by decide))⟩, h.settled hsettled, rfl⟩
    · show x.status = if (g.contents mount.ref key).isSome then 200 else 404
      rw [hcontents, MemoryPool.content?, hobject]
      exact hstatus
    · exact contents_stored hmounted.pool hsettled hstored
  | none =>
    rcases hmounted.missing hfits.asksFor hobject
        (by decide) (by decide) (by decide) with ⟨e', hanswers, hsettled⟩
    have hnone : g.contents mount.ref key = none := by
      rw [hcontents, MemoryPool.content?, hobject]
      rfl
    refine ⟨_, { g with engine := e' }, ⟨exchange_of_answers hanswers, ?_, ?_,
      (absurd · (by decide))⟩, h.settled hsettled, rfl⟩
    · show _ = if (g.contents mount.ref key).isSome then 200 else 404
      rw [hnone]
      rfl
    · -- taking away what is not there changes nothing
      rw [contents_unchanged hmounted.pool hsettled]
      funext other key'
      show g.contents other key' = if other = mount.ref ∧ key' = key then none else _
      split
      · next hsame => rw [hsame.1, hsame.2, hnone]
      · rfl

/-- A document about one object tells what is there, and changes nothing. -/
theorem Open.propfind (h : g.Open) (hfits : r.Fits g.table ⟨mount, some key⟩ .propfind) :
    ∃ x g', g.Exchanges r ⟨mount, some key⟩ .propfind x g' ∧ g'.Open ∧ g'.table = g.table := by
  rcases hfits.path with ⟨-, path, -, -, hpath⟩
  rcases h.mounted hpath with ⟨p, hmounted⟩
  cases hobject : p.objects.get? key with
  | some object =>
    rcases hmounted.propfind hfits.asksFor hobject with ⟨x, e', hanswers, hsettled⟩
    exact h.unchanged hmounted.pool hanswers hsettled rfl trivial (absurd · (by decide))
  | none =>
    rcases hmounted.missing hfits.asksFor hobject
        (by decide) (by decide) (by decide) with ⟨e', hanswers, hsettled⟩
    exact h.unchanged hmounted.pool hanswers hsettled rfl trivial (absurd · (by decide))

theorem Open.options (h : g.Open) {d : Destination} (hfits : r.Fits g.table d .options) :
    ∃ x g', g.Exchanges r d .options x g' ∧ g'.Open ∧ g'.table = g.table := by
  rcases Engine.options_answers g.engine hfits.located hfits.method with ⟨x, hanswers⟩
  exact ⟨x, g, ⟨exchange_of_answers hanswers, trivial, rfl, (absurd · (by decide))⟩, h, rfl⟩

/-- The gateway stays open when a pool is made. -/
theorem Open.createPool (h : g.Open) (ref : PoolRef) :
    ({ g with engine := { g.engine with store := (g.engine.store.createPool ref).2 } } :
      Gateway).Open := by
  rcases g.engine.store.createPool_keeps ref with ⟨-, hdispatcher⟩
  refine ⟨⟨h.ready.free, h.ready.permits, h.ready.queue, ?_, h.ready.wired⟩, ?_, ?_⟩
  · rw [hdispatcher]
    exact h.ready.idle
  · intro m hm
    rcases h.pools m hm with ⟨p, hp⟩
    exact ⟨p, g.engine.store.poolAt?_createPool_of_some ref hp⟩
  · intro m hm number
    rw [hdispatcher]
    exact h.prompt m hm number

/-- A new pool is empty, and the pools that are there stay. -/
theorem Open.mkcol (h : g.Open) (hfits : r.Fits g.table ⟨mount, some key⟩ .mkcol) :
    ∃ x g', g.Exchanges r ⟨mount, some key⟩ .mkcol x g' ∧ g'.Open ∧ g'.table = g.table := by
  rcases Engine.mkcol_answers g.engine hfits.asksFor with ⟨x, e', hanswers, rfl | ⟨ref, rfl⟩⟩
  · exact ⟨x, g, ⟨exchange_of_answers hanswers, trivial, rfl, (absurd · (by decide))⟩, h, rfl⟩
  · refine ⟨x, _, ⟨exchange_of_answers hanswers, trivial, ?_, (absurd · (by decide))⟩,
      h.createPool ref, rfl⟩
    funext other key'
    exact g.engine.store.content?_createPool ref other key'

/-- The entries of a listing are the objects of the pool. -/
theorem lists_of_listing {p : MemoryPool} (hpool : g.engine.store.poolAt? mount.ref = some p)
    (hstatus : x.status = 207) (hchunks : x.chunks = Engine.listing mount.base p)
    (hfailure : x.failure = none) : g.contents.Lists mount x := by
  refine ⟨p.objects.entries.map fun entry => (entry.1, entry.2.stat),
    hstatus, hfailure, ?_, ?_, fun key size => ?_⟩
  · rw [hchunks, Engine.listing]
    simp only [List.map_map, Function.comp_def]
  · simp only [List.map_map, Function.comp_def]
    exact p.objects.keys_pairwise
  · rw [contents_of_pool hpool, MemoryPool.content?, Option.map_map, Option.map_eq_some_iff]
    constructor
    -- an entry is an object of the pool, and the other way round
    · rintro ⟨mtime, hmem⟩
      rcases List.mem_map.mp hmem with ⟨⟨key', object⟩, hentry, hsame⟩
      cases hsame
      exact ⟨object, Shelf.mem_entries.mp hentry, rfl⟩
    · rintro ⟨object, hobject, hsize⟩
      refine ⟨object.mtime, List.mem_map.mpr ⟨(key, object), Shelf.mem_entries.mpr hobject, ?_⟩⟩
      rw [← hsize]
      rfl

theorem Open.members (h : g.Open) (hfits : r.Fits g.table ⟨mount, none⟩ verb) :
    ∃ x g', g.Exchanges r ⟨mount, none⟩ verb x g' ∧ g'.Open ∧ g'.table = g.table := by
  rcases hfits.path with ⟨-, path, -, -, hpath⟩
  rcases h.mounted hpath with ⟨p, hmounted⟩
  obtain ⟨rfl, hdepth⟩ : verb = .propfind ∧ Http.Depth.ofRequest r = .ok .members := hfits.key
  rcases hfits.frames (.inr rfl) with ⟨frames, hframes, -⟩
  have hdrain : Http.Serve.drain r.body = .ok () := by
    unfold Http.Serve.drain
    rw [hframes]
    clear hframes
    induction frames with
    | nil => rfl
    | cons frame rest ih => exact ih
  rcases hmounted.members hfits.located hfits.method hfits.permitted hdepth hdrain
      with ⟨x, e', hanswers, hstatus, hchunks, hfailure, hsettled⟩
  exact h.unchanged hmounted.pool hanswers hsettled rfl
    (lists_of_listing hmounted.pool hstatus hchunks hfailure) (absurd · (by decide))

/-- Every request that fits is answered as it has to be. -/
theorem Open.exchanges (h : g.Open) {d : Destination} (hfits : r.Fits g.table d verb) :
    ∃ x g', g.Exchanges r d verb x g' ∧ g'.Open ∧ g'.table = g.table := by
  rcases d with ⟨mount, key?⟩
  -- only listings are made for the root
  cases key? with
  | none => exact h.members hfits
  | some key =>
    cases verb with
    | options => exact h.options hfits
    | get => exact h.get hfits
    | head => exact h.head hfits
    | put => exact h.put hfits
    | delete => exact h.delete hfits
    | mkcol => exact h.mkcol hfits
    | propfind => exact h.propfind hfits

/-- A gateway that is open stays faithful, whatever is asked. -/
theorem Open.faithful (h : g.Open) (requests : List Http.Request)
    (hfits : ∀ r ∈ requests, ∃ d verb, r.Fits g.table d verb) : g.Faithful requests := by
  -- induction on the requests: each exchange leaves the gateway open, with the same table
  induction requests generalizing g with
  | nil => trivial
  | cons r rest ih =>
    intro now
    rcases hfits r List.mem_cons_self with ⟨d, verb, hr⟩
    rcases (h.atTime now).exchanges hr with ⟨x, g', hexchanges, hopen, htable⟩
    refine ⟨d, verb, x, g', hr, hexchanges, ih hopen fun r' hr' => ?_⟩
    rw [htable]
    exact hfits r' (List.mem_cons_of_mem _ hr')

end Gateway

end DavGateway
