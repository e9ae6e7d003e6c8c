import DavGateway.Proofs.Http.Stages

/-!
# Which requests open a session

A request opens a session for one of two things: to check whether an object exists
(`Request.Checks`), which it does at once then, or to list the members of a mount (`Request.Lists`).
All others are served or refused without one (`Http.serve_only`). A session is held on after the
response only for the bytes of an object or for a listing (`Http.serve_needs`).
-/

namespace DavGateway

/-- Rules that allow everything. -/
def Flow.Protocol.free (C : Type) (R : C → Type) : Flow.Protocol C R Unit where
  may _ _ := True
  can _ _ _ := True
  next _ _ _ := ()

/-- The call makes a pool, for which no session is needed. -/
def GatewayCall.MakesPool (call : GatewayCall) : Prop := ∃ ref, call = .createPool ref

/-- The call looks whether an object is there. -/
def GatewayCall.LooksUp (call : GatewayCall) : Prop :=
  ∃ session key, call = .within session (.operate (.stat key))

namespace Http

variable {table : MountTable} {r : Request} {mount : Mount} {key : String} {verb : Verb}

/-- The request comes to the existence check of an object: its path leads below the root of a mount
that permits its verb, which works on objects, and the key is one. -/
structure Request.Checks (table : MountTable) (r : Request) (mount : Mount) (key : String) :
    Prop where
  located : Serve.locate table r = .ok ⟨mount, some key⟩
  verb : ∃ verb, Verb.ofMethod? r.method = some verb ∧ verb ≠ .options ∧ verb ≠ .mkcol
    ∧ verb.isPermitted mount.permissions = true
  valid : Names.checkKey key = .ok ()

/-- The request lists the members of a mount: its path leads to the root, and it asks for more than
the root itself. -/
structure Request.Lists (table : MountTable) (r : Request) (mount : Mount) : Prop where
  located : Serve.locate table r = .ok ⟨mount, none⟩
  verb : Verb.ofMethod? r.method = some .propfind
  permitted : mount.permissions.propfind = true
  depth : Depth.ofRequest r = .ok .members
  drained : Serve.drain r.body = .ok ()

namespace Serve

/-- A request that ends before a session is opened makes no call, but for a new pool. -/
theorem only_makesPool_onKey (hnone : ¬ (verb ≠ .mkcol ∧ verb.isPermitted mount.permissions = true
      ∧ Names.checkKey key = .ok ())) :
    (onKey r mount verb key).run.Only GatewayCall.MakesPool := by
  unfold onKey
  split
  · trivial
  · next hpermitted =>
    split
    · unfold makePool GatewayFlow.createPool
      split
      · trivial
      · exact ⟨⟨_, rfl⟩, fun answer => by cases answer <;> trivial⟩
    · next hverb =>
      cases hkey : Names.checkKey key with
      | error failure => trivial
      | ok => exact absurd ⟨hverb, by simpa using hpermitted, hkey⟩ hnone

theorem only_makesPool_onRoot (hnone : ¬ (verb = .propfind ∧ mount.permissions.propfind = true
      ∧ Depth.ofRequest r = .ok .members ∧ drain r.body = .ok ())) :
    (onRoot r mount verb).run.Only GatewayCall.MakesPool := by
  unfold onRoot
  split
  · next hpropfind =>
    cases hdepth : Depth.ofRequest r with
    | error problem => trivial
    | ok depth =>
      cases hdrain : drain r.body with
      | error problem => trivial
      | ok =>
        cases depth with
        | itself => trivial
        | members => exact absurd ⟨hpropfind.1, hpropfind.2, hdepth, hdrain⟩ hnone
  · trivial

end Serve

/-- A request that neither checks an object nor lists members makes no call, but for a new pool. -/
theorem serve_only (hchecks : ∀ mount key, ¬ r.Checks table mount key)
    (hlists : ∀ mount, ¬ r.Lists table mount) :
    (serve table r).Only GatewayCall.MakesPool := by
  have hrequest : (Serve.request table r).run.Only GatewayCall.MakesPool := by
    cases hlocate : Serve.locate table r with
    | error problem =>
      unfold Serve.request
      rw [hlocate]
      trivial
    | ok d =>
      obtain ⟨mount, key?⟩ := d
      rw [Serve.request_eq hlocate]
      cases hverb : Verb.ofMethod? r.method with
      | none => trivial
      | some verb =>
        cases key? with
        | none =>
          have hroot : (Serve.onRoot r mount verb).run.Only GatewayCall.MakesPool := by
            apply Serve.only_makesPool_onRoot
            rintro ⟨rfl, hpermitted, hdepth, hdrain⟩
            exact hlists mount ⟨hlocate, hverb, hpermitted, hdepth, hdrain⟩
          cases verb with
          | options => trivial
          | get | head | put | delete | mkcol | propfind => exact hroot
        | some key =>
          have hkey : verb ≠ .options →
              (Serve.onKey r mount verb key).run.Only GatewayCall.MakesPool := by
            intro hoptions
            apply Serve.only_makesPool_onKey
            rintro ⟨hmkcol, hpermitted, hvalid⟩
            exact hchecks mount key ⟨hlocate, ⟨verb, hverb, hoptions, hmkcol, hpermitted⟩, hvalid⟩
          cases verb with
          | options => trivial
          | get | head | put | delete | mkcol | propfind => exact hkey (by decide)
  rw [serve_eq]
  exact Flow.Only.bind hrequest fun result => trivial

/-- A request that checks an object asks for a session first, and then for the object. -/
theorem serve_checks (h : r.Checks table mount key) :
    ∃ resume, serve table r = .ask (.enter mount.ref mount.limit) resume
      ∧ ∀ session, ∃ resume', resume (.ok session) =
        .ask (.within session (.operate (.stat key))) resume' := by
  obtain ⟨verb, hverb, hoptions, hmkcol, hpermitted⟩ := h.verb
  have hrequest : Serve.request table r = Serve.onKey r mount verb key := by
    rw [Serve.request_eq h.located, hverb]
    cases verb <;> first | rfl | exact absurd rfl hoptions
  rw [serve_eq, hrequest]
  unfold Serve.onKey
  rw [if_neg (by simpa using hpermitted), if_neg hmkcol, h.valid]
  exact ⟨_, rfl, fun session => ⟨_, rfl⟩⟩

/-- The request asks for the methods, makes a pool, or is for the root of a mount itself; or it is
over before it looks for an object, and does not list members. -/
def Request.StaysOutside (table : MountTable) (r : Request) : Prop :=
  Verb.ofMethod? r.method = some .options ∨ Verb.ofMethod? r.method = some .mkcol
    ∨ (Verb.ofMethod? r.method = some .propfind ∧ Depth.ofRequest r = .ok .itself
      ∧ ∃ mount, Serve.locate table r = .ok ⟨mount, none⟩)
    ∨ ((serve table r).Only (fun call => ¬ call.LooksUp) ∧ ∀ mount, ¬ r.Lists table mount)

/-- A request that stays outside makes no call, but for a new pool. -/
theorem Request.StaysOutside.only (h : r.StaysOutside table) :
    (serve table r).Only GatewayCall.MakesPool := by
  apply serve_only
  · intro mount key hchecks
    obtain ⟨verb, hverb, hoptions, hmkcol, -⟩ := hchecks.verb
    rcases h with hmethod | hmethod | ⟨-, -, other, hlocated⟩ | ⟨honly, -⟩
    · exact hoptions (Option.some.inj (hverb.symm.trans hmethod))
    · exact hmkcol (Option.some.inj (hverb.symm.trans hmethod))
    · cases hchecks.located.symm.trans hlocated
    · obtain ⟨resume, hserve, hresume⟩ := serve_checks hchecks
      obtain ⟨rest, hrest⟩ := hresume ⟨0, none, mount.ref, mount.limit⟩
      rw [hserve] at honly
      have hopened := honly.2 (.ok ⟨0, none, mount.ref, mount.limit⟩)
      rw [hrest] at hopened
      exact hopened.1 ⟨_, key, rfl⟩
  · intro mount hlists
    rcases h with hmethod | hmethod | ⟨-, hdepth, -⟩ | ⟨-, hnone⟩
    · cases hlists.verb.symm.trans hmethod
    · cases hlists.verb.symm.trans hmethod
    · cases hlists.depth.symm.trans hdepth
    · exact hnone mount hlists

/-! ## Sessions behind the response -/

namespace Serve

open DavGateway.Flow (Follows)

variable {α δ : Type} {ok : α → Prop}

/-- Whatever the calls are answered, the step ends with a result of which `ok` holds, or the request
is refused. -/
def Ends (ok : α → Prop) (x : ServeM α) : Prop :=
  Follows (Flow.Protocol.free GatewayCall GatewayCall.Answer) (fun _ => ok) Problem.Refuses () x

theorem Ends.bind {ok' : δ → Prop} {x : ServeM α} {f : α → ServeM δ} (hx : Ends ok x)
    (hf : ∀ a, ok a → Ends ok' (f a)) : Ends ok' (x >>= f) :=
  Follows.bind hx fun _ a ha => hf a ha

/-- A response needs a session exactly if its status is one of which `P` holds. -/
def NeedsWhen (P : Nat → Prop) (response : Response) : Prop :=
  response.body.session?.isSome = true ↔ P response.status

variable {session : OpenSession} {P : Nat → Prop}

/-- Whether a session is closed does not depend on what is done then. -/
theorem Ends.closing {body : ServeM Response} (hbody : Ends (NeedsWhen P) body) :
    Ends (NeedsWhen P) (closing session body) := by
  refine Flow.Obeys.bind hbody ?_
  intro _ result hresult
  cases result with
  | error problem => exact ⟨trivial, fun _ _ => hresult⟩
  | ok response =>
    simp only
    split
    · exact hresult
    · exact ⟨trivial, fun _ _ => hresult⟩

end Serve

end Http

end DavGateway
