import DavGateway.Http.Serve

/-!
# Responses to requests

How a request is served comes down to its result (`Http.serve_eq`), and once it leads to a mount, to
its method (`Http.Serve.request_eq`). Giving a response the length of its body changes neither its
status nor its body.
-/

namespace DavGateway

namespace Http

/-- The bytes that a request brings. -/
def Request.bytes (r : Request) : Bytes := r.body.flatMap fun
  | .ok data => data
  | .error _ => []

/-- The response to a request that was served or not. -/
def Response.ofResult : Except Problem Response → Response
  | .ok response => response.framed
  | .error problem => (Response.ofProblem problem).framed

theorem serve_eq (table : MountTable) (r : Request) : serve table r =
    (Serve.request table r).run.bind fun result => .done (Response.ofResult result) := by
  unfold serve
  congr 1
  funext result
  cases result <;> rfl

/-- A path that is not empty, decodes, is not too long and resolves leads to a mount. -/
theorem Serve.locate_eq {table : MountTable} {r : Request} {d : Destination} {path : String}
    (hpath : r.path ≠ "") (hdecode : Percent.decode? r.path = some path)
    (hlength : path.utf8ByteSize ≤ longestPath) (hresolve : table.resolve path = some d) :
    locate table r = .ok d := by
  unfold locate
  rw [if_neg hpath, hdecode]
  simp only [if_neg (Nat.not_lt_of_le hlength), hresolve]
  rfl

/-- A request is refused, or it leads to where its path resolves. -/
theorem Serve.locate_cases (table : MountTable) (r : Request) :
    (∃ problem, locate table r = .error problem ∧ 400 ≤ problem.status)
    ∨ ∃ path d, Percent.decode? r.path = some path ∧ table.resolve path = some d
      ∧ locate table r = .ok d := by
  unfold locate
  by_cases hpath : r.path = ""
  · left
    rw [if_pos hpath]
    exact ⟨_, rfl, by decide⟩
  · rw [if_neg hpath]
    cases hdecode : Percent.decode? r.path with
    | none => exact .inl ⟨_, rfl, by decide⟩
    | some path =>
      by_cases hlong : longestPath < path.utf8ByteSize
      · left
        simp only [if_pos hlong]
        exact ⟨_, rfl, by decide⟩
      · simp only [if_neg hlong]
        cases hresolve : table.resolve path with
        | none =>
          have hstatus : 400 ≤ (404 : Nat) := by decide
          exact .inl ⟨_, rfl, hstatus⟩
        | some d => exact .inr ⟨path, d, rfl, hresolve, rfl⟩

/-- Once a request leads to a mount, its method decides what is done. -/
theorem Serve.request_eq {table : MountTable} {r : Request} {d : Destination}
    (h : Serve.locate table r = .ok d) : Serve.request table r =
      match Verb.ofMethod? r.method with
      | none => throw (.methodNotAllowed d.mount.permissions.allowed)
      | some .options => return Serve.optionsResponse d.mount.permissions
      | some verb =>
        match d.key with
        | none => Serve.onRoot r d.mount verb
        | some key => Serve.onKey r d.mount verb key := by
  unfold Serve.request
  rw [h]
  rfl

@[simp] theorem Response.framed_status (r : Response) : r.framed.status = r.status := by
  unfold framed
  split
  · rfl
  · split <;> rfl

@[simp] theorem Response.framed_body (r : Response) : r.framed.body = r.body := by
  unfold framed
  split
  · rfl
  · split <;> rfl

/-- A body that needs its session has no length that is known, so none is added. -/
theorem Response.framed_of_session {r : Response} {session : OpenSession}
    (h : r.body.session? = some session) : r.framed = r := by
  unfold framed
  split
  · rfl
  · next bytes hbody =>
    rw [hbody] at h
    cases h

end Http

end DavGateway
