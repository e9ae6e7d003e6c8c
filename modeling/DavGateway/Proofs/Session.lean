import DavGateway.Proofs.Flow
import DavGateway.Proofs.Store.Memory

/-!
# Sessions on a pool alone

A session makes its calls one after the other and nobody else changes its pool meanwhile, so what
it does can be told from the pool alone: `MemoryPool.Runs` says what a flow hands out, how it ends
and which pool it leaves. Every way to open a session on a memory pool comes down to this.
-/

namespace DavGateway

/-- A flow of a session is run on a pool at the time `now`: it hands out `items`, ends with `result`
and leaves the pool `p'`. All its writes are small. -/
inductive MemoryPool.Runs (now : Int) {β α : Type} :
    MemoryPool → SessionFlow β α → List β → α → MemoryPool → Prop
  | done (p : MemoryPool) (result : α) : Runs now p (.done result) [] result p
  | emit {p p' : MemoryPool} {item : β} {rest : SessionFlow β α} {items : List β} {result : α}
      (h : Runs now p rest items result p') : Runs now p (.emit item rest) (item :: items) result p'
  | ask {p p' : MemoryPool} {call : SessionCall} {resume : call.Answer → SessionFlow β α}
      {items : List β} {result : α} (hsmall : call.Small)
      (h : Runs now (p.answer now call).2 (resume (p.answer now call).1) items result p') :
      Runs now p (.ask call resume) items result p'

namespace MemoryPool.Runs

variable {now : Int} {β γ α δ : Type} {p p' p'' : MemoryPool} {items items' : List β}

theorem bind {x : SessionFlow β α} {f : α → SessionFlow β δ} {a : α} {result : δ}
    (hx : p.Runs now x items a p') (hf : p'.Runs now (f a) items' result p'') :
    p.Runs now (Flow.bind x f) (items ++ items') result p'' := by
  induction hx with
  | done p a => exact hf
  | emit h ih => exact .emit (ih hf)
  | ask hsmall h ih => exact .ask hsmall (ih hf)

theorem mapItems {x : SessionFlow β α} {a : α} (f : β → γ) (h : p.Runs now x items a p') :
    p.Runs now (Flow.mapItems f x) (items.map f) a p' := by
  induction h with
  | done p a => exact .done p a
  | emit h ih => exact .emit ih
  | ask hsmall h ih => exact .ask hsmall ih

/-! ## Sessions that can fail -/

theorem ok_bind {x : SessionM β α} {f : α → SessionM β δ} {a : α} {result : Except Failure δ}
    (hx : p.Runs now x.run items (.ok a) p') (hf : p'.Runs now (f a).run items' result p'') :
    p.Runs now (x >>= f).run (items ++ items') result p'' := by
  rw [ExceptT.run_bind]
  exact hx.bind hf

theorem error_bind {x : SessionM β α} {f : α → SessionM β δ} {failure : Failure}
    (hx : p.Runs now x.run items (.error failure) p') :
    p.Runs now (x >>= f).run items (.error failure) p' := by
  rw [ExceptT.run_bind, ← List.append_nil items]
  exact hx.bind (.done _ _)

/-- A step that hands nothing out, followed by the rest. -/
theorem step {x : SessionM β α} {f : α → SessionM β δ} {a : α} {result : Except Failure δ}
    (hx : p.Runs now x.run [] (.ok a) p') (hf : p'.Runs now (f a).run items result p'') :
    p.Runs now (x >>= f).run items result p'' := hx.ok_bind hf

theorem attempt {x : SessionM β α} {result : Except Failure α}
    (h : p.Runs now x.run items result p') :
    p.Runs now (Session.attempt x).run items (.ok result) p' := by
  rw [← List.append_nil items]
  exact h.bind (.done _ _)

theorem operate (p : MemoryPool) (now : Int) (operation : Operation)
    (hsmall : (SessionCall.operate operation).Small) :
    p.Runs now (Session.operate operation : SessionM β Reply).run []
      (p.perform now operation).1.result (p.perform now operation).2 :=
  .ask hsmall (.done _ _)

theorem list : p.Runs now (Session.list : SessionM β (List String)).run [] (.ok p.keys) p :=
  .ask trivial (.done _ _)

theorem advance (next : Option String) :
    p.Runs now (Session.advance next : SessionM β Unit).run [] (.ok ()) p :=
  .ask trivial (.done _ _)

theorem emit_item (item : β) : p.Runs now (Session.emit item).run [item] (.ok ()) p :=
  .emit (.done _ _)

/-! ## Operations on an object -/

variable {key : String} {object : MemoryObject}

theorem stat_of_some (h : p.objects.get? key = some object) :
    p.Runs now (Session.stat key : SessionM β ObjectStat).run []
      (.ok object.stat) p := by
  have hrun := operate p now (β := β) (.stat key) trivial
  simp only [MemoryPool.perform, MemoryPool.stat_of_some h] at hrun
  exact hrun.step (.done _ _)

theorem stat_of_none (h : p.objects.get? key = none) :
    p.Runs now (Session.stat key : SessionM β ObjectStat).run []
      (.error (.objectNotFound key)) p := by
  have hrun := operate p now (β := β) (.stat key) trivial
  simp only [MemoryPool.perform, MemoryPool.stat_of_none h] at hrun
  exact hrun.error_bind

theorem read_of_some (h : p.objects.get? key = some object) (length offset : Nat) :
    p.Runs now (Session.read key length offset : SessionM β Bytes).run []
      (.ok (object.data.slice offset length)) p := by
  have hrun := operate p now (β := β) (.read key length offset) trivial
  simp only [MemoryPool.perform, MemoryPool.read, h] at hrun
  exact hrun.step (.done _ _)

theorem write_small {data : Bytes} {offset : Nat} (hkey : Names.checkKey key = .ok ())
    (hsmall : offset + data.length < Text.signedLimit) :
    p.Runs now (Session.write key data offset : SessionM β Unit).run [] (.ok ())
      ⟨p.objects.set key ⟨((p.content? key).getD []).overlay offset data, now⟩⟩ := by
  have hrun := operate p now (β := β) (.write key data offset) hsmall
  simp only [MemoryPool.perform, MemoryPool.write_of_small hkey hsmall] at hrun
  exact hrun.step (.done _ _)

theorem remove_of_some (h : p.objects.get? key = some object) :
    p.Runs now (Session.remove key : SessionM β Unit).run [] (.ok ()) ⟨p.objects.erase key⟩ := by
  have hcontains : p.objects.contains key = true := Shelf.contains_eq_true.mpr ⟨object, h⟩
  have hrun := operate p now (β := β) (.remove key) trivial
  simp only [MemoryPool.perform, MemoryPool.remove, hcontains, if_true] at hrun
  exact hrun.step (.done _ _)

end MemoryPool.Runs

/-- A flow whose calls are small can be run on any pool. -/
theorem MemoryPool.exists_runs {β α : Type} {flow : SessionFlow β α}
    (h : flow.Only SessionCall.Small) (p : MemoryPool) (now : Int) :
    ∃ items result p', p.Runs now flow items result p' := by
  induction flow generalizing p with
  | done result => exact ⟨[], result, p, .done p result⟩
  | emit item rest ih =>
    obtain ⟨items, result, p', hruns⟩ := ih h p
    exact ⟨item :: items, result, p', .emit hruns⟩
  | ask call resume ih =>
    obtain ⟨items, result, p', hruns⟩ := ih (p.answer now call).1 (h.2 _) (p.answer now call).2
    exact ⟨items, result, p', .ask h.1 hruns⟩

end DavGateway
