import DavGateway.Proofs.Session
import DavGateway.Transfer.Listing

/-!
# Listings hand out every object

A listing of a pool that nobody changes meanwhile hands out one entry for each key, in the order of
the keys.
-/

namespace DavGateway.Listing

variable {now : Int} {p : MemoryPool}

/-- What a listing tells about an entry of a pool. -/
def listed (entry : String × MemoryObject) : ListedObject :=
  ⟨entry.1, entry.2.stat⟩

/-- Objects that are there are handed out in the order of their keys. -/
theorem visit_runs (entries : List (String × MemoryObject))
    (h : ∀ entry ∈ entries, p.objects.get? entry.1 = some entry.2) :
    p.Runs now (visit (entries.map Prod.fst)).run (entries.map listed) (.ok ()) p := by
  induction entries with
  | nil => exact .advance none
  | cons entry rest ih =>
    have hstat : p.Runs now (Session.attempt (Session.stat entry.1) : SessionM ListedObject _).run
        [] _ p := (MemoryPool.Runs.stat_of_some (h entry List.mem_cons_self)).attempt
    have hrest := ih fun other ho => h other (List.mem_cons_of_mem _ ho)
    exact (MemoryPool.Runs.advance (some entry.1)).step
      (hstat.step ((MemoryPool.Runs.emit_item (listed entry)).ok_bind hrest))

/-- A listing hands out all objects of the pool. -/
theorem run_runs (p : MemoryPool) :
    p.Runs now run.run (p.objects.entries.map listed) (.ok ()) p := by
  refine MemoryPool.Runs.list.step (visit_runs p.objects.entries ?_)
  intro entry he
  exact Shelf.mem_entries.mp he

end DavGateway.Listing
