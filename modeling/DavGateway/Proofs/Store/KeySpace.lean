import DavGateway.Proofs.Store.Directory

/-!
# The key space of a directory pool

The keys of a pool in a directory are a flat set: each has one file right below the folder of the
pool, no two keys share one, and a pool that began empty lists what was written and not removed
since (`key_space_flat`). The listing is followed call by call: as long as all calls succeed, the
names in the folder are those of a list of keys (`DirectoryPool.Shows`), which a write adds its key
to and a removal takes its key from.
-/

namespace DavGateway

/-! ## Calls of a pool -/

/-- A call of a pool: an operation on an object, or a listing. -/
inductive PoolCall where
  | operate (operation : Operation)
  | list
deriving DecidableEq

/-- What a call of a pool answers. -/
inductive PoolAnswer where
  | ended (ending : Ending Reply)
  | listed (result : Except Failure (List String))

/-- Did the call do what it was made for? -/
def PoolAnswer.succeeds : PoolAnswer → Bool
  | .ended (.returned (.ok _)) | .listed (.ok _) => true
  | _ => false

namespace PoolCall

/-- Makes calls one after the other, each at its time, and collects what they answer. -/
def runAll {σ : Type} (answer : σ → Int → PoolCall → PoolAnswer × σ) (s : σ) :
    List (Int × PoolCall) → List PoolAnswer × σ
  | [] => ([], s)
  | (now, call) :: rest =>
    let (first, s) := answer s now call
    let (others, s) := runAll answer s rest
    (first :: others, s)

/-- The keys that are there after a call that succeeds. -/
def keysAfter (keys : List String) : PoolCall → List String
  | .operate (.write key _ _) => keys.filter (fun k => k != key) ++ [key]
  | .operate (.remove key) => keys.filter fun k => k != key
  | .operate (.stat _) | .operate (.read _ _ _) | .list => keys

/-- The key is written by one of the calls, and removed by none behind it. -/
def Remains (key : String) (calls : List PoolCall) : Prop :=
  ∃ before data offset after, calls = before ++ .operate (.write key data offset) :: after
    ∧ .operate (.remove key) ∉ after

variable {key : String} {call : PoolCall} {calls : List PoolCall} {keys : List String}

theorem not_remains_nil : ¬ Remains key [] := by
  rintro ⟨before, data, offset, after, hcalls, -⟩
  exact List.append_ne_nil_of_right_ne_nil before (List.cons_ne_nil _ _) hcalls.symm

theorem remains_cons : Remains key (call :: calls) ↔
    (∃ data offset, call = .operate (.write key data offset)) ∧ .operate (.remove key) ∉ calls
      ∨ Remains key calls := by
  constructor
  · rintro ⟨before, data, offset, after, hcalls, hafter⟩
    cases before with
    | nil =>
      cases hcalls
      exact .inl ⟨⟨data, offset, rfl⟩, hafter⟩
    | cons first before =>
      cases hcalls
      exact .inr ⟨before, data, offset, after, rfl, hafter⟩
  · rintro (⟨⟨data, offset, rfl⟩, hafter⟩ | ⟨before, data, offset, after, rfl, hafter⟩)
    · exact ⟨[], data, offset, calls, rfl, hafter⟩
    · exact ⟨call :: before, data, offset, after, rfl, hafter⟩

theorem mem_keysAfter : key ∈ call.keysAfter keys ↔
    (∃ data offset, call = .operate (.write key data offset))
      ∨ key ∈ keys ∧ call ≠ .operate (.remove key) := by
  cases call with
  | list => simp [keysAfter]
  | operate operation =>
    cases operation with
    | stat other => simp [keysAfter]
    | read other length offset => simp [keysAfter]
    | write other data offset =>
      simp only [keysAfter, List.mem_append, List.mem_filter, List.mem_singleton]
      by_cases hkey : key = other
      · simp [hkey]
      · simp [hkey, Ne.symm hkey]
    | remove other =>
      simp only [keysAfter, List.mem_filter]
      by_cases hkey : key = other
      · simp [hkey]
      · simp [hkey, Ne.symm hkey]

/-- After a run of calls that succeed, the keys are those that remain, and those that were there
before and have not been removed. -/
theorem mem_foldl_keysAfter : key ∈ calls.foldl (fun keys call => call.keysAfter keys) keys ↔
    Remains key calls ∨ key ∈ keys ∧ .operate (.remove key) ∉ calls := by
  induction calls generalizing keys with
  | nil => simp [not_remains_nil]
  | cons call rest ih =>
    rw [List.foldl_cons, ih, mem_keysAfter, remains_cons, List.mem_cons, not_or]
    constructor
    · rintro (hremains | ⟨hwritten | ⟨hkey, hcall⟩, hrest⟩)
      · exact .inl (.inr hremains)
      · exact .inl (.inl ⟨hwritten, hrest⟩)
      · exact .inr ⟨hkey, Ne.symm hcall, hrest⟩
    · rintro ((⟨hwritten, hrest⟩ | hremains) | ⟨hkey, hcall, hrest⟩)
      · exact .inr ⟨.inl hwritten, hrest⟩
      · exact .inl hremains
      · exact .inr ⟨.inr ⟨hkey, Ne.symm hcall⟩, hrest⟩

theorem nodup_keysAfter (h : keys.Nodup) (call : PoolCall) : (call.keysAfter keys).Nodup := by
  cases call with
  | list => exact h
  | operate operation =>
    cases operation with
    | stat other => exact h
    | read other length offset => exact h
    | write other data offset =>
      refine List.nodup_append.mpr ⟨h.filter _, by simp, ?_⟩
      intro a ha b hb
      have hne : a ≠ other := by simpa using (List.mem_filter.mp ha).2
      rw [List.mem_singleton.mp hb]
      exact hne
    | remove other => exact h.filter _

end PoolCall

/-! ## The listing, call by call -/

namespace DirectoryPool

variable {p : DirectoryPool} {d d₁ : Disk} {place : DiskPath} {key : String} {keys : List String}
variable {now : Int} {call : PoolCall}

/-- Answers a call from the disk. -/
def respond (p : DirectoryPool) (d : Disk) (now : Int) : PoolCall → PoolAnswer × Disk
  | .operate operation => (.ended (p.perform d now operation).1, (p.perform d now operation).2)
  | .list => (.listed (p.keys d), d)

/-- The folder of the pool has the names of these keys, each once. -/
structure Shows (p : DirectoryPool) (d : Disk) (place : DiskPath) (keys : List String) : Prop where
  isAt : p.IsAt d place
  names : d.namesAt place = keys.map FileName.encode
  nodup : keys.Nodup

theorem shows_empty (h : d.names p.folder = .ok []) : ∃ place, p.Shows d place [] := by
  obtain ⟨place, hat, hnames⟩ := names_eq_ok.mp h
  exact ⟨place, hat, hnames.symm, List.nodup_nil⟩

theorem filter_encode (keys : List String) (key : String) :
    (keys.map FileName.encode).filter (fun name => name != FileName.encode key) =
      (keys.filter fun k => k != key).map FileName.encode := by
  rw [List.filter_map]
  congr 2
  funext k
  by_cases hkey : k = key
  · simp [hkey]
  · have hname : FileName.encode k ≠ FileName.encode key :=
      fun heq => hkey (FileName.encode_injective heq)
    rw [Function.comp_apply, bne_iff_ne.mpr hname, bne_iff_ne.mpr hkey]

/-- A call that succeeds changes the keys as it should. -/
theorem Shows.respond (h : p.Shows d place keys)
    (hdone : (p.respond d now call).1.succeeds = true) :
    p.Shows (p.respond d now call).2 place (call.keysAfter keys) := by
  cases call with
  | list => exact h
  | operate operation =>
    have hnodup := PoolCall.nodup_keysAfter h.nodup (.operate operation)
    have hat : p.IsAt (p.perform d now operation).2 place :=
      (p.perform_touches d now operation).isAt h.isAt
    refine ⟨hat, ?_, hnodup⟩
    cases operation with
    | stat key => exact h.names
    | read key length offset => exact h.names
    | write key data offset =>
      show (p.write d now key data offset).2.namesAt place = _
      rcases p.write_cases d now key data offset with
        ⟨failure, hwrite⟩ | ⟨place', bytes, hat', -, -, hput⟩
      · simp only [DirectoryPool.respond, perform, hwrite] at hdone
        cases hdone
      · cases h.isAt.walk.symm.trans hat'.walk
        rw [hput, fileAt, Disk.namesAt_put, h.names, filter_encode, PoolCall.keysAfter,
          List.map_append, List.map_singleton]
    | remove key =>
      show (p.remove d key).2.namesAt place = _
      rcases p.remove_cases d key with ⟨failure, hremove⟩ | ⟨place', hat', -, -, hremove⟩
      · simp only [DirectoryPool.respond, perform, hremove] at hdone
        cases hdone
      · cases h.isAt.walk.symm.trans hat'.walk
        rw [hremove, fileAt, Disk.namesAt_drop, h.names, filter_encode, PoolCall.keysAfter]

theorem Shows.run {calls : List (Int × PoolCall)} (h : p.Shows d place keys)
    (hdone : ∀ answer ∈ (PoolCall.runAll p.respond d calls).1, answer.succeeds = true) :
    p.Shows (PoolCall.runAll p.respond d calls).2 place
      ((calls.map (·.2)).foldl (fun keys call => call.keysAfter keys) keys) := by
  induction calls generalizing d keys with
  | nil => exact h
  | cons timed rest ih =>
    obtain ⟨now, call⟩ := timed
    have hfirst : (p.respond d now call).1.succeeds = true := hdone _ List.mem_cons_self
    exact ih (h.respond hfirst) fun answer hmem => hdone answer (List.mem_cons_of_mem _ hmem)

theorem Shows.perm_keysOf (h : p.Shows d place keys) : (keysOf (d.namesAt place)).Perm keys := by
  have hdecoded : (d.namesAt place).filterMap FileName.decode? = keys := by
    have hsome : FileName.decode? ∘ FileName.encode = some := funext FileName.decode?_encode
    rw [h.names, List.filterMap_map, hsome, List.filterMap_some]
  rw [keysOf, hdecoded]
  exact List.mergeSort_perm keys _

/-- A listing has the keys whose names are there, each once. -/
theorem Shows.listed (h : p.Shows d place keys) :
    ∃ listed, p.keys d = .ok listed ∧ listed.Nodup ∧ ∀ key, key ∈ listed ↔ key ∈ keys := by
  refine ⟨_, h.isAt.keys, h.perm_keysOf.nodup_iff.mpr h.nodup, ?_⟩
  intro key
  exact h.perm_keysOf.mem_iff

/-- A listing is the keys in ascending order. -/
theorem Shows.keys_eq {sorted : List String} (h : p.Shows d place keys)
    (hsorted : sorted.Pairwise (· < ·)) (hmem : ∀ key, key ∈ sorted ↔ key ∈ keys) :
    p.keys d = .ok sorted := by
  have hnodup : sorted.Nodup := hsorted.imp fun {a b} (hlt : a < b) (heq : a = b) =>
    String.lt_irrefl b (heq ▸ hlt)
  have hperm : (keysOf (d.namesAt place)).Perm sorted :=
    h.perm_keysOf.trans ((List.perm_ext_iff_of_nodup h.nodup hnodup).mpr fun key => (hmem key).symm)
  rw [h.isAt.keys, hperm.eq_of_pairwise (fun a b _ _ hab hba => String.le_antisymm hab hba)
    (pairwise_keysOf _) (hsorted.imp fun hlt => Std.le_of_lt hlt)]

/-- Other keys are listed as before. -/
theorem Touches.keys_other (h : p.Touches d key d₁) :
    (p.keys d₁).map (fun keys => keys.filter fun k => k != key) =
      (p.keys d).map fun keys => keys.filter fun k => k != key := by
  cases h with
  | nothing => rfl
  | put hat hkey hfile data mtime =>
    rename_i place
    have hat' := (Touches.put hat hkey hfile data mtime).isAt hat
    have hkeys := filter_keysOf (d.namesAt place) key
    have hput := filter_keysOf ((d.put (fileAt place key) (.file data mtime)).namesAt place) key
    rw [fileAt, Disk.namesAt_put, List.filter_append, List.filter_filter] at hput
    rw [hat.keys, hat'.keys, Except.map, Except.map, ← hkeys, fileAt, Disk.namesAt_put]
    simpa using hput.symm
  | drop hat hkey hfile =>
    rename_i place
    have hat' := (Touches.drop hat hkey hfile).isAt hat
    rw [hat.keys, hat'.keys, Except.map, Except.map, fileAt, Disk.namesAt_drop, filter_keysOf]

end DirectoryPool

/-- Every key that is not empty and has no NUL has one file right below the folder of its pool, with
a plain name that the key is read back from, so no two keys share a file. In a pool that begins
empty, the listing has after any calls that succeed each key that was written and not removed since,
once. And on any disk, whether it succeeds or not, an operation changes no entry but the file of its
key, and nothing of what is told about other keys. -/
theorem key_space_flat (p : DirectoryPool) :
    (∀ key, key ≠ "" → '\x00' ∉ key.toList →
      FileName.IsPlain (FileName.encode key)
        ∧ FileName.decode? (FileName.encode key) = some key
        ∧ p.filePath key = .ok (p.folder ++ [FileName.encode key]))
    ∧ (∀ key other path, p.filePath key = .ok path → p.filePath other = .ok path → key = other)
    ∧ (∀ (d : Disk) (calls : List (Int × PoolCall)), d.names p.folder = .ok [] →
      (∀ answer ∈ (PoolCall.runAll p.respond d calls).1, answer.succeeds = true) →
      ∃ keys, p.keys (PoolCall.runAll p.respond d calls).2 = .ok keys ∧ keys.Nodup
        ∧ ∀ key, key ∈ keys ↔ PoolCall.Remains key (calls.map (·.2)))
    ∧ ∀ (d : Disk) (now : Int) (operation : Operation),
      (∀ path, Disk.entry? (p.perform d now operation).2 path ≠ d.entry? path →
        ∃ place, d.walk p.folder = .ok place ∧ path = place ++ [FileName.encode operation.key])
      ∧ (∀ other, other ≠ operation.key →
        p.stat (p.perform d now operation).2 other = p.stat d other
          ∧ ∀ length offset, p.read (p.perform d now operation).2 other length offset =
            p.read d other length offset)
      ∧ (p.keys (p.perform d now operation).2).map
          (fun keys => keys.filter fun key => key != operation.key) =
        (p.keys d).map fun keys => keys.filter fun key => key != operation.key := by
  refine ⟨?_, ?_, ?_, ?_⟩
  · intro key hempty hnul
    have hkey := Names.checkKey_eq_ok.mpr ⟨hempty, hnul⟩
    exact ⟨FileName.encode_isPlain hkey, FileName.decode?_encode key,
      DirectoryPool.filePath_of_valid hkey⟩
  · intro key other path hpath hpath'
    obtain ⟨-, hfile⟩ := DirectoryPool.filePath_eq_ok.mp hpath
    obtain ⟨-, hfile'⟩ := DirectoryPool.filePath_eq_ok.mp hpath'
    have hname : FileName.encode key = FileName.encode other := by
      simpa using hfile.symm.trans hfile'
    exact FileName.encode_injective hname
  · intro d calls hempty hdone
    obtain ⟨place, hshows⟩ := DirectoryPool.shows_empty hempty
    obtain ⟨keys, hkeys, hnodup, hmem⟩ := (hshows.run hdone).listed
    refine ⟨keys, hkeys, hnodup, ?_⟩
    intro key
    rw [hmem, PoolCall.mem_foldl_keysAfter]
    simp only [List.not_mem_nil, false_and, or_false]
  · intro d now operation
    have htouches := p.perform_touches d now operation
    refine ⟨fun path => htouches.changed, ?_, htouches.keys_other⟩
    intro other hother
    exact ⟨htouches.stat_other hother, htouches.read_other hother⟩

/-- A disk with an empty pool. -/
def emptyPoolDisk : Disk := ⟨[(["pools"], .folder), (["pools", "p"], .folder)]⟩

/-- One object stays, and one that looks like a way out of the pool comes and goes. -/
def comingAndGoing : List (Int × PoolCall) :=
  [(1, .operate (.write ".hidden" [1] 0)), (2, .operate (.write "../100%" [2, 3] 0)),
    (3, .operate (.stat "../100%")), (4, .operate (.remove "../100%"))]

/-- The way out of the pool is a file in it, and the listing has the object that stays. -/
theorem key_space_flat_way_out :
    DirectoryPool.filePath ⟨["pools", "p"]⟩ "../100%" = .ok ["pools", "p", "%2E.%2F100%25"]
      ∧ ∃ keys, DirectoryPool.keys ⟨["pools", "p"]⟩
          (PoolCall.runAll (DirectoryPool.respond ⟨["pools", "p"]⟩) emptyPoolDisk
            comingAndGoing).2 = .ok keys
        ∧ keys.Nodup ∧ ".hidden" ∈ keys ∧ "../100%" ∉ keys := by
  obtain ⟨hfiles, -, hlists, -⟩ := key_space_flat ⟨["pools", "p"]⟩
  obtain ⟨-, -, hfile⟩ := hfiles "../100%" (by decide) (by decide)
  have hempty : emptyPoolDisk.names ["pools", "p"] = .ok [] := by rfl
  have hdone : ∀ answer ∈ (PoolCall.runAll (DirectoryPool.respond ⟨["pools", "p"]⟩) emptyPoolDisk
      comingAndGoing).1, answer.succeeds = true := by
    decide +kernel
  obtain ⟨keys, hkeys, hnodup, hmem⟩ := hlists emptyPoolDisk comingAndGoing hempty hdone
  refine ⟨hfile, keys, hkeys, hnodup, ?_, ?_⟩
  · exact (hmem ".hidden").mpr ⟨[], [1], 0, _, rfl, by decide⟩
  · rw [hmem]
    simp [comingAndGoing, PoolCall.remains_cons, PoolCall.not_remains_nil]

end DavGateway
