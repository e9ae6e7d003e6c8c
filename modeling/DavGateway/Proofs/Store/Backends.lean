import DavGateway.Proofs.Bytes
import DavGateway.Proofs.Store.KeySpace
import DavGateway.Proofs.Store.Timeless

/-!
# Pools in memory and in a directory agree

A pool in a directory mirrors one in memory if every object has a file with its bytes, and the
folder has no other names (`Mirrors`). Calls keep this and are answered alike, times aside, as long
as nothing is written behind the end of an object: a write of no bytes there fills the object in
memory up to its offset, and leaves the file as it is (`writeNothing_differs`). Up to the first such
write the two backends cannot be told apart (`backends_agree`).
-/

namespace DavGateway

/-- Where the bytes that an operation is about end. -/
def Operation.endsAt : Operation → Nat
  | .stat _ | .remove _ => 0
  | .read _ length offset => offset + length
  | .write _ data offset => offset + data.length

/-- The operation is on an object that can be, under a name that the disk takes, and its end can be
counted. -/
structure Operation.IsRegular (operation : Operation) : Prop where
  notEmpty : operation.key ≠ ""
  noNul : '\x00' ∉ operation.key.toList
  short : (FileName.encode operation.key).utf8ByteSize ≤ Disk.longestName
  counted : operation.endsAt < Text.signedLimit

instance (operation : Operation) : Decidable operation.IsRegular :=
  decidable_of_iff (operation.key ≠ "" ∧ '\x00' ∉ operation.key.toList
      ∧ (FileName.encode operation.key).utf8ByteSize ≤ Disk.longestName
      ∧ operation.endsAt < Text.signedLimit)
    ⟨fun h => ⟨h.1, h.2.1, h.2.2.1, h.2.2.2⟩, fun h => ⟨h.notEmpty, h.noNul, h.short, h.counted⟩⟩

/-- A listing is always regular. -/
def PoolCall.IsRegular : PoolCall → Prop
  | .operate operation => operation.IsRegular
  | .list => True

instance : (call : PoolCall) → Decidable call.IsRegular
  | .operate operation => inferInstanceAs (Decidable operation.IsRegular)
  | .list => .isTrue trivial

/-- An answer without its time. -/
def PoolAnswer.timeless : PoolAnswer → PoolAnswer
  | .ended ending => .ended ending.timeless
  | .listed result => .listed result

namespace MemoryPool

/-- Answers a call from the pool. -/
def respond (m : MemoryPool) (now : Int) : PoolCall → PoolAnswer × MemoryPool
  | .operate operation => (.ended (m.perform now operation).1, (m.perform now operation).2)
  | .list => (.listed (.ok m.keys), m)

theorem mem_keys {m : MemoryPool} {key : String} :
    key ∈ m.keys ↔ ∃ object, m.objects.get? key = some object := Shelf.mem_keys

/-- The size of an object, none for one that is missing. -/
def sizeOf (m : MemoryPool) (key : String) : Nat := ((m.content? key).getD []).length

/-- The call does not write nothing behind the end of an object. -/
def Reaches (m : MemoryPool) : PoolCall → Prop
  | .operate (.write key data offset) => data = [] → offset ≤ m.sizeOf key
  | .operate (.stat _) | .operate (.read _ _ _) | .operate (.remove _) | .list => True

instance (m : MemoryPool) : (call : PoolCall) → Decidable (m.Reaches call)
  | .operate (.write key data offset) =>
    inferInstanceAs (Decidable (data = [] → offset ≤ m.sizeOf key))
  | .operate (.stat _) | .operate (.read _ _ _) | .operate (.remove _) | .list => .isTrue trivial

/-- None of the calls, made one after the other, writes nothing behind the end of an object. -/
def ReachesAll (m : MemoryPool) : List (Int × PoolCall) → Prop
  | [] => True
  | (now, call) :: rest => m.Reaches call ∧ (m.respond now call).2.ReachesAll rest

instance decidableReachesAll (m : MemoryPool) :
    (calls : List (Int × PoolCall)) → Decidable (m.ReachesAll calls)
  | [] => .isTrue trivial
  | (now, call) :: rest =>
    have := decidableReachesAll (m.respond now call).2 rest
    inferInstanceAs (Decidable (m.Reaches call ∧ (m.respond now call).2.ReachesAll rest))

end MemoryPool

/-! ## Mirroring -/

/-- Every object of the pool in memory has a file with its bytes below the folder, and the folder
has no other names. -/
structure Mirrors (m : MemoryPool) (p : DirectoryPool) (d : Disk) (place : DiskPath)
    (keys : List String) : Prop where
  shows : p.Shows d place keys
  files : ∀ key, Names.checkKey key = .ok () →
    (d.entry? (DirectoryPool.fileAt place key)).map DiskEntry.timeless =
      (m.content? key).map fun data => .file data 0
  names : ∀ key, key ∈ m.keys ↔ key ∈ keys

namespace Mirrors

open DirectoryPool (fileAt)

variable {m : MemoryPool} {p : DirectoryPool} {d : Disk} {place : DiskPath} {keys : List String}
variable {key : String} {now now' : Int}

theorem offers (h : Mirrors m p d place keys) {operation : Operation}
    (hregular : operation.IsRegular) : p.Offers d place operation.key :=
  ⟨h.shows.isAt, Names.checkKey_eq_ok.mpr ⟨hregular.notEmpty, hregular.noNul⟩, hregular.short⟩

/-- An object is missing on both sides, or it is there on both sides with the same bytes. -/
theorem file_cases (h : Mirrors m p d place keys) (hkey : Names.checkKey key = .ok ()) :
    (m.objects.get? key = none ∧ d.entry? (fileAt place key) = none)
      ∨ ∃ object mtime, m.objects.get? key = some object
        ∧ d.entry? (fileAt place key) = some (.file object.data mtime) := by
  have hfile := h.files key hkey
  unfold MemoryPool.content? at hfile
  cases hobject : m.objects.get? key with
  | none =>
    rw [hobject] at hfile
    exact .inl ⟨rfl, Option.map_eq_none_iff.mp hfile⟩
  | some object =>
    rw [hobject] at hfile
    obtain ⟨entry, hentry, htimeless⟩ := Option.map_eq_some_iff.mp hfile
    cases entry with
    | folder => cases htimeless
    | file data mtime =>
      cases htimeless
      exact .inr ⟨object, mtime, rfl, hentry⟩

/-- The bytes that a write meets are the same on both sides, none for an object that is missing. -/
theorem file_getD (h : Mirrors m p d place keys) (hkey : Names.checkKey key = .ok ()) :
    d.entry? (fileAt place key) = none ∧ (m.content? key).getD [] = []
      ∨ ∃ mtime, d.entry? (fileAt place key) = some (.file ((m.content? key).getD []) mtime) := by
  unfold MemoryPool.content?
  rcases h.file_cases hkey with ⟨hnone, hfile⟩ | ⟨object, mtime, hsome, hfile⟩
  · exact .inl ⟨hfile, by rw [hnone]; rfl⟩
  · exact .inr ⟨mtime, by rw [hsome]; exact hfile⟩

theorem stat (h : Mirrors m p d place keys) (hregular : (Operation.stat key).IsRegular) :
    (Ending.returned ((p.stat d key).map .stat)).timeless =
      (Ending.returned ((m.stat key).map .stat)).timeless := by
  have hoffers : p.Offers d place key := h.offers hregular
  rcases h.file_cases hoffers.valid with ⟨hnone, hfile⟩ | ⟨object, mtime, hsome, hfile⟩
  · rw [hoffers.stat_of_none hfile, m.stat_of_none hnone]
  · rw [hoffers.stat_of_some hfile, m.stat_of_some hsome]
    rfl

theorem read (h : Mirrors m p d place keys) {length offset : Nat}
    (hregular : (Operation.read key length offset).IsRegular) :
    p.read d key length offset = .returned (m.read key length offset) := by
  have hoffers : p.Offers d place key := h.offers hregular
  unfold MemoryPool.read
  rcases h.file_cases hoffers.valid with ⟨hnone, hfile⟩ | ⟨object, mtime, hsome, hfile⟩
  · rw [hoffers.read_of_none hfile, hnone]
  · have hsmall : offset + length < Text.signedLimit := hregular.counted
    rw [hoffers.read_of_some hfile (by omega) (by omega), hsome]

/-- A write that does not write nothing behind the end of the object is done on both sides, and the
bytes are the same after it. -/
theorem write (h : Mirrors m p d place keys) (now now' : Int) {data : Bytes} {offset : Nat}
    (hregular : (Operation.write key data offset).IsRegular)
    (hreaches : data = [] → offset ≤ m.sizeOf key) :
    (p.write d now key data offset).1 = .ok ()
      ∧ (m.write now' key data offset).1 = .returned (.ok ())
      ∧ Mirrors (m.write now' key data offset).2 p (p.write d now key data offset).2 place
        ((PoolCall.operate (.write key data offset)).keysAfter keys) := by
  have hoffers : p.Offers d place key := h.offers hregular
  have hsmall : offset + data.length < Text.signedLimit := hregular.counted
  let old := (m.content? key).getD []
  have hsame : (if data.isEmpty then old else old.overlay offset data) =
      old.overlay offset data := by
    by_cases hdata : data = []
    · subst hdata
      exact (Bytes.overlay_nil (hreaches rfl)).symm
    · simp [hdata]
  have hdisk : p.write d now key data offset =
      (.ok (), d.put (fileAt place key) (.file (old.overlay offset data) now)) := by
    rw [hoffers.write_small (h.file_getD hoffers.valid) hsmall, hsame]
  have hmemory : m.write now' key data offset =
      (.returned (.ok ()), ⟨m.objects.set key ⟨old.overlay offset data, now'⟩⟩) :=
    MemoryPool.write_of_small hoffers.valid hsmall
  refine ⟨by rw [hdisk], by rw [hmemory], ?_⟩
  have hshows : p.Shows (p.respond d now (.operate (.write key data offset))).2 place
      ((PoolCall.operate (.write key data offset)).keysAfter keys) := by
    apply h.shows.respond
    simp only [DirectoryPool.respond, DirectoryPool.perform, hdisk]
    rfl
  refine ⟨hshows, ?_, ?_⟩
  · intro other hother
    rw [hdisk, hmemory, Disk.entry?_put (DirectoryPool.fileAt_ne_nil place key)]
    unfold MemoryPool.content?
    rw [Shelf.get?_set]
    by_cases hkey : other = key
    · rw [hkey, if_pos rfl, if_pos rfl]
      rfl
    · rw [if_neg hkey, if_neg fun heq => hkey (DirectoryPool.fileAt_injective heq)]
      exact h.files other hother
  · intro other
    rw [hmemory, PoolCall.mem_keysAfter, MemoryPool.mem_keys, ← h.names, MemoryPool.mem_keys]
    simp only [Shelf.get?_set]
    by_cases hkey : other = key
    · simp [hkey]
    · simp [hkey, Ne.symm hkey]

/-- A removal takes the object away on both sides, or finds it on none. -/
theorem remove (h : Mirrors m p d place keys) (hregular : (Operation.remove key).IsRegular) :
    (p.remove d key).1 = (m.remove key).1
      ∧ ∃ keys', Mirrors (m.remove key).2 p (p.remove d key).2 place keys' := by
  have hoffers : p.Offers d place key := h.offers hregular
  rcases h.file_cases hoffers.valid with ⟨hnone, hfile⟩ | ⟨object, mtime, hsome, hfile⟩
  · have hdisk := hoffers.remove_of_none hfile
    have hmemory : m.remove key = (.error (.objectNotFound key), m) := by
      simp [MemoryPool.remove, Shelf.contains, hnone]
    rw [hdisk, hmemory]
    exact ⟨rfl, keys, h⟩
  · have hdisk := hoffers.remove_of_some hfile
    have hmemory : m.remove key = (.ok (), ⟨m.objects.erase key⟩) := by
      simp [MemoryPool.remove, Shelf.contains, hsome]
    have hshows : p.Shows (p.respond d 0 (.operate (.remove key))).2 place
        ((PoolCall.operate (.remove key)).keysAfter keys) := by
      apply h.shows.respond
      simp only [DirectoryPool.respond, DirectoryPool.perform, hdisk]
      rfl
    have hafter : (p.remove d key).2 = d.drop (fileAt place key) := by rw [hdisk]
    refine ⟨by rw [hdisk, hmemory], _, hshows, ?_, ?_⟩
    · intro other hother
      rw [hafter, hmemory, Disk.entry?_drop (DirectoryPool.fileAt_ne_nil place key)]
      unfold MemoryPool.content?
      rw [Shelf.get?_erase]
      by_cases hkey : other = key
      · rw [hkey, if_pos rfl, if_pos rfl]
        rfl
      · rw [if_neg hkey, if_neg fun heq => hkey (DirectoryPool.fileAt_injective heq)]
        exact h.files other hother
    · intro other
      rw [hmemory, PoolCall.mem_keysAfter, MemoryPool.mem_keys, ← h.names, MemoryPool.mem_keys]
      simp only [Shelf.get?_erase]
      by_cases hkey : other = key
      · simp [hkey]
      · simp [hkey, Ne.symm hkey]

/-- Both sides list the same keys. -/
theorem list (h : Mirrors m p d place keys) : p.keys d = .ok m.keys :=
  h.shows.keys_eq m.objects.keys_pairwise h.names

/-- A regular call that does not write nothing behind the end of an object is answered alike, and
the mirror is kept. -/
theorem respond (h : Mirrors m p d place keys) (now now' : Int) {call : PoolCall}
    (hregular : call.IsRegular) (hreaches : m.Reaches call) :
    (p.respond d now call).1.timeless = (m.respond now' call).1.timeless
      ∧ ∃ keys', Mirrors (m.respond now' call).2 p (p.respond d now call).2 place keys' := by
  cases call with
  | list =>
    refine ⟨?_, keys, h⟩
    simp only [DirectoryPool.respond, MemoryPool.respond, h.list]
  | operate operation =>
    cases operation with
    | stat key => exact ⟨congrArg PoolAnswer.ended (h.stat hregular), keys, h⟩
    | read key length offset =>
      refine ⟨?_, keys, h⟩
      simp only [DirectoryPool.respond, MemoryPool.respond, DirectoryPool.perform,
        MemoryPool.perform, h.read hregular]
      rfl
    | write key data offset =>
      obtain ⟨hdisk, hmemory, hmirrors⟩ := h.write now now' hregular hreaches
      refine ⟨?_, _, hmirrors⟩
      simp only [DirectoryPool.respond, MemoryPool.respond, DirectoryPool.perform,
        MemoryPool.perform, hdisk, hmemory]
      rfl
    | remove key =>
      obtain ⟨hsame, hmirrors⟩ := h.remove hregular
      refine ⟨?_, hmirrors⟩
      simp only [DirectoryPool.respond, MemoryPool.respond, DirectoryPool.perform,
        MemoryPool.perform, hsame]

/-- Calls are answered alike one after the other, whatever the clocks of both sides show. -/
theorem run {calls calls' : List (Int × PoolCall)} (h : Mirrors m p d place keys)
    (hsame : calls.map (·.2) = calls'.map (·.2))
    (hregular : ∀ timed ∈ calls, timed.2.IsRegular)
    (hreaches : m.ReachesAll calls) :
    (PoolCall.runAll p.respond d calls').1.map PoolAnswer.timeless =
        (PoolCall.runAll MemoryPool.respond m calls).1.map PoolAnswer.timeless
      ∧ ∃ keys', Mirrors (PoolCall.runAll MemoryPool.respond m calls).2 p
        (PoolCall.runAll p.respond d calls').2 place keys' := by
  induction calls generalizing calls' m d keys with
  | nil =>
    have hnil : calls' = [] := by simpa using hsame.symm
    subst hnil
    exact ⟨rfl, keys, h⟩
  | cons timed rest ih =>
    cases calls' with
    | nil => cases hsame
    | cons timed' rest' =>
      obtain ⟨now', call⟩ := timed
      obtain ⟨now, call'⟩ := timed'
      obtain ⟨hcall, hrest⟩ := List.cons.inj hsame
      cases hcall
      obtain ⟨hanswer, keys', hmirrors⟩ :=
        h.respond now now' (hregular _ List.mem_cons_self) hreaches.1
      obtain ⟨hothers, hafter⟩ := ih hmirrors hrest
        (fun timed hmem => hregular timed (List.mem_cons_of_mem _ hmem)) hreaches.2
      exact ⟨List.cons_eq_cons.mpr ⟨hanswer, hothers⟩, hafter⟩

/-- A write of nothing behind the end of an object fills the object in memory up to its offset, and
leaves the file as it is. -/
theorem writeNothing_differs (h : Mirrors m p d place keys) (now now' : Int) {offset : Nat}
    (hregular : (Operation.write key [] offset).IsRegular) (hbehind : m.sizeOf key < offset) :
    ((m.write now' key [] offset).2.stat key).map (·.size) = .ok offset
      ∧ (p.stat (p.write d now key [] offset).2 key).map (·.size) = .ok (m.sizeOf key) := by
  have hoffers : p.Offers d place key := h.offers hregular
  have hsmall : offset + ([] : Bytes).length < Text.signedLimit := hregular.counted
  constructor
  · rw [MemoryPool.write_of_small hoffers.valid hsmall]
    rw [MemoryPool.stat_of_some (by rw [Shelf.get?_set, if_pos rfl])]
    have hlength : max (m.sizeOf key) offset = offset := by omega
    simp only [Except.map, MemoryObject.stat, Bytes.length_overlay, List.length_nil, Nat.add_zero]
    exact congrArg Except.ok hlength
  · have hat := (p.perform_touches d now (.write key [] offset)).isAt h.shows.isAt
    have hafter : p.Offers (p.write d now key [] offset).2 place key :=
      ⟨hat, hoffers.valid, hoffers.short⟩
    have hput : (p.write d now key [] offset).2 =
        d.put (fileAt place key) (.file ((m.content? key).getD []) now) := by
      rw [hoffers.write_small (h.file_getD hoffers.valid) hsmall]
      rfl
    have hfile : Disk.entry? (p.write d now key [] offset).2 (fileAt place key) =
        some (.file ((m.content? key).getD []) now) := by
      rw [hput, Disk.entry?_put (DirectoryPool.fileAt_ne_nil place key), if_pos rfl]
    rw [hafter.stat_of_some hfile]
    rfl

end Mirrors

/-- A pool in memory and one in a directory that both begin empty answer the same calls alike, times
aside, whatever their clocks show: as long as the calls are regular and none of them writes nothing
behind the end of an object. After such calls a write of nothing behind the end shows the difference
in the sizes. -/
theorem backends_agree {p : DirectoryPool} {d : Disk} {calls calls' : List (Int × PoolCall)}
    (hempty : d.names p.folder = .ok []) (hsame : calls.map (·.2) = calls'.map (·.2))
    (hregular : ∀ timed ∈ calls, timed.2.IsRegular)
    (hreaches : MemoryPool.ReachesAll {} calls) :
    (PoolCall.runAll p.respond d calls').1.map PoolAnswer.timeless =
        (PoolCall.runAll MemoryPool.respond {} calls).1.map PoolAnswer.timeless
      ∧ ∀ (key : String) (offset : Nat) (now now' : Int),
        (Operation.write key [] offset).IsRegular →
        (PoolCall.runAll MemoryPool.respond {} calls).2.sizeOf key < offset →
        (((PoolCall.runAll MemoryPool.respond {} calls).2.write now' key [] offset).2.stat key).map
            (·.size) = .ok offset
          ∧ (p.stat (p.write (PoolCall.runAll p.respond d calls').2 now key [] offset).2 key).map
            (·.size) = .ok ((PoolCall.runAll MemoryPool.respond {} calls).2.sizeOf key) := by
  obtain ⟨place, hshows⟩ := DirectoryPool.shows_empty hempty
  have hstart : Mirrors {} p d place [] := by
    refine ⟨hshows, ?_, ?_⟩
    · intro key hkey
      cases hfile : d.entry? (DirectoryPool.fileAt place key) with
      | none => rfl
      | some entry =>
        have hname := Disk.mem_namesAt hfile
        rw [hshows.names] at hname
        cases hname
    · intro key
      rfl
  obtain ⟨hanswers, keys, hmirrors⟩ := hstart.run hsame hregular hreaches
  refine ⟨hanswers, ?_⟩
  intro key offset now now' hnothing hbehind
  exact hmirrors.writeNothing_differs now now' hnothing hbehind

/-- An object with a gap in front, a write of nothing within it, and a key with a slash that goes
and comes back. -/
def sparseCalls : List (Int × PoolCall) :=
  [(1, .operate (.write "a/b" [7] 3)), (2, .operate (.write "a/b" [] 2)),
    (3, .operate (.read "a/b" 9 2)), (4, .operate (.remove "a/b")), (5, .operate (.stat "a/b")),
    (6, .operate (.write "a/b" [8, 9] 0)), (7, .list)]

/-- The calls are answered alike, though the disk has another clock, and a write of nothing at byte
nine makes the two bytes nine in memory. -/
theorem backends_agree_sparse :
    (PoolCall.runAll (DirectoryPool.respond ⟨["pools", "p"]⟩) emptyPoolDisk
        (sparseCalls.map fun timed => (timed.1 + 60, timed.2))).1.map PoolAnswer.timeless =
      (PoolCall.runAll MemoryPool.respond {} sparseCalls).1.map PoolAnswer.timeless
    ∧ (((PoolCall.runAll MemoryPool.respond {} sparseCalls).2.write 8 "a/b" [] 9).2.stat "a/b").map
      (·.size) = .ok 9 := by
  have hempty : emptyPoolDisk.names ["pools", "p"] = .ok [] := by rfl
  have hsame : sparseCalls.map (·.2) =
      (sparseCalls.map fun timed => (timed.1 + 60, timed.2)).map (·.2) := by
    decide
  have hregular : ∀ timed ∈ sparseCalls, timed.2.IsRegular := by decide +kernel
  have hreaches : MemoryPool.ReachesAll {} sparseCalls := by decide +kernel
  obtain ⟨hanswers, hnothing⟩ := backends_agree hempty hsame hregular hreaches
  exact ⟨hanswers, (hnothing "a/b" 9 68 8 (by decide +kernel) (by decide +kernel)).1⟩

/-- Nothing is written at byte five of an object that is missing. -/
def nothingAtFive : List (Int × PoolCall) :=
  [(1, .operate (.write "k" [] 5)), (2, .operate (.stat "k"))]

/-- It makes an object of five bytes in memory, and an empty file. -/
theorem nothing_written_at_five :
    emptyPoolDisk.names ["pools", "p"] = .ok [] ∧ (∀ timed ∈ nothingAtFive, timed.2.IsRegular)
      ∧ (PoolCall.runAll (DirectoryPool.respond ⟨["pools", "p"]⟩) emptyPoolDisk
          nothingAtFive).1.map PoolAnswer.timeless ≠
        (PoolCall.runAll MemoryPool.respond {} nothingAtFive).1.map PoolAnswer.timeless := by
  refine ⟨rfl, by decide +kernel, ?_⟩
  have hdisk : (PoolCall.runAll (DirectoryPool.respond ⟨["pools", "p"]⟩) emptyPoolDisk
      nothingAtFive).1 =
      [.ended (.returned (.ok .done)), .ended (.returned (.ok (.stat ⟨0, 1⟩)))] := by rfl
  have hmemory : (PoolCall.runAll MemoryPool.respond {} nothingAtFive).1 =
      [.ended (.returned (.ok .done)), .ended (.returned (.ok (.stat ⟨5, 1⟩)))] := by rfl
  rw [hdisk, hmemory]
  nofun

end DavGateway
