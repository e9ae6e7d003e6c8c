import DavGateway.Proofs.Store.Disk
import DavGateway.Proofs.Store.FileName
import DavGateway.Store.Directory

/-!
# Pools in a directory, file by file

The path of an object is that of the pool's folder and one plain name behind it. So an operation
does at most one thing to the disk (`DirectoryPool.Touches`): it puts or drops the file of its
object right below the folder. All other objects keep their files, and are told about as before.
-/

namespace DavGateway

namespace DirectoryPool

variable {p : DirectoryPool} {d d₁ : Disk} {place path : DiskPath} {key other : String} {now : Int}
variable {operation : Operation}

/-! ## The files of a pool -/

/-- The folder of the pool is there, and this is where its path leads. -/
structure IsAt (p : DirectoryPool) (d : Disk) (place : DiskPath) : Prop where
  walk : d.walk p.folder = .ok place
  folder : d.entry? place = some .folder

/-- Where the file of an object is, in a pool at a place. -/
def fileAt (place : DiskPath) (key : String) : DiskPath := place ++ [FileName.encode key]

theorem fileAt_ne_nil (place : DiskPath) (key : String) : fileAt place key ≠ [] := by
  simp [fileAt]

theorem fileAt_injective (h : fileAt place key = fileAt place other) : key = other := by
  have hname : FileName.encode key = FileName.encode other := by simpa [fileAt] using h
  exact FileName.encode_injective hname

theorem fileAt_ne_place (place : DiskPath) (key : String) : place ≠ fileAt place key := by
  simp [fileAt]

theorem filePath_of_valid (hkey : Names.checkKey key = .ok ()) :
    p.filePath key = .ok (p.folder ++ [FileName.encode key]) := by
  unfold filePath
  rw [hkey]
  rfl

theorem filePath_of_invalid {failure : Failure} (hkey : Names.checkKey key = .error failure) :
    p.filePath key = .error failure := by
  unfold filePath
  rw [hkey]
  rfl

theorem filePath_eq_ok : p.filePath key = .ok path ↔
    Names.checkKey key = .ok () ∧ path = p.folder ++ [FileName.encode key] := by
  cases hkey : Names.checkKey key with
  | error failure => simp [filePath_of_invalid hkey]
  | ok =>
    have hpath : p.filePath key = .ok (p.folder ++ [FileName.encode key]) := filePath_of_valid hkey
    simp [hpath, eq_comm]

/-- The folder of a pool has names exactly if it is there. -/
theorem names_eq_ok {names : List String} : d.names p.folder = .ok names ↔
    ∃ place, p.IsAt d place ∧ names = d.namesAt place := by
  constructor
  · intro h
    unfold Disk.names at h
    cases hwalk : d.walk p.folder with
    | error e =>
      rw [hwalk] at h
      cases h
    | ok place =>
      rw [hwalk] at h
      simp only [bind, Except.bind] at h
      cases hentry : d.entry? place with
      | none =>
        rw [hentry] at h
        cases h
      | some entry =>
        rw [hentry] at h
        cases entry with
        | file data mtime => cases h
        | folder => exact ⟨place, ⟨hwalk, hentry⟩, (Except.ok.inj h).symm⟩
  · rintro ⟨place, hat, rfl⟩
    exact Disk.names_of_folder hat.walk hat.folder

/-- In a pool that is there, the path of an object leads to its file, unless the name is too long.
-/
theorem IsAt.walk_file (h : p.IsAt d place) (hkey : Names.checkKey key = .ok ()) :
    d.walk (p.folder ++ [FileName.encode key]) =
      if Disk.longestName < (FileName.encode key).utf8ByteSize then .error .nameTooLong
      else .ok (fileAt place key) := by
  have hplain := FileName.encode_isPlain hkey
  rw [Disk.walk_child hplain.ne_up hplain.noNul, h.walk]
  simp only [Except.bind, h.folder]
  rfl

/-- What is found at a plain name behind the path of the folder is right below the folder. -/
theorem isAt_of_walk_below {name : String} (hup : name ≠ "..")
    (h : d.walk (p.folder ++ [name]) = .ok path) :
    ∃ place, p.IsAt d place ∧ path = place ++ [name] := by
  have hnul := Disk.noNul_of_walk h (List.mem_append_right _ (List.mem_singleton_self name))
  rw [Disk.walk_child hup hnul] at h
  cases hfolder : d.walk p.folder with
  | error e =>
    rw [hfolder] at h
    cases h
  | ok place =>
    rw [hfolder] at h
    simp only [Except.bind] at h
    cases hentry : d.entry? place with
    | none =>
      rw [hentry] at h
      cases h
    | some entry =>
      rw [hentry] at h
      cases entry with
      | file data mtime => cases h
      | folder =>
        simp only at h
        split at h
        · cases h
        · cases h
          exact ⟨place, ⟨hfolder, hentry⟩, rfl⟩

theorem IsAt.walk_below (h : p.IsAt d place) {name : String} (hup : name ≠ "..")
    (hwalk : d.walk (p.folder ++ [name]) = .ok path) : path = place ++ [name] := by
  obtain ⟨place', hat, rfl⟩ := isAt_of_walk_below hup hwalk
  cases h.walk.symm.trans hat.walk
  rfl

/-- Where the path of an object leads anywhere, it leads to its file in the pool. -/
theorem isAt_of_walk (hkey : Names.checkKey key = .ok ())
    (hwalk : d.walk (p.folder ++ [FileName.encode key]) = .ok path) :
    ∃ place, p.IsAt d place ∧ path = fileAt place key :=
  isAt_of_walk_below (FileName.encode_isPlain hkey).ne_up hwalk

/-! ## What an operation does to the disk -/

/-- What an operation on an object can make of a disk. -/
inductive Touches (p : DirectoryPool) (d : Disk) (key : String) : Disk → Prop where
  | nothing : Touches p d key d
  | put {place : DiskPath} (hat : p.IsAt d place) (hkey : Names.checkKey key = .ok ())
      (hfile : d.entry? (fileAt place key) ≠ some .folder) (data : Bytes) (mtime : Int) :
      Touches p d key (d.put (fileAt place key) (.file data mtime))
  | drop {place : DiskPath} (hat : p.IsAt d place) (hkey : Names.checkKey key = .ok ())
      (hfile : d.entry? (fileAt place key) ≠ some .folder) :
      Touches p d key (d.drop (fileAt place key))

/-- A file is changed where it is found or made, and the disk stays as it is otherwise. -/
theorem changeFile_cases (p : DirectoryPool) (d : Disk) (now : Int)
    (hkey : Names.checkKey key = .ok ()) (f : Bytes → Bytes) :
    (∃ e, d.changeFile (p.folder ++ [FileName.encode key]) now f = .error e)
      ∨ ∃ place data, p.IsAt d place ∧ d.entry? (fileAt place key) ≠ some .folder
        ∧ d.changeFile (p.folder ++ [FileName.encode key]) now f =
          .ok (d.put (fileAt place key) (.file data now)) := by
  unfold Disk.changeFile
  cases hwalk : d.walk (p.folder ++ [FileName.encode key]) with
  | error e => exact .inl ⟨e, rfl⟩
  | ok path =>
    obtain ⟨place, hat, rfl⟩ := isAt_of_walk hkey hwalk
    simp only [bind, Except.bind]
    cases hentry : d.entry? (fileAt place key) with
    | none => exact .inr ⟨place, f [], hat, by simp [hentry], rfl⟩
    | some entry =>
      cases entry with
      | file data mtime => exact .inr ⟨place, f data, hat, by simp [hentry], rfl⟩
      | folder => exact .inl ⟨_, rfl⟩

theorem removeFile_cases (p : DirectoryPool) (d : Disk) (hkey : Names.checkKey key = .ok ()) :
    (∃ e, d.removeFile (p.folder ++ [FileName.encode key]) = .error e)
      ∨ ∃ place, p.IsAt d place ∧ d.entry? (fileAt place key) ≠ some .folder
        ∧ d.removeFile (p.folder ++ [FileName.encode key]) = .ok (d.drop (fileAt place key)) := by
  unfold Disk.removeFile
  cases hwalk : d.walk (p.folder ++ [FileName.encode key]) with
  | error e => exact .inl ⟨e, rfl⟩
  | ok path =>
    obtain ⟨place, hat, rfl⟩ := isAt_of_walk hkey hwalk
    simp only [bind, Except.bind]
    cases hentry : d.entry? (fileAt place key) with
    | none => exact .inl ⟨_, rfl⟩
    | some entry =>
      cases entry with
      | file data mtime => exact .inr ⟨place, hat, by simp [hentry], rfl⟩
      | folder => exact .inl ⟨_, rfl⟩

/-- A write fails and changes nothing, or it puts the file of the object, whether it then goes on to
succeed or is refused. -/
theorem write_cases (p : DirectoryPool) (d : Disk) (now : Int) (key : String) (data : Bytes)
    (offset : Nat) :
    (∃ failure, p.write d now key data offset = (.error failure, d))
      ∨ ∃ place bytes, p.IsAt d place ∧ Names.checkKey key = .ok ()
        ∧ d.entry? (fileAt place key) ≠ some .folder
        ∧ (p.write d now key data offset).2 = d.put (fileAt place key) (.file bytes now) := by
  cases hkey : Names.checkKey key with
  | error failure =>
    left
    refine ⟨failure, ?_⟩
    unfold write
    rw [filePath_of_invalid hkey]
  | ok =>
    have hpath : p.filePath key = .ok (p.folder ++ [FileName.encode key]) := filePath_of_valid hkey
    unfold write
    rw [hpath]
    simp only
    rcases changeFile_cases p d now hkey fun old =>
      if isOutOfRoom data.length offset || data.isEmpty then old else old.overlay offset data with
      ⟨e, he⟩ | ⟨place, bytes, hat, hfile, hok⟩
    · rw [he]
      exact .inl ⟨_, rfl⟩
    · rw [hok]
      exact .inr ⟨place, bytes, hat, trivial, hfile, rfl⟩

/-- A removal fails and changes nothing, or it succeeds and drops the file of the object. -/
theorem remove_cases (p : DirectoryPool) (d : Disk) (key : String) :
    (∃ failure, p.remove d key = (.error failure, d))
      ∨ ∃ place, p.IsAt d place ∧ Names.checkKey key = .ok ()
        ∧ d.entry? (fileAt place key) ≠ some .folder
        ∧ p.remove d key = (.ok (), d.drop (fileAt place key)) := by
  cases hkey : Names.checkKey key with
  | error failure =>
    left
    refine ⟨failure, ?_⟩
    unfold remove
    rw [filePath_of_invalid hkey]
  | ok =>
    have hpath : p.filePath key = .ok (p.folder ++ [FileName.encode key]) := filePath_of_valid hkey
    unfold remove
    rw [hpath]
    simp only
    rcases removeFile_cases p d hkey with ⟨e, he⟩ | ⟨place, hat, hfile, hok⟩
    · rw [he]
      exact .inl ⟨_, rfl⟩
    · rw [hok]
      exact .inr ⟨place, hat, trivial, hfile, rfl⟩

theorem perform_touches (p : DirectoryPool) (d : Disk) (now : Int) (operation : Operation) :
    p.Touches d operation.key (p.perform d now operation).2 := by
  cases operation with
  | stat key => exact .nothing
  | read key length offset => exact .nothing
  | write key data offset =>
    show p.Touches d key (p.write d now key data offset).2
    rcases p.write_cases d now key data offset with
      ⟨failure, hwrite⟩ | ⟨place, bytes, hat, hkey, hfile, hput⟩
    · rw [hwrite]
      exact .nothing
    · rw [hput]
      exact .put hat hkey hfile bytes now
  | remove key =>
    show p.Touches d key (p.remove d key).2
    rcases p.remove_cases d key with ⟨failure, hremove⟩ | ⟨place, hat, hkey, hfile, hremove⟩
    · rw [hremove]
      exact .nothing
    · rw [hremove]
      exact .drop hat hkey hfile

/-! ## What stays as it is -/

namespace Touches

/-- Where the pool is, nothing but the file of the object is changed. -/
theorem agrees (h : p.Touches d key d₁) (hat : p.IsAt d place) :
    d.Agrees d₁ (fileAt place key) := by
  cases h with
  | nothing =>
    intro path hne
    rfl
  | put hat' hkey hfile data mtime =>
    cases hat.walk.symm.trans hat'.walk
    exact Disk.agrees_put (fileAt_ne_nil place key)
  | drop hat' hkey hfile =>
    cases hat.walk.symm.trans hat'.walk
    exact Disk.agrees_drop (fileAt_ne_nil place key)

/-- An entry that is changed is the file of the object, right below the folder of the pool. -/
theorem changed (h : p.Touches d key d₁) (hchanged : d₁.entry? path ≠ d.entry? path) :
    ∃ place, d.walk p.folder = .ok place ∧ path = place ++ [FileName.encode key] := by
  cases h with
  | nothing => exact absurd rfl hchanged
  | put hat hkey hfile data mtime =>
    refine ⟨_, hat.walk, Decidable.byContradiction fun hne => hchanged ?_⟩
    exact Disk.agrees_put (fileAt_ne_nil _ key) path hne
  | drop hat hkey hfile =>
    refine ⟨_, hat.walk, Decidable.byContradiction fun hne => hchanged ?_⟩
    exact Disk.agrees_drop (fileAt_ne_nil _ key) path hne

/-- The pool stays where it is. -/
theorem isAt (h : p.Touches d key d₁) (hat : p.IsAt d place) : p.IsAt d₁ place := by
  have hagrees := h.agrees hat
  have hfolder : d₁.entry? place = some .folder :=
    (hagrees place (fileAt_ne_place place key)).trans hat.folder
  cases h with
  | nothing => exact hat
  | put hat' hkey hfile data mtime =>
    cases hat.walk.symm.trans hat'.walk
    exact ⟨Disk.walk_of_agrees hagrees hfile hat.walk, hfolder⟩
  | drop hat' hkey hfile =>
    cases hat.walk.symm.trans hat'.walk
    exact ⟨Disk.walk_of_agrees hagrees hfile hat.walk, hfolder⟩

/-- What the path of another object leads to is what it led to. -/
theorem find_other (h : p.Touches d key d₁) (hother : other ≠ key)
    (hpath : p.filePath other = .ok path) : d₁.find path = d.find path := by
  obtain ⟨hvalid, rfl⟩ := filePath_eq_ok.mp hpath
  have hplace : ∀ {place}, p.IsAt d place →
      d₁.find (p.folder ++ [FileName.encode other]) =
        d.find (p.folder ++ [FileName.encode other]) := by
    intro place hat
    have hne : fileAt place other ≠ fileAt place key := fun heq => hother (fileAt_injective heq)
    unfold Disk.find
    rw [hat.walk_file hvalid, (h.isAt hat).walk_file hvalid]
    split
    · rfl
    · simp only [bind, Except.bind, h.agrees hat _ hne]
  cases h with
  | nothing => rfl
  | put hat hkey hfile data mtime => exact hplace hat
  | drop hat hkey hfile => exact hplace hat

theorem stat_other (h : p.Touches d key d₁) (hother : other ≠ key) :
    p.stat d₁ other = p.stat d other := by
  unfold stat
  cases hpath : p.filePath other with
  | error failure => rfl
  | ok path => simp only [bind, Except.bind, h.find_other hother hpath]

theorem read_other (h : p.Touches d key d₁) (hother : other ≠ key) (length offset : Nat) :
    p.read d₁ other length offset = p.read d other length offset := by
  unfold read
  cases hpath : p.filePath other with
  | error failure => rfl
  | ok path => simp only [h.find_other hother hpath]

end Touches

/-! ## What an operation answers -/

/-- The pool is there, and the name of the object is one that the disk takes. -/
structure Offers (p : DirectoryPool) (d : Disk) (place : DiskPath) (key : String) : Prop where
  isAt : p.IsAt d place
  valid : Names.checkKey key = .ok ()
  short : (FileName.encode key).utf8ByteSize ≤ Disk.longestName

namespace Offers

variable {data old : Bytes} {mtime : Int} {length offset : Nat}

theorem walk (h : p.Offers d place key) :
    d.walk (p.folder ++ [FileName.encode key]) = .ok (fileAt place key) := by
  rw [h.isAt.walk_file h.valid, if_neg (Nat.not_lt_of_le h.short)]

theorem find_of_some (h : p.Offers d place key) {entry : DiskEntry}
    (hfile : d.entry? (fileAt place key) = some entry) :
    d.find (p.folder ++ [FileName.encode key]) = .ok entry := by
  unfold Disk.find
  rw [h.walk]
  simp only [bind, Except.bind, hfile]

theorem find_of_none (h : p.Offers d place key) (hfile : d.entry? (fileAt place key) = none) :
    d.find (p.folder ++ [FileName.encode key]) = .error .notFound := by
  unfold Disk.find
  rw [h.walk]
  simp only [bind, Except.bind, hfile]

theorem stat_of_some (h : p.Offers d place key)
    (hfile : d.entry? (fileAt place key) = some (.file data mtime)) :
    p.stat d key = .ok ⟨data.length, mtime⟩ := by
  unfold stat
  rw [filePath_of_valid h.valid]
  simp only [bind, Except.bind, h.find_of_some hfile]

/-- A folder is no object. -/
theorem stat_of_folder (h : p.Offers d place key)
    (hfile : d.entry? (fileAt place key) = some .folder) :
    p.stat d key = .error (.objectNotFound key) := by
  unfold stat
  rw [filePath_of_valid h.valid]
  simp only [bind, Except.bind, h.find_of_some hfile]

theorem stat_of_none (h : p.Offers d place key) (hfile : d.entry? (fileAt place key) = none) :
    p.stat d key = .error (.objectNotFound key) := by
  unfold stat
  rw [filePath_of_valid h.valid]
  simp only [bind, Except.bind, h.find_of_none hfile]
  rfl

theorem read_of_some (h : p.Offers d place key)
    (hfile : d.entry? (fileAt place key) = some (.file data mtime))
    (hlength : length < Text.signedLimit) (hoffset : offset < Text.signedLimit) :
    p.read d key length offset = .returned (.ok (data.slice offset length)) := by
  unfold read
  rw [filePath_of_valid h.valid]
  simp only [h.find_of_some hfile, if_neg (Nat.not_le_of_lt hoffset),
    if_neg (Nat.not_le_of_lt hlength)]

theorem read_of_none (h : p.Offers d place key) (hfile : d.entry? (fileAt place key) = none) :
    p.read d key length offset = .returned (.error (.objectNotFound key)) := by
  unfold read
  rw [filePath_of_valid h.valid]
  simp only [h.find_of_none hfile]
  rfl

/-- A small write lays its data over the file, which is empty before if it is missing. -/
theorem write_small (h : p.Offers d place key)
    (hfile : d.entry? (fileAt place key) = none ∧ old = []
      ∨ ∃ mtime, d.entry? (fileAt place key) = some (.file old mtime))
    (hsmall : offset + data.length < Text.signedLimit) :
    p.write d now key data offset = (.ok (), d.put (fileAt place key)
      (.file (if data.isEmpty then old else old.overlay offset data) now)) := by
  have hroom : isOutOfRoom data.length offset = false := by
    have hoffset : ¬ Text.signedLimit ≤ offset := by omega
    have hend : ¬ Text.signedLimit ≤ offset + data.length := by omega
    simp [isOutOfRoom, hoffset, hend]
  unfold write
  rw [filePath_of_valid h.valid]
  simp only [hroom, Bool.false_or]
  unfold Disk.changeFile
  rw [h.walk]
  rcases hfile with ⟨hnone, rfl⟩ | ⟨mtime, hsome⟩
  · simp only [bind, Except.bind, hnone]
    rfl
  · simp only [bind, Except.bind, hsome]
    rfl

theorem remove_of_some (h : p.Offers d place key)
    (hfile : d.entry? (fileAt place key) = some (.file data mtime)) :
    p.remove d key = (.ok (), d.drop (fileAt place key)) := by
  unfold remove
  rw [filePath_of_valid h.valid]
  simp only [Disk.removeFile, h.walk, bind, Except.bind, hfile]

theorem remove_of_none (h : p.Offers d place key) (hfile : d.entry? (fileAt place key) = none) :
    p.remove d key = (.error (.objectNotFound key), d) := by
  unfold remove
  rw [filePath_of_valid h.valid]
  simp only [Disk.removeFile, h.walk, bind, Except.bind, hfile]
  rfl

end Offers

/-! ## Listings -/

/-- The keys of names, in ascending order. -/
def keysOf (names : List String) : List String :=
  (names.filterMap FileName.decode?).mergeSort fun a b => decide (a ≤ b)

theorem IsAt.keys (h : p.IsAt d place) : p.keys d = .ok (keysOf (d.namesAt place)) := by
  unfold DirectoryPool.keys
  rw [Disk.names_of_folder h.walk h.folder]
  rfl

theorem pairwise_keysOf (names : List String) : (keysOf names).Pairwise (· ≤ ·) := by
  have htrans : ∀ a b c : String, decide (a ≤ b) = true → decide (b ≤ c) = true →
      decide (a ≤ c) = true := by
    intro a b c hab hbc
    exact decide_eq_true (String.le_trans (of_decide_eq_true hab) (of_decide_eq_true hbc))
  have htotal : ∀ a b : String, (decide (a ≤ b) || decide (b ≤ a)) = true := by
    intro a b
    rcases String.le_total a b with hle | hle
    · simp [hle]
    · simp [hle]
  unfold keysOf
  simpa only [decide_eq_true_eq] using
    List.pairwise_mergeSort htrans htotal (names.filterMap FileName.decode?)

/-- Without the name of a key, the names stand for the same other keys. -/
theorem filter_keysOf (names : List String) (key : String) :
    (keysOf (names.filter fun name => name != FileName.encode key)).filter (fun k => k != key) =
      (keysOf names).filter fun k => k != key := by
  have hsame : ((names.filter fun name => name != FileName.encode key).filterMap
      FileName.decode?).filter (fun k => k != key) =
        (names.filterMap FileName.decode?).filter fun k => k != key := by
    rw [List.filterMap_filter, List.filter_filterMap, List.filter_filterMap]
    congr 1
    funext name
    by_cases hname : name = FileName.encode key
    · simp [hname, Option.filter_some]
    · simp [hname]
  have hperm : ((keysOf (names.filter fun name => name != FileName.encode key)).filter
      fun k => k != key).Perm ((keysOf names).filter fun k => k != key) := by
    unfold keysOf
    refine ((List.mergeSort_perm _ _).filter _).trans ?_
    rw [hsame]
    exact ((List.mergeSort_perm _ _).filter _).symm
  exact hperm.eq_of_pairwise (fun a b _ _ hab hba => String.le_antisymm hab hba)
    ((pairwise_keysOf _).filter _) ((pairwise_keysOf _).filter _)

end DirectoryPool

end DavGateway
