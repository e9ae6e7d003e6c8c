import DavGateway.Proofs.Store.KeySpace

/-!
# Folders come and stay

A folder is made where nothing was found before, and no store operation takes it away: the disk
keeps all the folders that it has (`Disk.KeepsFolders`). Making a path of folders adds the folders
on the way to its end and nothing else (`Disk.Paves`), so a folder that is new has nothing in it.
-/

namespace DavGateway

open DirectoryPool (IsAt)

namespace Disk

variable {d d₁ d₂ : Disk} {path place target : DiskPath} {name : String} {parts : List String}

/-! ## Places -/

theorem isFolder_iff : d.isFolder path = true ↔ ∃ place, IsAt ⟨path⟩ d place := by
  constructor
  · intro h
    unfold isFolder find at h
    cases hwalk : d.walk path with
    | error e =>
      rw [hwalk] at h
      cases h
    | ok place =>
      rw [hwalk] at h
      simp only [bind, Except.bind] at h
      refine ⟨place, hwalk, ?_⟩
      cases hentry : d.entry? place with
      | none =>
        rw [hentry] at h
        cases h
      | some entry =>
        rw [hentry] at h
        cases entry with
        | file data mtime => cases h
        | folder => rfl
  · rintro ⟨place, hat⟩
    unfold isFolder find
    rw [hat.walk]
    simp only [bind, Except.bind, hat.folder]

/-- A step down from a folder can be made under any name that the disk takes. -/
theorem walk_into (hat : IsAt ⟨path⟩ d place) (hup : name ≠ "..")
    (hnul : '\x00' ∉ name.toList) (hshort : name.utf8ByteSize ≤ longestName) :
    d.walk (path ++ [name]) = .ok (place ++ [name]) := by
  rw [walk_child hup hnul, hat.walk]
  simp only [Except.bind, hat.folder, if_neg (Nat.not_lt_of_le hshort)]

/-! ## What stays -/

/-- Every path that leads to a folder on the first disk leads to the same one on the second. -/
def KeepsFolders (d d₁ : Disk) : Prop :=
  ∀ {path place : DiskPath}, IsAt ⟨path⟩ d place → IsAt ⟨path⟩ d₁ place

theorem KeepsFolders.trans (h : d.KeepsFolders d₁) (h₁ : d₁.KeepsFolders d₂) :
    d.KeepsFolders d₂ := fun hat => h₁ (h hat)

/-- A change where there is no folder keeps the folders. -/
theorem keepsFolders_of_agrees (hagrees : d.Agrees d₁ target)
    (htarget : d.entry? target ≠ some .folder) : d.KeepsFolders d₁ := by
  intro path place hat
  refine ⟨walk_of_agrees hagrees htarget hat.walk, ?_⟩
  rw [hagrees place fun heq => htarget (heq ▸ hat.folder)]
  exact hat.folder

/-- A step down from a folder leads to the same place. -/
theorem walk_of_keeps (h : d.KeepsFolders d₁) (hup : name ≠ "..")
    (hwalk : d.walk (path ++ [name]) = .ok target) : d₁.walk (path ++ [name]) = .ok target := by
  have hnul := noNul_of_walk hwalk (List.mem_append_right _ (List.mem_singleton_self name))
  obtain ⟨place, hat, -⟩ := DirectoryPool.isAt_of_walk_below (p := ⟨path⟩) hup hwalk
  have hat₁ := h hat
  rw [walk_child hup hnul, hat.walk] at hwalk
  rw [walk_child hup hnul, hat₁.walk]
  simp only [Except.bind, hat.folder] at hwalk
  simp only [Except.bind, hat₁.folder]
  exact hwalk

/-- A store operation keeps the folders. -/
theorem keepsFolders_touches {p : DirectoryPool} {key : String} (h : p.Touches d key d₁) :
    d.KeepsFolders d₁ := by
  cases h with
  | nothing => exact id
  | put hat hkey hfile data mtime =>
    exact keepsFolders_of_agrees (agrees_put (DirectoryPool.fileAt_ne_nil _ key)) hfile
  | drop hat hkey hfile =>
    exact keepsFolders_of_agrees (agrees_drop (DirectoryPool.fileAt_ne_nil _ key)) hfile

/-- A file is changed where the path leads to, and no folder was found there. -/
theorem changeFile_eq_ok {now : Int} {f : Bytes → Bytes} (h : d.changeFile path now f = .ok d₁) :
    ∃ target data, d.walk path = .ok target ∧ d.entry? target ≠ some .folder
      ∧ d₁ = d.put target (.file data now) := by
  unfold changeFile at h
  cases hwalk : d.walk path with
  | error e =>
    rw [hwalk] at h
    cases h
  | ok target =>
    rw [hwalk] at h
    simp only [bind, Except.bind] at h
    cases hentry : d.entry? target with
    | none =>
      rw [hentry] at h
      cases h
      exact ⟨target, f [], rfl, by simp [hentry], rfl⟩
    | some entry =>
      rw [hentry] at h
      cases entry with
      | folder => cases h
      | file data mtime =>
        cases h
        exact ⟨target, f data, rfl, by simp [hentry], rfl⟩

/-! ## Making a folder -/

/-- A folder is made where the path leads to, and nothing was found there. -/
theorem makeFolder_eq_ok : d.makeFolder path = .ok d₁ ↔
    ∃ target, d.walk path = .ok target ∧ d.entry? target = none ∧ d₁ = d.put target .folder := by
  unfold makeFolder
  cases hwalk : d.walk path with
  | error e => simp [bind, Except.bind]
  | ok target =>
    simp only [bind, Except.bind, Except.ok.injEq, exists_eq_left']
    cases hentry : d.entry? target with
    | none => simp [eq_comm]
    | some entry => simp

theorem makeFolder_eq_exists : d.makeFolder path = .error .alreadyExists ↔
    d.walk path = .error .alreadyExists
      ∨ ∃ target entry, d.walk path = .ok target ∧ d.entry? target = some entry := by
  unfold makeFolder
  cases hwalk : d.walk path with
  | error e => simp [bind, Except.bind]
  | ok target =>
    simp only [bind, Except.bind]
    cases hentry : d.entry? target with
    | none => simp [hentry]
    | some entry => simp [hentry]

theorem ne_nil_of_entry?_eq_none (h : d.entry? target = none) : target ≠ [] := by
  rintro rfl
  cases h

/-- A new folder is there afterwards, and so are all the others. -/
theorem makeFolder_keeps (h : d.makeFolder path = .ok d₁) :
    d.KeepsFolders d₁ ∧ d₁.isFolder path = true := by
  obtain ⟨target, hwalk, hnone, rfl⟩ := makeFolder_eq_ok.mp h
  have htarget : target ≠ [] := ne_nil_of_entry?_eq_none hnone
  have hfile : d.entry? target ≠ some .folder := by simp [hnone]
  have hagrees : d.Agrees (d.put target .folder) target := agrees_put htarget
  refine ⟨keepsFolders_of_agrees hagrees hfile, isFolder_iff.mpr ⟨target, ?_, ?_⟩⟩
  · exact walk_of_agrees hagrees hfile hwalk
  · rw [entry?_put htarget, if_pos rfl]

/-! ## Making a path of folders -/

/-- Without steps up, a walk ends at the path itself. -/
theorem walkFrom_plain {here : DiskPath} (hplain : ".." ∉ parts)
    (h : d.walkFrom here parts = .ok target) : target = here ++ parts := by
  induction parts generalizing here with
  | nil =>
    cases h
    exact (List.append_nil _).symm
  | cons part rest ih =>
    have hpart : part ≠ ".." := fun heq => hplain (heq ▸ List.mem_cons_self)
    have hrest : ".." ∉ rest := fun hmem => hplain (List.mem_cons_of_mem part hmem)
    rw [walkFrom] at h
    cases hentry : d.entry? here with
    | none =>
      rw [hentry] at h
      cases h
    | some entry =>
      rw [hentry] at h
      cases entry with
      | file data mtime => cases h
      | folder =>
        simp only [if_neg hpart] at h
        split at h
        · cases h
        · rw [ih hrest h, List.append_assoc]
          rfl

theorem walk_plain (hplain : ".." ∉ path) (h : d.walk path = .ok target) : target = path := by
  unfold walk at h
  split at h
  · cases h
  · exact walkFrom_plain hplain h

/-- The path leads to a folder on the second disk, and only what is on the way to its end may be new
there. -/
structure Paves (d d₁ : Disk) (path : DiskPath) : Prop where
  isFolder : d₁.isFolder path = true
  frame : ∀ other, ¬ other <+: path → d₁.entry? other = d.entry? other

theorem ensureFolder_paves (hplain : ".." ∉ path) (h : d.ensureFolder path = .ok d₁) :
    d.Paves d₁ path := by
  unfold ensureFolder at h
  cases hmake : d.makeFolder path with
  | ok d₂ =>
    rw [hmake] at h
    cases h
    refine ⟨(makeFolder_keeps hmake).2, ?_⟩
    intro other hother
    obtain ⟨target, hwalk, hnone, rfl⟩ := makeFolder_eq_ok.mp hmake
    have htarget : target = path := walk_plain hplain hwalk
    exact agrees_put (ne_nil_of_entry?_eq_none hnone) other
      fun heq => hother (heq.trans htarget ▸ List.prefix_rfl)
  | error e =>
    rw [hmake] at h
    simp only at h
    split at h
    · next hfolder =>
      cases h
      exact ⟨hfolder, fun _ _ => rfl⟩
    · cases h

/-- Making a path of folders adds those on the way to its end. -/
theorem ensureFolders_paves {parts : List String} (hplain : ".." ∉ parts)
    (h : d.ensureFolders parts = (.ok (), d₁)) : d.Paves d₁ parts.reverse := by
  -- induction on the path, from its end upwards
  induction parts generalizing d₁ with
  | nil =>
    cases h
    exact ⟨rfl, fun _ _ => rfl⟩
  | cons part above ih =>
    have habove : ".." ∉ above := fun hmem => hplain (List.mem_cons_of_mem part hmem)
    have hreverse : ".." ∉ (part :: above).reverse := fun hmem => hplain (List.mem_reverse.mp hmem)
    rw [ensureFolders] at h
    split at h
    · next d₂ hfirst =>
      cases h
      exact ensureFolder_paves hreverse hfirst
    · -- the folders above are made first
      split at h
      · cases h
      · next d₂ hrest =>
        split at h
        · next d₃ hsecond =>
          cases h
          have hupper := ih habove hrest
          have hlast := ensureFolder_paves hreverse hsecond
          refine ⟨hlast.isFolder, fun other hother => ?_⟩
          rw [hlast.frame other hother]
          refine hupper.frame other fun hway => hother (hway.trans ?_)
          rw [List.reverse_cons]
          exact List.prefix_append _ _
        · cases h
    · cases h

/-- A path of folders that are there is left as it is. -/
theorem makeFolders_of_isFolder (h : d.isFolder path = true) : d.makeFolders path = (.ok (), d) := by
  obtain ⟨place, hat⟩ := isFolder_iff.mp h
  unfold makeFolders
  cases hparts : path.reverse with
  | nil => rfl
  | cons part above =>
    have hpath : (part :: above).reverse = path := by rw [← hparts, List.reverse_reverse]
    have hexists : d.makeFolder path = .error .alreadyExists :=
      makeFolder_eq_exists.mpr (.inr ⟨place, .folder, hat.walk, hat.folder⟩)
    have hensure : d.ensureFolder path = .ok d := by
      unfold ensureFolder
      rw [hexists]
      simp only [h, if_true]
    rw [ensureFolders]
    simp only [hpath, hensure]

/-! ## Room for new pools -/

/-- There is nothing in the folder, or neither the folder nor anything below it. -/
inductive Vacant (d : Disk) (root : DiskPath) : Prop
  | empty (h : d.names root = .ok [])
  | missing (hplain : ".." ∉ root) (h : ∀ path, root <+: path → d.entry? path = none)

/-- A vacant folder that is made, or was there, has nothing in it. -/
theorem Vacant.makeFolders {root : DiskPath} (h : d.Vacant root)
    (hmade : d.makeFolders root = (.ok (), d₁)) :
    ∃ place, IsAt ⟨root⟩ d₁ place ∧ ∀ name, d₁.entry? (place ++ [name]) = none := by
  cases h with
  | empty hempty =>
    obtain ⟨place, hshows⟩ := DirectoryPool.shows_empty (p := ⟨root⟩) hempty
    have hfolder : d.isFolder root = true := isFolder_iff.mpr ⟨place, hshows.isAt⟩
    rw [makeFolders_of_isFolder hfolder] at hmade
    cases hmade
    refine ⟨place, hshows.isAt, fun name => ?_⟩
    cases hentry : d.entry? (place ++ [name]) with
    | none => rfl
    | some entry =>
      have hname := mem_namesAt hentry
      rw [hshows.names] at hname
      cases hname
  | missing hplain hnone =>
    have hpaves : d.Paves d₁ root := by
      have hreversed : d.Paves d₁ root.reverse.reverse :=
        ensureFolders_paves (fun hmem => hplain (List.mem_reverse.mp hmem)) hmade
      rwa [List.reverse_reverse] at hreversed
    obtain ⟨place, hat⟩ := isFolder_iff.mp hpaves.isFolder
    have hplace : place = root := walk_plain hplain hat.walk
    subst hplace
    refine ⟨place, hat, fun name => ?_⟩
    rw [hpaves.frame (place ++ [name]) fun hway => ?_]
    · exact hnone _ (List.prefix_append _ _)
    · have hlength := hway.length_le
      rw [List.length_append, List.length_singleton] at hlength
      omega

end Disk

end DavGateway
