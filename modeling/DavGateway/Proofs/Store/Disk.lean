import DavGateway.Store.Disk

/-!
# A disk entry by entry

Putting an entry at a path and taking one away changes what is found at this path only. A walk goes
through folders, so a change at a place where there is no folder turns no walk aside
(`Disk.walkFrom_of_agrees`).
-/

namespace DavGateway

namespace Disk

variable {d d₁ : Disk} {path other place here target : DiskPath} {entry : DiskEntry} {name : String}

/-! ## Entries -/

theorem lookup_filter (entries : List (DiskPath × DiskEntry)) (path other : DiskPath) :
    (entries.filter fun e => e.1 != path).lookup other =
      if other = path then none else entries.lookup other := by
  induction entries with
  | nil => simp
  | cons e rest ih =>
    by_cases hpath : e.1 = path
    · rw [List.filter_cons_of_neg (by simp [hpath]), ih]
      by_cases hother : other = path
      · rw [if_pos hother, if_pos hother]
      · have hne : (other == e.1) = false := by simpa [hpath] using hother
        rw [if_neg hother, if_neg hother, List.lookup_cons, hne]
    · rw [List.filter_cons_of_pos (by simpa using hpath), List.lookup_cons, List.lookup_cons, ih]
      by_cases hhere : other = e.1
      · have hother : other ≠ path := fun heq => hpath (hhere ▸ heq)
        rw [if_neg hother, if_neg hother]
      · have hne : (other == e.1) = false := by simpa using hhere
        rw [hne]

theorem entry?_put (hpath : path ≠ []) :
    entry? (d.put path entry) other = if other = path then some entry else d.entry? other := by
  unfold entry? put
  by_cases hroot : other = []
  · have hne : other ≠ path := fun heq => hpath (heq ▸ hroot)
    rw [if_pos hroot, if_pos hroot, if_neg hne]
  · rw [if_neg hroot, if_neg hroot, List.lookup_append, lookup_filter]
    by_cases hother : other = path
    · simp [hother]
    · have hne : (other == path) = false := by simpa using hother
      rw [if_neg hother, if_neg hother, List.lookup_cons, hne, List.lookup_nil, Option.or_none]

theorem entry?_drop (hpath : path ≠ []) :
    entry? (d.drop path) other = if other = path then none else d.entry? other := by
  unfold entry? drop
  by_cases hroot : other = []
  · have hne : other ≠ path := fun heq => hpath (heq ▸ hroot)
    rw [if_pos hroot, if_pos hroot, if_neg hne]
  · rw [if_neg hroot, if_neg hroot, lookup_filter]

/-! ## Walks -/

/-- Away from one place, the same is found on both disks. -/
def Agrees (d d₁ : Disk) (place : DiskPath) : Prop :=
  ∀ path, path ≠ place → d₁.entry? path = d.entry? path

theorem agrees_put (hplace : place ≠ []) : d.Agrees (d.put place entry) place := by
  intro path hne
  rw [entry?_put hplace, if_neg hne]

theorem agrees_drop (hplace : place ≠ []) : d.Agrees (d.drop place) place := by
  intro path hne
  rw [entry?_drop hplace, if_neg hne]

theorem walkFrom_append (front back : List String) (here : DiskPath) :
    d.walkFrom here (front ++ back) =
      (d.walkFrom here front).bind fun target => d.walkFrom target back := by
  induction front generalizing here with
  | nil => rfl
  | cons part rest ih =>
    rw [List.cons_append, walkFrom, walkFrom]
    cases d.entry? here with
    | none => rfl
    | some entry =>
      cases entry with
      | file data mtime => rfl
      | folder =>
        simp only
        split
        · exact ih here.dropLast
        · split
          · rfl
          · exact ih (here ++ [part])

/-- A walk that comes to its end is not turned aside by a change at a place that is no folder. -/
theorem walkFrom_of_agrees (hagrees : d.Agrees d₁ place) (hplace : d.entry? place ≠ some .folder)
    {parts : List String} (hwalk : d.walkFrom here parts = .ok target) :
    d₁.walkFrom here parts = .ok target := by
  induction parts generalizing here with
  | nil => exact hwalk
  | cons part rest ih =>
    rw [walkFrom] at hwalk ⊢
    cases hhere : d.entry? here with
    | none =>
      rw [hhere] at hwalk
      cases hwalk
    | some entry =>
      cases entry with
      | file data mtime =>
        rw [hhere] at hwalk
        cases hwalk
      | folder =>
        have hne : here ≠ place := fun heq => hplace (heq ▸ hhere)
        rw [hhere] at hwalk
        rw [hagrees here hne, hhere]
        simp only at hwalk ⊢
        split at hwalk
        · next hup =>
          rw [if_pos hup]
          exact ih hwalk
        · next hup =>
          rw [if_neg hup]
          split at hwalk
          · cases hwalk
          · next hshort =>
            rw [if_neg hshort]
            exact ih hwalk

theorem walk_of_agrees (hagrees : d.Agrees d₁ place) (hplace : d.entry? place ≠ some .folder)
    (hwalk : d.walk path = .ok target) : d₁.walk path = .ok target := by
  unfold walk at hwalk ⊢
  split at hwalk
  · cases hwalk
  · next hnul =>
    rw [if_neg hnul]
    exact walkFrom_of_agrees hagrees hplace hwalk

/-- The last step of a walk is down from a folder, if it is a step down. -/
theorem walk_child (hup : name ≠ "..") (hnul : '\x00' ∉ name.toList) :
    d.walk (path ++ [name]) = (d.walk path).bind fun place =>
      match d.entry? place with
      | none => .error .notFound
      | some (.file _ _) => .error .notDirectory
      | some .folder =>
        if longestName < name.utf8ByteSize then .error .nameTooLong else .ok (place ++ [name]) := by
  have hname : name.toList.contains '\x00' = false := by simpa using hnul
  unfold walk
  rw [List.any_append, List.any_cons, List.any_nil, hname, Bool.or_self, Bool.or_false]
  split
  · rfl
  · rw [walkFrom_append]
    cases d.walkFrom [] path with
    | error e => rfl
    | ok place =>
      cases hentry : d.entry? place with
      | none => simp only [Except.bind, walkFrom, hentry]
      | some entry => cases entry <;> simp only [Except.bind, walkFrom, hentry, if_neg hup]

/-- A walk that ends has no component with a NUL on its way. -/
theorem noNul_of_walk (h : d.walk path = .ok target) {part : String} (hpart : part ∈ path) :
    '\x00' ∉ part.toList := by
  intro hnul
  have hany : (path.any fun part => part.toList.contains '\x00') = true :=
    List.any_eq_true.mpr ⟨part, hpart, by simpa using hnul⟩
  unfold walk at h
  rw [if_pos hany] at h
  cases h

/-! ## Names in a folder -/

/-- The name of a path right below a place. -/
def nameAt? (place path : DiskPath) : Option String :=
  if path.dropLast = place then path.getLast? else none

theorem nameAt?_eq_some : nameAt? place path = some name ↔ path = place ++ [name] := by
  unfold nameAt?
  constructor
  · intro h
    split at h
    · next hplace =>
      obtain ⟨front, hpath⟩ := List.getLast?_eq_some_iff.mp h
      rw [hpath, List.dropLast_concat] at hplace
      rw [hpath, hplace]
    · cases h
  · rintro rfl
    simp

/-- The names of the entries right below a place. -/
def namesAt (d : Disk) (place : DiskPath) : List String :=
  d.entries.filterMap fun e => nameAt? place e.1

theorem names_of_folder (hwalk : d.walk path = .ok place) (hplace : d.entry? place = some .folder) :
    d.names path = .ok (d.namesAt place) := by
  unfold names
  rw [hwalk]
  simp only [bind, Except.bind, hplace]
  rfl

/-- What is found right below a place has its name there. -/
theorem mem_namesAt (h : d.entry? (place ++ [name]) = some entry) : name ∈ d.namesAt place := by
  have hne : place ++ [name] ≠ [] := by simp
  unfold entry? at h
  rw [if_neg hne] at h
  obtain ⟨front, back, hsplit, -⟩ := List.lookup_eq_some_iff.mp h
  refine List.mem_filterMap.mpr ⟨(place ++ [name], entry), ?_, nameAt?_eq_some.mpr rfl⟩
  rw [hsplit]
  simp

/-- A name right below a place is that of an entry. -/
theorem exists_of_mem_namesAt (h : name ∈ d.namesAt place) :
    ∃ entry, (place ++ [name], entry) ∈ d.entries := by
  obtain ⟨⟨path, entry⟩, hentry, hname⟩ := List.mem_filterMap.mp h
  rw [nameAt?_eq_some] at hname
  exact ⟨entry, hname ▸ hentry⟩

theorem entry?_of_mem_namesAt (h : name ∈ d.namesAt place) :
    ∃ entry, d.entry? (place ++ [name]) = some entry := by
  obtain ⟨entry, hentry⟩ := exists_of_mem_namesAt h
  have hsome : (d.entries.lookup (place ++ [name])).isSome := by
    rw [List.lookup_isSome_iff]
    exact ⟨_, hentry, beq_self_eq_true _⟩
  unfold entry?
  rw [if_neg (by simp)]
  exact Option.isSome_iff_exists.mp hsome

theorem namesAt_drop : (d.drop (place ++ [name])).namesAt place =
    (d.namesAt place).filter fun other => other != name := by
  unfold namesAt drop
  rw [List.filterMap_filter, List.filter_filterMap]
  congr 1
  funext e
  cases hname : nameAt? place e.1 with
  | none => simp
  | some other =>
    rw [nameAt?_eq_some.mp hname]
    by_cases hsame : other = name
    · simp [hsame, Option.filter_some]
    · simp [hsame, Option.filter_some]

theorem namesAt_put : (d.put (place ++ [name]) entry).namesAt place =
    (d.namesAt place).filter (fun other => other != name) ++ [name] := by
  have hput : (d.put (place ++ [name]) entry).namesAt place =
      (d.drop (place ++ [name])).namesAt place ++ (nameAt? place (place ++ [name])).toList := by
    unfold namesAt put drop
    rw [List.filterMap_append]
    rfl
  rw [hput, namesAt_drop, nameAt?_eq_some.mpr rfl]
  rfl

end Disk

end DavGateway
