import DavGateway.Proofs.Store.Directory
import Mathlib.Data.List.Nodup

/-!
# Listed names

A folder can hold names that no key was ever given, such as those of files put there by hand. Of
those that stand for a key, the only ones that are not the name of their key have the escape of a
dot behind the front, where a dot is written as it is (`FileName.encode_eq_iff`). Apart from these,
no two names stand for one key, and a key that is listed leads back to the very file that it was
read from.
-/

namespace DavGateway

namespace FileName

variable {s k : List Char} {name other key : String}

/-- The escape of a dot stands behind the front of the name. -/
def HasInnerDot (name : String) : Prop := ['%', '2', 'E'] <:+: name.toList.tail

instance : Decidable (HasInnerDot name) := inferInstanceAs (Decidable (_ <:+: _))

/-! ## Behind the front -/

/-- Text without a plain slash and without the escape of a dot. -/
structure IsBack (s : List Char) : Prop where
  noSlash : '/' ∉ s
  noDot : ¬ ['%', '2', 'E'] <:+: s

theorem IsBack.rest (front : List Char) {rest : List Char} (h : IsBack (front ++ rest)) :
    IsBack rest where
  noSlash := fun hmem => h.noSlash (List.mem_append_right front hmem)
  noDot := fun hinner => h.noDot (hinner.trans (List.suffix_append front rest).isInfix)

/-- Such text is what is written for the characters that are read from it. -/
theorem IsBack.flatMap_eq (hback : IsBack s) (h : unescape? s = some k) :
    k.flatMap escapeChar = s := by
  fun_induction unescape? s generalizing k with
  | case1 =>
    cases h
    rfl
  | case2 rest ih | case3 rest ih =>
    obtain ⟨k, hk, rfl⟩ := Option.map_eq_some_iff.mp h
    rw [List.flatMap_cons, ih (IsBack.rest ['%', '2', _] hback) hk]
    rfl
  | case4 rest ih =>
    exact absurd (List.prefix_append ['%', '2', 'E'] rest).isInfix hback.noDot
  | case5 rest h1 h2 h3 => cases h
  | case6 c rest h1 h2 h3 hc ih =>
    obtain ⟨k, hk, rfl⟩ := Option.map_eq_some_iff.mp h
    have hslash : c ≠ '/' := fun heq => hback.noSlash (heq ▸ List.mem_cons_self)
    rw [List.flatMap_cons, ih (IsBack.rest [c] hback) hk, escapeChar_of_ne hc hslash]
    rfl

/-- What is written behind the front of a name has no escape of a dot. -/
theorem not_infix_flatMap (k : List Char) : ¬ ['%', '2', 'E'] <:+: k.flatMap escapeChar := by
  induction k with
  | nil => decide
  | cons c k ih =>
    rw [List.flatMap_cons]
    by_cases hpercent : c = '%'
    · subst hpercent
      simpa [escapeChar, List.infix_cons_iff, List.cons_prefix_cons] using ih
    · by_cases hslash : c = '/'
      · subst hslash
        simpa [escapeChar, List.infix_cons_iff, List.cons_prefix_cons] using ih
      · rw [escapeChar_of_ne hpercent hslash]
        simpa [List.infix_cons_iff, List.cons_prefix_cons, Ne.symm hpercent] using ih

theorem flatMap_eq_iff (hslash : '/' ∉ s) (h : unescape? s = some k) :
    k.flatMap escapeChar = s ↔ ¬ ['%', '2', 'E'] <:+: s :=
  ⟨fun heq => heq ▸ not_infix_flatMap k, fun hdot => IsBack.flatMap_eq ⟨hslash, hdot⟩ h⟩

/-! ## The front -/

/-- A dot is read at the front only from its escape, as a name does not begin with a dot. -/
theorem head?_of_unescape? (h : unescape? s = some k) (hdot : s.head? ≠ some '.')
    (hescape : ¬ ['%', '2', 'E'] <+: s) : k.head? ≠ some '.' := by
  fun_induction unescape? s generalizing k with
  | case1 =>
    cases h
    nofun
  | case2 rest ih | case3 rest ih =>
    obtain ⟨k, -, rfl⟩ := Option.map_eq_some_iff.mp h
    simp
  | case4 rest ih => exact absurd (List.prefix_append ['%', '2', 'E'] rest) hescape
  | case5 rest h1 h2 h3 => cases h
  | case6 c rest h1 h2 h3 hc ih =>
    obtain ⟨k, -, rfl⟩ := Option.map_eq_some_iff.mp h
    simpa using hdot

theorem encodeChars_of_head? (h : k.head? ≠ some '.') : encodeChars k = k.flatMap escapeChar := by
  unfold encodeChars
  split
  · exact absurd rfl h
  · rfl

theorem encodeChars_eq_iff (h : decodeChars? s = some k) (hslash : '/' ∉ s) :
    encodeChars k = s ↔ ¬ ['%', '2', 'E'] <:+: s.tail := by
  obtain ⟨hhead, hread⟩ := decodeChars?_eq_some.mp h
  by_cases hescape : ['%', '2', 'E'] <+: s
  · -- the dot at the front is written again as it was, so the rest decides
    obtain ⟨rest, rfl⟩ := hescape
    obtain ⟨k, hk, rfl⟩ := Option.map_eq_some_iff.mp hread
    have hrest : '/' ∉ rest := fun hmem => hslash (List.mem_append_right _ hmem)
    calc encodeChars ('.' :: k) = ['%', '2', 'E'] ++ rest
      _ ↔ k.flatMap escapeChar = rest := by simp [encodeChars]
      _ ↔ ¬ ['%', '2', 'E'] <:+: rest := flatMap_eq_iff hrest hk
      _ ↔ ¬ ['%', '2', 'E'] <:+: (['%', '2', 'E'] ++ rest).tail := by
        simp [List.infix_cons_iff, List.cons_prefix_cons]
  · have htail : ['%', '2', 'E'] <:+: s ↔ ['%', '2', 'E'] <:+: s.tail := by
      cases s with
      | nil => rfl
      | cons c rest => rw [List.infix_cons_iff, or_iff_right hescape, List.tail_cons]
    rw [encodeChars_of_head? (head?_of_unescape? hread hhead hescape), flatMap_eq_iff hslash hread,
      htail]

/-- A name that stands for a key is the name of this key, unless it has the escape of a dot behind
its front. -/
theorem encode_eq_iff (h : decode? name = some key) (hslash : '/' ∉ name.toList) :
    encode key = name ↔ ¬ HasInnerDot name := by
  obtain ⟨k, hk, rfl⟩ := Option.map_eq_some_iff.mp h
  rw [HasInnerDot, ← encodeChars_eq_iff hk hslash, encode, String.toList_ofList]
  constructor
  · rintro rfl
    exact String.toList_ofList.symm
  · intro heq
    rw [heq, String.ofList_toList]

/-- Two names stand for the same key only if one of them has the escape of a dot behind its front. -/
theorem inner_dot_of_decode? (hname : decode? name = some key) (hother : decode? other = some key)
    (hslash : '/' ∉ name.toList) (hslash' : '/' ∉ other.toList) (hne : name ≠ other) :
    HasInnerDot name ∨ HasInnerDot other := by
  by_contra hnone
  obtain ⟨hdot, hdot'⟩ := not_or.mp hnone
  have hfirst : encode key = name := (encode_eq_iff hname hslash).mpr hdot
  have hsecond : encode key = other := (encode_eq_iff hother hslash').mpr hdot'
  exact hne (hfirst.symm.trans hsecond)

theorem mem_encodeChars_of_mem {c : Char} (h : c ∈ s) (hpercent : c ≠ '%') (hslash : c ≠ '/')
    (hdot : c ≠ '.') : c ∈ encodeChars s := by
  have hplain : ∀ {t : List Char}, c ∈ t → c ∈ t.flatMap escapeChar := by
    intro t ht
    refine List.mem_flatMap.mpr ⟨c, ht, ?_⟩
    rw [escapeChar_of_ne hpercent hslash]
    exact List.mem_singleton_self c
  unfold encodeChars
  split
  · next rest =>
    have hrest : c ∈ rest := (List.mem_cons.mp h).resolve_left hdot
    exact List.mem_append_right ['%', '2', 'E'] (hplain hrest)
  · exact hplain h

/-- A key is accepted if a folder can hold its name. -/
theorem checkKey_of_encode (hempty : encode key ≠ "") (hnul : '\x00' ∉ (encode key).toList) :
    Names.checkKey key = .ok () := by
  refine Names.checkKey_eq_ok.mpr ⟨?_, ?_⟩
  · rintro rfl
    exact hempty rfl
  · intro hmem
    apply hnul
    rw [encode, String.toList_ofList]
    exact mem_encodeChars_of_mem hmem (by decide) (by decide) (by decide)

end FileName

/-! ## Proper disks -/

namespace Disk

variable {d : Disk} {place : DiskPath} {name : String}

/-- A name that a folder can hold. -/
structure IsName (name : String) : Prop where
  ne_empty : name ≠ ""
  noSlash : '/' ∉ name.toList
  noNul : '\x00' ∉ name.toList
  short : name.utf8ByteSize ≤ longestName

/-- All names on the disk are such that a folder can hold them, and no two entries have one path. -/
structure IsProper (d : Disk) : Prop where
  named : ∀ entry ∈ d.entries, ∀ name ∈ entry.1, IsName name
  single : (d.entries.map (·.1)).Nodup

instance : Decidable (IsName name) :=
  decidable_of_iff (name ≠ "" ∧ '/' ∉ name.toList ∧ '\x00' ∉ name.toList
      ∧ name.utf8ByteSize ≤ longestName)
    ⟨fun ⟨hempty, hslash, hnul, hshort⟩ => ⟨hempty, hslash, hnul, hshort⟩,
      fun h => ⟨h.ne_empty, h.noSlash, h.noNul, h.short⟩⟩

instance : Decidable d.IsProper :=
  decidable_of_iff ((∀ entry ∈ d.entries, ∀ name ∈ entry.1, IsName name)
      ∧ (d.entries.map (·.1)).Nodup)
    ⟨fun ⟨hnamed, hsingle⟩ => ⟨hnamed, hsingle⟩, fun h => ⟨h.named, h.single⟩⟩

theorem IsProper.isName (h : d.IsProper) (hname : name ∈ d.namesAt place) : IsName name := by
  obtain ⟨entry, hentry⟩ := exists_of_mem_namesAt hname
  exact h.named _ hentry name (List.mem_append_right place (List.mem_singleton_self name))

theorem IsProper.nodup_namesAt (h : d.IsProper) (place : DiskPath) : (d.namesAt place).Nodup := by
  have hpaths : d.namesAt place = (d.entries.map (·.1)).filterMap (nameAt? place) := by
    rw [List.filterMap_map]
    rfl
  rw [hpaths]
  refine List.Nodup.filterMap ?_ h.single
  intro path path' name hpath hpath'
  rw [nameAt?_eq_some.mp hpath, nameAt?_eq_some.mp hpath']

end Disk

/-! ## Listings of a pool -/

namespace DirectoryPool

variable {p : DirectoryPool} {d : Disk} {place : DiskPath} {name key : String}
variable {names : List String}

/-- What is told about the key is what is found under the name in the folder of the pool. A folder
is no object. -/
inductive LeadsTo (p : DirectoryPool) (d : Disk) (key name : String) : Prop
  | file {data : Bytes} {mtime : Int} (hfind : d.find (p.folder ++ [name]) = .ok (.file data mtime))
      (hstat : p.stat d key = .ok ⟨data.length, mtime⟩)
      (hread : ∀ length offset, length < Text.signedLimit → offset < Text.signedLimit →
        p.read d key length offset = .returned (.ok (data.slice offset length)))
  | folder (hfind : d.find (p.folder ++ [name]) = .ok .folder)
      (hstat : p.stat d key = .error (.objectNotFound key))

/-- The name of a listed key leads from the key to what has this name. -/
theorem IsAt.leadsTo (hat : p.IsAt d place) (hname : name ∈ d.namesAt place)
    (hproper : Disk.IsName name) (hencode : FileName.encode key = name) : p.LeadsTo d key name := by
  subst hencode
  have hoffers : p.Offers d place key :=
    ⟨hat, FileName.checkKey_of_encode hproper.ne_empty hproper.noNul, hproper.short⟩
  obtain ⟨entry, hentry⟩ := Disk.entry?_of_mem_namesAt hname
  cases entry with
  | file data mtime =>
    refine .file (hoffers.find_of_some hentry) (hoffers.stat_of_some hentry) ?_
    intro length offset hlength hoffset
    exact hoffers.read_of_some hentry hlength hoffset
  | folder => exact .folder (hoffers.find_of_some hentry) (hoffers.stat_of_folder hentry)

theorem mem_keysOf : key ∈ keysOf names ↔ ∃ name ∈ names, FileName.decode? name = some key := by
  rw [keysOf, List.mem_mergeSort, List.mem_filterMap]

theorem nodup_keysOf (hnames : names.Nodup) (hslash : ∀ name ∈ names, '/' ∉ name.toList)
    (hdots : ∀ name ∈ names, FileName.HasInnerDot name → FileName.decode? name = none) :
    (keysOf names).Nodup := by
  rw [keysOf, (List.mergeSort_perm _ _).nodup_iff]
  refine List.pairwise_filterMap.mpr (List.Pairwise.imp_of_mem ?_ hnames)
  rintro name other hname hother hne key hkey _ hkey' rfl
  rcases FileName.inner_dot_of_decode? hkey hkey' (hslash name hname) (hslash other hother) hne with
    hdot | hdot
  · rw [hdots name hname hdot] at hkey
    cases hkey
  · rw [hdots other hother hdot] at hkey'
    cases hkey'

/-- What the keys of a pool tell about the names in its folder. -/
structure LeadsBack (p : DirectoryPool) (d : Disk) (names keys : List String) : Prop where
  listed : ∀ key, key ∈ keys ↔ ∃ name ∈ names, FileName.decode? name = some key
  /-- No two names are listed as one key, unless one of them has an inner dot. -/
  apart : ∀ name ∈ names, ∀ other ∈ names, ∀ key, FileName.decode? name = some key →
    FileName.decode? other = some key → name ≠ other →
      FileName.HasInnerDot name ∨ FileName.HasInnerDot other
  nodup : (∀ name ∈ names, FileName.HasInnerDot name → FileName.decode? name = none) → keys.Nodup
  /-- What is told about a key is what is found under the name that it was read from. -/
  leads : ∀ name ∈ names, ∀ key, FileName.decode? name = some key →
    ¬ FileName.HasInnerDot name → p.LeadsTo d key name

theorem IsAt.leadsBack (hat : p.IsAt d place) (hd : d.IsProper) :
    p.LeadsBack d (d.namesAt place) (keysOf (d.namesAt place)) where
  listed := fun _ => mem_keysOf
  apart := by
    intro name hname other hother key hkey hkey' hne
    exact FileName.inner_dot_of_decode? hkey hkey' (hd.isName hname).noSlash
      (hd.isName hother).noSlash hne
  nodup := nodup_keysOf (hd.nodup_namesAt place) fun _ hname => (hd.isName hname).noSlash
  leads := by
    intro name hname key hkey hdot
    have hproper := hd.isName hname
    exact hat.leadsTo hname hproper ((FileName.encode_eq_iff hkey hproper.noSlash).mpr hdot)

end DirectoryPool

/-- A name without a slash that stands for a key is the name of this key, unless it has the escape
of a dot behind its front. So, inner dots apart, no two names in the folder of a pool are listed as
one key, and what is told about a listed key is what is found under the very name it was read
from. -/
theorem listed_names_lead_back {p : DirectoryPool} {d : Disk} {names : List String}
    (hd : d.IsProper) (hnames : d.names p.folder = .ok names) :
    (∀ name key, '/' ∉ name.toList → FileName.decode? name = some key →
      (FileName.encode key = name ↔ ¬ FileName.HasInnerDot name))
    ∧ ∃ keys, p.keys d = .ok keys ∧ p.LeadsBack d names keys := by
  constructor
  · intro name key hslash hkey
    exact FileName.encode_eq_iff hkey hslash
  · obtain ⟨place, hat, rfl⟩ := DirectoryPool.names_eq_ok.mp hnames
    exact ⟨_, hat.keys, hat.leadsBack hd⟩

/-- A pool whose folder was filled by hand: two files have names of keys, one begins with a dot, one
has an escape in small letters, and there is a folder among them. -/
def handMadeDisk : Disk :=
  ⟨[(["pools"], .folder), (["pools", "p"], .folder),
    (["pools", "p", "a%2Fb%25"], .file [7, 8, 9] 3), (["pools", "p", "%2Ehid"], .file [1] 4),
    (["pools", "p", ".hid"], .file [2] 5), (["pools", "p", "a%2fb"], .file [3] 6),
    (["pools", "p", "sub"], .folder)]⟩

/-- The keys that are read from the names are listed once, and lead to the files made by hand. -/
theorem listed_names_lead_back_by_hand :
    FileName.decode? "a%2Fb%25" = some "a/b%" ∧ FileName.encode "a/b%" = "a%2Fb%25"
    ∧ handMadeDisk.IsProper ∧ ∃ keys, DirectoryPool.keys ⟨["pools", "p"]⟩ handMadeDisk = .ok keys
      ∧ keys.Nodup ∧ "a/b%" ∈ keys
      ∧ DirectoryPool.LeadsTo ⟨["pools", "p"]⟩ handMadeDisk "a/b%" "a%2Fb%25"
      ∧ DirectoryPool.LeadsTo ⟨["pools", "p"]⟩ handMadeDisk "sub" "sub" := by
  have hkey : FileName.decode? "a%2Fb%25" = some "a/b%" := by decide +kernel
  have hproper : handMadeDisk.IsProper := by decide +kernel
  have hnames : handMadeDisk.names ["pools", "p"] =
      .ok ["a%2Fb%25", "%2Ehid", ".hid", "a%2fb", "sub"] := by rfl
  obtain ⟨hencode, keys, hkeys, hleads⟩ :=
    @listed_names_lead_back ⟨["pools", "p"]⟩ handMadeDisk _ hproper hnames
  have hname : FileName.encode "a/b%" = "a%2Fb%25" :=
    (hencode _ _ (by decide +kernel) hkey).mpr (by decide +kernel)
  refine ⟨hkey, hname, hproper, keys, hkeys, ?_, ?_, ?_, ?_⟩
  · exact hleads.nodup (by decide +kernel)
  · exact (hleads.listed _).mpr ⟨"a%2Fb%25", by decide, hkey⟩
  · exact hleads.leads "a%2Fb%25" (by decide) _ hkey (by decide +kernel)
  · exact hleads.leads "sub" (by decide) _ (by decide +kernel) (by decide +kernel)

/-- A pool whose folder was filled by hand, with two names that have the escape of a dot in them. -/
def innerDotDisk : Disk :=
  ⟨[(["pools"], .folder), (["pools", "p"], .folder), (["pools", "p", "a.b"], .file [1] 3),
    (["pools", "p", "a%2Eb"], .file [2] 4), (["pools", "p", "c%2Ed"], .file [3] 5)]⟩

/-- Both are listed, the one as the key of another file and the other as a key that is not there. -/
theorem inner_dots_mislead :
    innerDotDisk.IsProper
      ∧ FileName.decode? "c%2Ed" = some "c.d" ∧ FileName.encode "c.d" ≠ "c%2Ed"
      ∧ DirectoryPool.keys ⟨["pools", "p"]⟩ innerDotDisk = .ok ["a.b", "a.b", "c.d"]
      ∧ DirectoryPool.stat ⟨["pools", "p"]⟩ innerDotDisk "c.d" = .error (.objectNotFound "c.d") := by
  have hnames : innerDotDisk.names ["pools", "p"] = .ok ["a.b", "a%2Eb", "c%2Ed"] := by rfl
  have hread : ["a.b", "a%2Eb", "c%2Ed"].filterMap FileName.decode? = ["a.b", "a.b", "c.d"] := by
    decide +kernel
  refine ⟨by decide +kernel, by decide +kernel, by decide +kernel, ?_, by rfl⟩
  simp only [DirectoryPool.keys, hnames, hread]
  rw [List.mergeSort_of_pairwise (by decide)]

end DavGateway
