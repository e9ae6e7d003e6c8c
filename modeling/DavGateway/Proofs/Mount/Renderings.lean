import DavGateway.Proofs.Mount.Lines
import Mathlib.Tactic.Tauto

/-!
# Renderings of mount settings

Settings can be written as a line in many ways: the items in any order, any word that stands for a
value, blanks around keys and values, and blank texts between them (`MountSettings.Renders`). All of
these lines are read as the settings again, and the order of the items for different keys does not
matter (`mount_lines_read`). Items for one key stay in their order, because the last one counts.
-/

namespace DavGateway

/-! ## Words in a line -/

namespace MountItem

variable {item : MountItem} {value : List Char} {seconds : Nat} {allowed : Bool}

/-- The name that the item has, if it has one, can stand in a line as it is. -/
def IsPlain : MountItem → Prop
  | .mountpoint word | .pool word | .connection word => IsPlainName word
  | .timeout _ | .allow _ _ => True

theorem chars_of_isNumber (h : Text.IsNumber value seconds) :
    ∀ c ∈ value, Text.isBlank c = false ∧ c ≠ ',' := by
  have hdigit : ∀ c : Char, c.isDigit → Text.isBlank c = false ∧ c ≠ ',' := by
    intro c hc
    refine ⟨Text.isBlank_of_isDigit hc, ?_⟩
    rintro rfl
    exact absurd hc (by decide)
  rcases h with ⟨digits, rfl | rfl, -, hdigits, -⟩
  · exact fun c hc => hdigit c (hdigits c hc)
  · exact List.forall_mem_cons.mpr ⟨by decide, fun c hc => hdigit c (hdigits c hc)⟩

theorem chars_of_isFlag (h : IsFlag value allowed) :
    ∀ c ∈ value, Text.isBlank c = false ∧ c ≠ ',' := by
  have hwords : ∀ plain ∈ flagWords allowed,
      plain.toList.all (fun c => !Text.isBlank c && c != ',') = true := by
    cases allowed <;> decide
  rcases h with ⟨plain, hplain, hvalue⟩
  intro c hc
  have hlower := List.all_eq_true.mp (hwords plain hplain) c.toLower
    (hvalue ▸ List.mem_map_of_mem hc)
  simp only [Bool.and_eq_true, Bool.not_eq_true', bne_iff_ne] at hlower
  constructor
  · by_contra hblank
    rw [Text.toLower_of_isBlank (by simpa using hblank)] at hlower
    exact hblank hlower.1
  · rintro rfl
    exact hlower.2 rfl

theorem IsGivenBy.plain (hgiven : item.IsGivenBy value) (hplain : item.IsPlain) :
    ',' ∉ value ∧ Text.trim value = value := by
  have hword : (∀ c ∈ value, Text.isBlank c = false ∧ c ≠ ',') →
      ',' ∉ value ∧ Text.trim value = value := by
    intro h
    exact ⟨fun hmem => (h _ hmem).2 rfl, Text.trim_of_no_blank fun c hc => (h c hc).1⟩
  cases item with
  | timeout seconds => exact hword (chars_of_isNumber hgiven)
  | allow verb allowed => exact hword (chars_of_isFlag hgiven)
  | _ word =>
    cases hgiven
    exact ⟨hplain.no_comma, hplain.trimmed⟩

end MountItem

namespace MountSettings

variable {s : MountSettings} {item item' : MountItem}
variable {text value : List Char} {texts texts' : List (List Char)} {key : String}

/-- The text is the key of the item and a word for its value with an equals sign between them. There
may be blanks around the key and around the word. -/
def Spells (text : List Char) (item : MountItem) : Prop :=
  ∃ before value after, Text.Surrounds item.key.name.toList before ∧ Text.Surrounds value after
    ∧ item.IsGivenBy value ∧ text = before ++ '=' :: after

theorem Spells.writes (h : Spells text item) (hplain : item.IsPlain) : Writes text item := by
  rcases h with ⟨before, value, after, hbefore, hafter, hgiven, rfl⟩
  have hname := item.key.plain_name
  refine ⟨value, ⟨before, after, rfl, ?_, ?_, ?_⟩, hgiven⟩
  · exact Text.not_mem_of_surrounds (by decide) hbefore hname.2
  · rw [Text.trim_of_surrounds hbefore, hname.1.trimmed]
  · rw [Text.trim_of_surrounds hafter, (hgiven.plain hplain).2]

theorem Spells.no_comma (h : Spells text item) (hplain : item.IsPlain) : ',' ∉ text := by
  rcases h with ⟨before, value, after, hbefore, hafter, hgiven, rfl⟩
  have hfront : ',' ∉ before :=
    Text.not_mem_of_surrounds (by decide) hbefore item.key.plain_name.1.no_comma
  have hback : ',' ∉ after :=
    Text.not_mem_of_surrounds (by decide) hafter (hgiven.plain hplain).1
  simp [hfront, hback]

/-! ## Renderings -/

/-- The settings have a mountpoint and a pool, and all names in them can stand in a line as they
are. -/
structure IsPlain (s : MountSettings) : Prop where
  mountpoint : s.mountpoint ≠ "" ∧ IsPlainName s.mountpoint
  pool : s.pool ≠ "" ∧ IsPlainName s.pool
  connection : ∀ word, s.connection = some word → IsPlainName word

/-- Every text is blank or spells an item of the settings, and every item is spelled that is not
one of `start` anyway. -/
structure Renders (texts : List (List Char)) (s : MountSettings) : Prop where
  sound : ∀ text ∈ texts, Text.IsBlank text ∨ ∃ item, s.Holds item ∧ Spells text item
  complete : ∀ item, s.Holds item → ¬ start.Holds item → ∃ text ∈ texts, Spells text item

theorem IsPlain.of_holds (h : s.IsPlain) (hholds : s.Holds item) : item.IsPlain := by
  cases item with
  | mountpoint word => exact hholds ▸ h.mountpoint.2
  | pool word => exact hholds ▸ h.pool.2
  | connection word => exact h.connection word hholds
  | _ => trivial

namespace Renders

theorem fields (h : Renders texts s) (hplain : s.IsPlain) :
    Text.fields ',' (List.intercalate [','] texts) = texts := by
  apply Text.fields_intercalate
  · rintro rfl
    rcases h.complete (.mountpoint s.mountpoint) rfl (Ne.symm hplain.mountpoint.1) with
      ⟨text, hmem, -⟩
    exact List.not_mem_nil hmem
  · intro text hmem
    rcases h.sound text hmem with hblank | ⟨item, hholds, hspells⟩
    · exact Text.not_mem_of_isBlank (by decide) hblank
    · exact hspells.no_comma (hplain.of_holds hholds)

/-- What a text of a rendering assigns is an item of the settings. -/
theorem exists_writes (h : Renders texts s) (hplain : s.IsPlain) (hmem : text ∈ texts)
    (hassigns : Assigns text key value) : ∃ item, s.Holds item ∧ Writes text item := by
  rcases h.sound text hmem with hblank | ⟨item, hholds, hspells⟩
  · exact absurd hblank hassigns.not_isBlank
  · exact ⟨item, hholds, hspells.writes (hplain.of_holds hholds)⟩

/-- No text assigns anything to the key of an item only if `start` has the item. -/
theorem start_holds (h : Renders texts s) (hplain : s.IsPlain) (hholds : s.Holds item)
    (hunassigned : Unassigned texts item.key.name) : start.Holds item := by
  by_contra hstart
  rcases h.complete item hholds hstart with ⟨text, hmem, hspells⟩
  rcases hspells.writes (hplain.of_holds hholds) with ⟨value, hassigns, -⟩
  exact hunassigned text hmem value hassigns

theorem sums (h : Renders texts s) (hplain : s.IsPlain) : Sums texts s := by
  intro item
  constructor
  · intro hholds
    rcases last_or_unassigned texts item.key.name with ⟨value, hlast⟩ | hunassigned
    · left
      rcases hlast.mem with ⟨text, hmem, hassigns⟩
      rcases h.exists_writes hplain hmem hassigns with ⟨item', hholds', hwrites⟩
      have hkey : item.key = item'.key := MountKey.name_injective (hwrites.key_name hassigns)
      rcases hholds.unique hholds' hkey with rfl
      rcases hwrites with ⟨value', hassigns', hgiven⟩
      rcases hassigns.unique hassigns' with ⟨-, rfl⟩
      exact ⟨value, hlast, hgiven⟩
    · exact .inr ⟨hunassigned, h.start_holds hplain hholds hunassigned⟩
  · rintro (⟨value, hlast, hgiven⟩ | ⟨hunassigned, hstart⟩)
    · rcases hlast.mem with ⟨text, hmem, hassigns⟩
      rcases h.exists_writes hplain hmem hassigns with ⟨item', hholds', hwrites⟩
      rcases hwrites.unique ⟨value, hassigns, hgiven⟩ with rfl
      exact hholds'
    · rcases hstart.of_start s with ⟨item', hkey, hholds'⟩
      rw [← hkey] at hunassigned
      rcases (h.start_holds hplain hholds' hunassigned).unique hstart hkey with rfl
      exact hholds'

theorem acceptable (h : Renders texts s) (hplain : s.IsPlain) : Acceptable texts where
  shaped := by
    intro text hmem
    rcases h.sound text hmem with hblank | ⟨item, hholds, hspells⟩
    · exact .inl hblank
    · exact .inr (exists_writes_iff.mp ⟨item, hspells.writes (hplain.of_holds hholds)⟩)
  mountpoint := (h.sums hplain).mountpoint_ne_empty_iff.mp hplain.mountpoint.1
  pool := (h.sums hplain).pool_ne_empty_iff.mp hplain.pool.1

theorem read_eq (h : Renders texts s) (hplain : s.IsPlain) :
    read (String.ofList (List.intercalate [','] texts)) = .ok s := by
  rw [read_eq_ok_iff, String.toList_ofList, h.fields hplain]
  exact ⟨h.acceptable hplain, h.sums hplain⟩

end Renders

/-! ## Texts that are swapped -/

/-- Two texts that assign different keys change their places, and no text between them assigns one
of these keys. -/
inductive Swapped : List (List Char) → List (List Char) → Prop where
  | intro {before between after : List (List Char)} {a b value value' : List Char}
      {key key' : String} (ha : Assigns a key value) (hb : Assigns b key' value') (hne : key ≠ key')
      (hbetween : Unassigned between key) (hbetween' : Unassigned between key') :
      Swapped (before ++ a :: (between ++ b :: after)) (before ++ b :: (between ++ a :: after))

namespace Swapped

theorem mem_iff (h : Swapped texts texts') : text ∈ texts ↔ text ∈ texts' := by
  rcases h with ⟨-, -, -, -, -⟩
  simp only [List.mem_append, List.mem_cons]
  tauto

theorem unassigned_iff (h : Swapped texts texts') :
    Unassigned texts key ↔ Unassigned texts' key := by
  unfold Unassigned
  simp only [h.mem_iff]

/-- The last text for a key does not change, because one of the two texts at most is for the key and
no text between them is. -/
theorem last_iff (h : Swapped texts texts') : Last texts key value ↔ Last texts' key value := by
  cases h with | @intro before between after a b _ _ keyA keyB ha hb hne hbetween hbetween'
  have hsilent : ∀ {text : List Char} {other : String} {word : List Char}, Assigns text other word →
      key ≠ other → ∀ value, ¬ Assigns text key value :=
    fun hassigns hother value h => hother (h.unique hassigns).1
  by_cases hkeyA : key = keyA
  · subst hkeyA
    simp only [last_append, last_cons, unassigned_append, unassigned_cons, hbetween,
      hbetween.not_last, hsilent hb hne, false_and, or_false, not_false_eq_true, implies_true,
      true_and]
  · by_cases hkeyB : key = keyB
    · subst hkeyB
      simp only [last_append, last_cons, unassigned_append, unassigned_cons, hbetween',
        hbetween'.not_last, hsilent ha hkeyA, false_and, or_false, not_false_eq_true, implies_true,
        true_and]
    · simp only [last_append, last_cons, unassigned_append, unassigned_cons, hsilent ha hkeyA,
        hsilent hb hkeyB, false_and, or_false, not_false_eq_true, implies_true, true_and]

theorem read_iff {line line' : String}
    (h : Swapped (Text.fields ',' line.toList) (Text.fields ',' line'.toList)) :
    read line = .ok s ↔ read line' = .ok s := by
  have hacceptable : Acceptable (Text.fields ',' line.toList) ↔
      Acceptable (Text.fields ',' line'.toList) := by
    simp only [acceptable_iff, h.mem_iff, h.last_iff]
  rw [read_eq_ok_iff, read_eq_ok_iff, hacceptable]
  unfold Sums
  simp only [h.last_iff, h.unassigned_iff]

end Swapped

/-! ## All lines -/

/-- A line is read exactly if it is acceptable, and then as what its texts sum up to. So all
renderings of settings are read as these settings, and two texts for different keys can be swapped
if no text between them is for one of these keys. -/
theorem lines_read :
    (∀ line, (∃ s, read line = .ok s) ↔ Acceptable (Text.fields ',' line.toList))
      ∧ (∀ line s, read line = .ok s → Sums (Text.fields ',' line.toList) s)
      ∧ (∀ s texts, s.IsPlain → Renders texts s →
        read (String.ofList (List.intercalate [','] texts)) = .ok s)
      ∧ ∀ line line' : String,
        Swapped (Text.fields ',' line.toList) (Text.fields ',' line'.toList) →
          ∀ s, read line = .ok s ↔ read line' = .ok s := by
  refine ⟨?_, ?_, ?_, ?_⟩
  · intro line
    exact exists_read_iff
  · intro line s h
    exact (read_eq_ok_iff.mp h).2
  · intro s texts hplain h
    exact h.read_eq hplain
  · intro line line' h s
    exact h.read_iff

/-- A line with blanks, an empty text and an equals sign in a name. Its first text and its last one
can change places. -/
theorem lines_read_spaced :
    let s : MountSettings := { mountpoint := "/a=b", pool := "p", permissions := { put := true } }
    let line := " mountpoint = /a=b ,,allow_put=YES,pool=p"
    read line = .ok s ∧ Sums (Text.fields ',' line.toList) s
      ∧ read "pool=p,,allow_put=YES, mountpoint = /a=b " = .ok s := by
  intro s line
  have hmountpoint : Spells " mountpoint = /a=b ".toList (.mountpoint "/a=b") :=
    ⟨" mountpoint ".toList, "/a=b".toList, " /a=b ".toList, ⟨[' '], [' '], by decide, by decide, rfl⟩,
      ⟨[' '], [' '], by decide, by decide, rfl⟩, rfl, rfl⟩
  have hput : Spells "allow_put=YES".toList (.allow .put true) :=
    ⟨_, "YES".toList, _, .refl _, .refl _, ⟨"yes", by decide, by decide⟩, rfl⟩
  have hpool : Spells "pool=p".toList (.pool "p") :=
    ⟨_, _, _, .refl _, .refl _, rfl, rfl⟩
  have hplain : s.IsPlain := by
    refine ⟨⟨by decide, by decide, by decide⟩, ⟨by decide, by decide, by decide⟩, ?_⟩
    intro word hword
    cases hword
  have hrenders : Renders [" mountpoint = /a=b ".toList, [], "allow_put=YES".toList,
      "pool=p".toList] s := by
    constructor
    · simp only [List.forall_mem_cons]
      exact ⟨.inr ⟨.mountpoint "/a=b", rfl, hmountpoint⟩, .inl (by decide),
        .inr ⟨.allow .put true, rfl, hput⟩, .inr ⟨.pool "p", rfl, hpool⟩, List.forall_mem_nil _⟩
    · intro item hholds hstart
      cases item with
      | mountpoint =>
        cases hholds
        exact ⟨_, List.mem_cons_self, hmountpoint⟩
      | pool =>
        cases hholds
        exact ⟨_, List.mem_of_getLast? rfl, hpool⟩
      | allow verb =>
        cases hholds
        cases verb with
        | put => exact ⟨_, List.mem_of_getElem? (i := 2) rfl, hput⟩
        | _ => exact absurd rfl hstart
      | _ => cases hholds
  have hread : read line = .ok s := by
    rw [show line = String.ofList (List.intercalate [','] [" mountpoint = /a=b ".toList, [],
      "allow_put=YES".toList, "pool=p".toList]) by decide]
    exact lines_read.2.2.1 s _ hplain hrenders
  have hbetween : ∀ key, key ≠ "allow_put" → Unassigned [[], "allow_put=YES".toList] key := by
    intro key hkey
    rcases hput.writes trivial with ⟨value, hassigns, -⟩
    rw [unassigned_cons, unassigned_cons]
    exact ⟨fun _ h => h.not_isBlank (by decide), fun _ h => hkey (h.unique hassigns).1,
      List.forall_mem_nil _⟩
  have hswapped : Swapped (Text.fields ',' line.toList)
      (Text.fields ',' "pool=p,,allow_put=YES, mountpoint = /a=b ".toList) := by
    rcases hmountpoint.writes ⟨by decide, by decide⟩ with ⟨_, hfirst, -⟩
    rcases hpool.writes ⟨by decide, by decide⟩ with ⟨_, hlast, -⟩
    rw [show Text.fields ',' line.toList = [] ++ " mountpoint = /a=b ".toList ::
        ([[], "allow_put=YES".toList] ++ "pool=p".toList :: []) by decide,
      show Text.fields ',' "pool=p,,allow_put=YES, mountpoint = /a=b ".toList =
        [] ++ "pool=p".toList :: ([[], "allow_put=YES".toList] ++ " mountpoint = /a=b ".toList :: [])
        by decide]
    exact .intro hfirst hlast (by decide) (hbetween _ (by decide)) (hbetween _ (by decide))
  exact ⟨hread, lines_read.2.1 line s hread, (lines_read.2.2.2 line _ hswapped s).mp hread⟩

/-- The mountpoint in the middle counts until the first text, which is for a mountpoint as well, and
the last one are swapped. -/
theorem swapped_over_mountpoint :
    Text.fields ',' "mountpoint=/a,mountpoint=/b,pool=p".toList =
        ["mountpoint=/a".toList, "mountpoint=/b".toList, "pool=p".toList]
      ∧ Text.fields ',' "pool=p,mountpoint=/b,mountpoint=/a".toList =
        ["pool=p".toList, "mountpoint=/b".toList, "mountpoint=/a".toList]
      ∧ Assigns "mountpoint=/a".toList "mountpoint" "/a".toList
      ∧ Assigns "pool=p".toList "pool" "p".toList
      ∧ read "mountpoint=/a,mountpoint=/b,pool=p" = .ok { mountpoint := "/b", pool := "p" }
      ∧ read "pool=p,mountpoint=/b,mountpoint=/a" = .ok { mountpoint := "/a", pool := "p" } :=
  ⟨by decide, by decide,
    ⟨"mountpoint".toList, "/a".toList, by decide, by decide, by decide, by decide⟩,
    ⟨"pool".toList, "p".toList, by decide, by decide, by decide, by decide⟩, by rfl, by rfl⟩

end MountSettings

end DavGateway
