import DavGateway.Proofs.Mount.Items
import DavGateway.Proofs.Text.Blank
import DavGateway.Proofs.Text.Split

/-!
# Lines of mount settings

The grammar of a line of settings. Every text between two commas is blank or assigns a value to a
key (`MountSettings.Assigns`), and the value has to be one that the key admits. Of all texts that
assign one key the last one counts (`MountSettings.Last`). A line is read exactly if its texts are of
this form and name a mountpoint and a pool (`MountSettings.Acceptable`), and then as the settings
that they sum up to (`MountSettings.Sums`).
-/

namespace DavGateway

/-- A step that is followed by another one succeeds exactly if both do. -/
theorem Except.bind_eq_ok {ε α β : Type} {x : Except ε α} {f : α → Except ε β} {b : β} :
    (x >>= f) = .ok b ↔ ∃ a, x = .ok a ∧ f a = .ok b := by
  cases x with
  | error e => simp [bind, Except.bind]
  | ok a => simp [bind, Except.bind]

namespace MountSettings

variable {s s' : MountSettings} {item item' : MountItem} {items : List MountItem}
variable {text value value' : List Char} {texts back : List (List Char)} {key key' : String}

/-! ## Texts -/

/-- The text is a key and a value with an equals sign between them, and blanks around both. -/
def Assigns (text : List Char) (key : String) (value : List Char) : Prop :=
  ∃ front back, text = front ++ '=' :: back ∧ '=' ∉ front ∧ Text.trim front = key.toList
    ∧ Text.trim back = value

/-- No text assigns anything to the key. -/
def Unassigned (texts : List (List Char)) (key : String) : Prop :=
  ∀ text ∈ texts, ∀ value, ¬ Assigns text key value

/-- The last text that assigns something to the key assigns the value. -/
def Last (texts : List (List Char)) (key : String) (value : List Char) : Prop :=
  ∃ front text back, texts = front ++ text :: back ∧ Assigns text key value ∧ Unassigned back key

/-- The text assigns the value of the item to its key. -/
def Writes (text : List Char) (item : MountItem) : Prop :=
  ∃ value, Assigns text item.key.name value ∧ item.IsGivenBy value

theorem Assigns.unique (h : Assigns text key value) (h' : Assigns text key' value') :
    key = key' ∧ value = value' := by
  rcases h with ⟨front, back, htext, hfront, hkey, rfl⟩
  rcases h' with ⟨front', back', htext', hfront', hkey', rfl⟩
  have hcut := Text.cutAt?_eq_some_iff.mpr ⟨htext, hfront⟩
  rw [Text.cutAt?_eq_some_iff.mpr ⟨htext', hfront'⟩, Option.some.injEq, Prod.mk.injEq] at hcut
  rcases hcut with ⟨rfl, rfl⟩
  exact ⟨String.toList_inj.mp (hkey.symm.trans hkey'), rfl⟩

theorem Assigns.not_isBlank (h : Assigns text key value) : ¬ Text.IsBlank text := by
  rcases h with ⟨front, back, rfl, -⟩
  intro hblank
  exact Text.not_mem_of_isBlank (by decide) hblank (List.mem_append_right front List.mem_cons_self)

theorem assigns_trim : Assigns (Text.trim text) key value ↔ Assigns text key value := by
  constructor
  · rintro ⟨front, back, htext, hfront, hkey, hvalue⟩
    rcases Text.surrounds_trim text with ⟨before, after, hbefore, hafter, hs⟩
    refine ⟨before ++ front, back ++ after, ?_, ?_, ?_, ?_⟩
    · rw [hs, htext]
      simp
    · intro hmem
      rcases List.mem_append.mp hmem with hmem | hmem
      · exact Text.not_mem_of_isBlank (by decide) hbefore hmem
      · exact hfront hmem
    · rw [Text.trim_blank_append hbefore, hkey]
    · rw [Text.trim_append hafter, hvalue]
  · rintro ⟨front, back, rfl, hfront, hkey, hvalue⟩
    refine ⟨Text.trimStart front, Text.trimEnd back, ?_, ?_, ?_, ?_⟩
    · exact Text.trim_append_cons (by decide) front back
    · intro hmem
      exact hfront ((List.dropWhile_suffix _).mem hmem)
    · rw [Text.trim_trimStart, hkey]
    · rw [Text.trim_trimEnd, hvalue]

theorem writes_of_readItem (h : readItem text = .ok item) : Writes text item := by
  unfold readItem at h
  split at h
  · cases h
  · next front back hcut =>
    have hassigns : ∀ key, String.ofList (Text.trim front) = key →
        Assigns text key (Text.trim back) := by
      rintro key rfl
      rcases Text.cutAt?_eq_some_iff.mp hcut with ⟨htext, hfront⟩
      exact ⟨front, back, htext, hfront, String.toList_ofList.symm, rfl⟩
    dsimp only at h
    -- three keys for names, which give themselves, then the timeout and the verbs
    split at h
    · next hkey =>
      cases h
      exact ⟨_, hassigns _ hkey, String.toList_ofList⟩
    split at h
    · next hkey =>
      cases h
      exact ⟨_, hassigns _ hkey, String.toList_ofList⟩
    split at h
    · next hkey =>
      cases h
      exact ⟨_, hassigns _ hkey, String.toList_ofList⟩
    split at h
    · next hkey =>
      split at h
      · next seconds hseconds =>
        cases h
        exact ⟨_, hassigns _ hkey, Text.readWord?_eq_some_iff.mp hseconds⟩
      · cases h
    split at h
    · next verb hverb =>
      split at h
      · next allowed hallowed =>
        cases h
        exact ⟨_, hassigns _ (MountKey.lookup_verbKeys.mp hverb),
          MountItem.flag?_eq_some_iff.mp hallowed⟩
      · cases h
    · cases h

theorem Writes.readItem_eq (h : Writes text item) : readItem text = .ok item := by
  rcases h with ⟨value, ⟨front, back, htext, hfront, hkey, rfl⟩, hgiven⟩
  have hname : String.ofList (Text.trim front) = item.key.name := by
    rw [hkey, String.ofList_toList]
  have hcut := Text.cutAt?_eq_some_iff.mpr ⟨htext, hfront⟩
  unfold readItem
  rw [hcut]
  dsimp only
  rw [hname]
  cases item with
  | timeout seconds =>
    simp [MountItem.key, MountKey.name, Text.readWord?_eq_some_iff.mpr hgiven]
  | allow verb allowed =>
    have hlookup := MountKey.lookup_verbKeys.mpr (rfl : (MountKey.allow verb).name = _)
    simp only [MountItem.key, hlookup, MountItem.flag?_eq_some_iff.mpr hgiven]
    cases verb <;> rfl
  | _ word =>
    have hword : String.ofList (Text.trim back) = word := by rw [← hgiven, String.ofList_toList]
    rw [hword]
    rfl

theorem readItem_eq_ok_iff : readItem text = .ok item ↔ Writes text item :=
  ⟨writes_of_readItem, Writes.readItem_eq⟩

/-- A text writes one item at most. -/
theorem Writes.unique (h : Writes text item) (h' : Writes text item') : item = item' := by
  have hread := readItem_eq_ok_iff.mpr h
  rw [readItem_eq_ok_iff.mpr h', Except.ok.injEq] at hread
  exact hread.symm

theorem Writes.key_name (h : Writes text item) (hkey : Assigns text key value) :
    key = item.key.name := by
  rcases h with ⟨value', hassigns, -⟩
  exact (hkey.unique hassigns).1

theorem readItem_trim : readItem (Text.trim text) = .ok item ↔ Writes text item := by
  rw [readItem_eq_ok_iff]
  unfold Writes
  simp only [assigns_trim]

/-! ## Reading all texts -/

/-- The texts are blank or write the items, in their order. -/
inductive Parses : List (List Char) → List MountItem → Prop where
  | nil : Parses [] []
  | blank {text : List Char} {texts : List (List Char)} {items : List MountItem} :
      Text.IsBlank text → Parses texts items → Parses (text :: texts) items
  | item {text : List Char} {texts : List (List Char)} {item : MountItem} {items : List MountItem} :
      Writes text item → Parses texts items → Parses (text :: texts) (item :: items)

theorem exists_parses_iff : (∃ items, Parses texts items) ↔
    ∀ text ∈ texts, Text.IsBlank text ∨ ∃ item, Writes text item := by
  constructor
  · rintro ⟨items, h⟩
    induction h with
    | nil => simp
    | blank hblank _ ih => exact List.forall_mem_cons.mpr ⟨.inl hblank, ih⟩
    | item hwrites _ ih => exact List.forall_mem_cons.mpr ⟨.inr ⟨_, hwrites⟩, ih⟩
  · intro h
    induction texts with
    | nil => exact ⟨[], .nil⟩
    | cons text texts ih =>
      rcases List.forall_mem_cons.mp h with ⟨htext, htexts⟩
      rcases ih htexts with ⟨items, hitems⟩
      rcases htext with hblank | ⟨item, hwrites⟩
      · exact ⟨items, .blank hblank hitems⟩
      · exact ⟨item :: items, .item hwrites hitems⟩

theorem mapM_readItem : ((texts.map Text.trim).filter fun text => !text.isEmpty).mapM readItem =
    .ok items ↔ Parses texts items := by
  induction texts generalizing items with
  | nil =>
    constructor
    · intro h
      cases h
      exact .nil
    · rintro ⟨⟩
      rfl
  | cons text texts ih =>
    rw [List.map_cons]
    by_cases hblank : Text.IsBlank text
    · have hempty : Text.trim text = [] := Text.trim_eq_nil_iff.mpr hblank
      rw [hempty, List.filter_cons_of_neg (by simp), ih]
      constructor
      · exact Parses.blank hblank
      · rintro (_ | ⟨-, hitems⟩ | ⟨⟨_, hassigns, -⟩, -⟩)
        · exact hitems
        · exact absurd hblank hassigns.not_isBlank
    · rw [List.filter_cons_of_pos (by simpa [Text.trim_eq_nil_iff] using hblank), List.mapM_cons]
      constructor
      · intro h
        rcases Except.bind_eq_ok.mp h with ⟨item, hitem, hrest⟩
        rcases Except.bind_eq_ok.mp hrest with ⟨others, hothers, hitems⟩
        cases hitems
        exact .item (readItem_trim.mp hitem) (ih.mp hothers)
      · rintro (_ | ⟨hempty, -⟩ | ⟨hwrites, hothers⟩)
        · exact absurd hempty hblank
        · refine Except.bind_eq_ok.mpr ⟨_, readItem_trim.mpr hwrites, ?_⟩
          exact Except.bind_eq_ok.mpr ⟨_, ih.mpr hothers, rfl⟩

/-! ## What all texts sum up to -/

/-- For each key the settings hold the item that the last text for it gives, and the one of `start`
if there is no text for it. -/
def Sums (texts : List (List Char)) (s : MountSettings) : Prop :=
  ∀ item, s.Holds item ↔
    (∃ value, Last texts item.key.name value ∧ item.IsGivenBy value)
      ∨ (Unassigned texts item.key.name ∧ start.Holds item)

theorem unassigned_append :
    Unassigned (texts ++ back) key ↔ Unassigned texts key ∧ Unassigned back key :=
  List.forall_mem_append

theorem unassigned_cons : Unassigned (text :: texts) key ↔
    (∀ value, ¬ Assigns text key value) ∧ Unassigned texts key :=
  List.forall_mem_cons

theorem not_last_nil : ¬ Last [] key value := by
  rintro ⟨front, text, back, hnil, -⟩
  exact absurd hnil (by simp)

theorem last_cons : Last (text :: texts) key value ↔
    Last texts key value ∨ (Assigns text key value ∧ Unassigned texts key) := by
  constructor
  · rintro ⟨_ | ⟨first, front⟩, text', back, htexts, hassigns, hback⟩
    · cases htexts
      exact .inr ⟨hassigns, hback⟩
    · cases htexts
      exact .inl ⟨front, text', back, rfl, hassigns, hback⟩
  · rintro (⟨front, text', back, rfl, hassigns, hback⟩ | ⟨hassigns, hunassigned⟩)
    · exact ⟨text :: front, text', back, rfl, hassigns, hback⟩
    · exact ⟨[], text, texts, rfl, hassigns, hunassigned⟩

theorem Last.mem (h : Last texts key value) : ∃ text ∈ texts, Assigns text key value := by
  rcases h with ⟨front, text, back, rfl, hassigns, -⟩
  exact ⟨text, List.mem_append_right _ List.mem_cons_self, hassigns⟩

theorem Unassigned.not_last (h : Unassigned texts key) : ¬ Last texts key value := by
  intro hlast
  rcases hlast.mem with ⟨text, hmem, hassigns⟩
  exact h text hmem value hassigns

theorem last_append : Last (texts ++ back) key value ↔
    Last back key value ∨ (Last texts key value ∧ Unassigned back key) := by
  induction texts with
  | nil => simp [not_last_nil]
  | cons text texts ih =>
    rw [List.cons_append, last_cons, ih, last_cons, unassigned_append]
    tauto

theorem last_or_unassigned (texts : List (List Char)) (key : String) :
    (∃ value, Last texts key value) ∨ Unassigned texts key := by
  induction texts with
  | nil => exact .inr (List.forall_mem_nil _)
  | cons text texts ih =>
    rcases ih with ⟨value, hlast⟩ | hunassigned
    · exact .inl ⟨value, last_cons.mpr (.inl hlast)⟩
    · by_cases htext : ∃ value, Assigns text key value
      · rcases htext with ⟨value, hassigns⟩
        exact .inl ⟨value, last_cons.mpr (.inr ⟨hassigns, hunassigned⟩)⟩
      · exact .inr (unassigned_cons.mpr ⟨not_exists.mp htext, hunassigned⟩)

/-- What settings hold after the items of the texts are put in. -/
theorem Parses.holds (h : Parses texts items) (s : MountSettings) (item : MountItem) :
    (items.foldl put s).Holds item ↔
      (∃ value, Last texts item.key.name value ∧ item.IsGivenBy value)
        ∨ (Unassigned texts item.key.name ∧ s.Holds item) := by
  -- every item changes the settings that the texts behind it begin with
  induction h generalizing s with
  | nil => simp [not_last_nil, Unassigned]
  | blank hblank _ ih =>
    have hnone : ∀ value, ¬ Assigns _ item.key.name value := fun _ h => h.not_isBlank hblank
    rw [ih]
    simp only [last_cons, unassigned_cons, hnone, false_and, or_false, not_false_eq_true,
      implies_true, true_and]
  | @item text texts first items hwrites _ ih =>
    rw [List.foldl_cons, ih]
    by_cases hkey : first.key = item.key
    · -- then the first text is the last one for the key, unless there is one behind it
      rw [holds_put_of_eq hkey]
      constructor
      · rintro (⟨value, hlast, hgiven⟩ | ⟨hunassigned, rfl⟩)
        · exact .inl ⟨value, last_cons.mpr (.inl hlast), hgiven⟩
        · rcases hwrites with ⟨value, hassigns, hgiven⟩
          exact .inl ⟨value, last_cons.mpr (.inr ⟨hassigns, hunassigned⟩), hgiven⟩
      · rintro (⟨value, hlast, hgiven⟩ | ⟨hunassigned, -⟩)
        · rcases last_cons.mp hlast with hlast | ⟨hassigns, hunassigned⟩
          · exact .inl ⟨value, hlast, hgiven⟩
          · exact .inr ⟨hunassigned, hwrites.unique ⟨value, hassigns, hgiven⟩⟩
        · rcases hwrites with ⟨value, hassigns, -⟩
          rw [hkey] at hassigns
          exact absurd hassigns ((unassigned_cons.mp hunassigned).1 value)
    · have hnone : ∀ value, ¬ Assigns text item.key.name value := fun value hassigns =>
        hkey (MountKey.name_injective (hwrites.key_name hassigns)).symm
      rw [holds_put_of_ne hkey]
      simp only [last_cons, unassigned_cons, hnone, false_and, or_false, not_false_eq_true,
        implies_true, true_and]

theorem Parses.sums (h : Parses texts items) : Sums texts (items.foldl put start) :=
  h.holds start

theorem Sums.unique (h : Sums texts s) (h' : Sums texts s') : s = s' :=
  ext_holds fun item => (h item).trans (h' item).symm

/-- A name is not empty exactly if the last text for it gives one that is not. -/
theorem Sums.ne_empty_iff {key : MountKey} (make : String → MountItem)
    (name : MountSettings → String) (h : Sums texts s) (hkey : ∀ word, (make word).key = key)
    (hholds : ∀ s word, Holds s (make word) ↔ name s = word)
    (hgiven : ∀ word value, (make word).IsGivenBy value ↔ word.toList = value)
    (hstart : name start = "") :
    name s ≠ "" ↔ ∃ value, value ≠ [] ∧ Last texts key.name value := by
  constructor
  · intro hne
    rcases (h (make (name s))).mp ((hholds s _).mpr rfl) with ⟨value, hlast, hvalue⟩ | ⟨-, hempty⟩
    · rw [hkey] at hlast
      rw [hgiven] at hvalue
      refine ⟨value, ?_, hlast⟩
      rintro rfl
      exact hne (String.toList_eq_nil_iff.mp hvalue)
    · rw [hholds, hstart] at hempty
      exact absurd hempty.symm hne
  · rintro ⟨value, hne, hlast⟩ hempty
    have hholds' : Holds s (make (String.ofList value)) :=
      (h _).mpr (.inl ⟨value, by rwa [hkey], (hgiven _ _).mpr String.toList_ofList⟩)
    rw [hholds, hempty] at hholds'
    apply hne
    rw [← String.toList_ofList (l := value), ← hholds', String.toList_empty]

theorem Sums.mountpoint_ne_empty_iff (h : Sums texts s) : s.mountpoint ≠ "" ↔
    ∃ value, value ≠ [] ∧ Last texts MountKey.mountpoint.name value :=
  h.ne_empty_iff .mountpoint MountSettings.mountpoint (fun _ => rfl) (fun _ _ => Iff.rfl)
    (fun _ _ => Iff.rfl) rfl

theorem Sums.pool_ne_empty_iff (h : Sums texts s) : s.pool ≠ "" ↔
    ∃ value, value ≠ [] ∧ Last texts MountKey.pool.name value :=
  h.ne_empty_iff .pool MountSettings.pool (fun _ => rfl) (fun _ _ => Iff.rfl)
    (fun _ _ => Iff.rfl) rfl

/-- Every text is blank or assigns to a known key a value that it can have, and the last mountpoint
and the last pool are not empty. -/
@[mk_iff]
structure Acceptable (texts : List (List Char)) : Prop where
  shaped : ∀ text ∈ texts, Text.IsBlank text
    ∨ ∃ (key : MountKey) (value : List Char), Assigns text key.name value ∧ key.Admits value
  mountpoint : ∃ value, value ≠ [] ∧ Last texts MountKey.mountpoint.name value
  pool : ∃ value, value ≠ [] ∧ Last texts MountKey.pool.name value

theorem exists_writes_iff : (∃ item, Writes text item) ↔
    ∃ (key : MountKey) (value : List Char), Assigns text key.name value ∧ key.Admits value := by
  constructor
  · rintro ⟨item, value, hassigns, hgiven⟩
    exact ⟨item.key, value, hassigns, MountKey.admits_iff.mpr ⟨item, rfl, hgiven⟩⟩
  · rintro ⟨key, value, hassigns, hadmits⟩
    rcases MountKey.admits_iff.mp hadmits with ⟨item, rfl, hgiven⟩
    exact ⟨item, value, hassigns, hgiven⟩

theorem Acceptable.exists_parses (h : Acceptable texts) : ∃ items, Parses texts items := by
  rw [exists_parses_iff]
  simp only [exists_writes_iff]
  exact h.shaped

theorem read_eq_ok_iff_parses {line : String} : read line = .ok s ↔
    ∃ items, Parses (Text.fields ',' line.toList) items ∧ items.foldl put start = s
      ∧ s.mountpoint ≠ "" ∧ s.pool ≠ "" := by
  unfold read itemsOf
  rw [Except.bind_eq_ok]
  simp only [mapM_readItem]
  refine exists_congr fun items => and_congr_right fun _ => ?_
  show (if _ then _ else _) = _ ↔ _
  split
  · next hempty =>
    constructor
    · intro h
      cases h
    · rintro ⟨rfl, hmountpoint, hpool⟩
      exact absurd hempty (not_or.mpr ⟨hmountpoint, hpool⟩)
  · next hne =>
    rw [Except.ok.injEq]
    constructor
    · rintro rfl
      exact ⟨rfl, not_or.mp hne⟩
    · exact And.left

/-- A line is read exactly if it is acceptable, and as the settings it sums up to. -/
theorem read_eq_ok_iff {line : String} : read line = .ok s ↔
    Acceptable (Text.fields ',' line.toList) ∧ Sums (Text.fields ',' line.toList) s := by
  rw [read_eq_ok_iff_parses]
  generalize Text.fields ',' line.toList = texts
  constructor
  · rintro ⟨items, hparses, rfl, hmountpoint, hpool⟩
    have hsums := hparses.sums
    refine ⟨⟨?_, ?_, ?_⟩, hsums⟩
    · simp only [← exists_writes_iff]
      exact exists_parses_iff.mp ⟨items, hparses⟩
    · exact hsums.mountpoint_ne_empty_iff.mp hmountpoint
    · exact hsums.pool_ne_empty_iff.mp hpool
  · rintro ⟨hacceptable, hsums⟩
    rcases hacceptable.exists_parses with ⟨items, hparses⟩
    exact ⟨items, hparses, hparses.sums.unique hsums,
      hsums.mountpoint_ne_empty_iff.mpr hacceptable.mountpoint,
      hsums.pool_ne_empty_iff.mpr hacceptable.pool⟩

theorem exists_read_iff {line : String} :
    (∃ s, read line = .ok s) ↔ Acceptable (Text.fields ',' line.toList) := by
  simp only [read_eq_ok_iff]
  constructor
  · rintro ⟨s, hacceptable, -⟩
    exact hacceptable
  · intro hacceptable
    rcases hacceptable.exists_parses with ⟨items, hparses⟩
    exact ⟨_, hacceptable, hparses.sums⟩

end MountSettings

end DavGateway
