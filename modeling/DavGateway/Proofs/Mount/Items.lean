import DavGateway.Mount.Settings
import DavGateway.Proofs.Text.Number

/-!
# Items of mount settings

Every item of a line has one of eight keys (`MountKey`), and its value is given by a word
(`MountItem.IsGivenBy`): a name by itself, a number by digits that may have zeros in front, and a
truth value by one of four words. Settings hold at most one item for a key, which an item that is
put in replaces (`MountSettings.holds_put_of_eq`).
-/

namespace DavGateway

/-- The word can stand in a line as it is. -/
structure IsPlainName (word : String) : Prop where
  no_comma : ',' ∉ word.toList
  trimmed : Text.trim word.toList = word.toList

/-! ## Keys -/

/-- What an item is for. -/
inductive MountKey where
  | mountpoint
  | pool
  | connection
  | timeout
  | allow (verb : GuardedVerb)
deriving DecidableEq, Repr

namespace MountKey

/-- How the key is written. -/
def name : MountKey → String
  | .mountpoint => "mountpoint"
  | .pool => "pool"
  | .connection => "config"
  | .timeout => "timeout"
  | .allow .put => "allow_put"
  | .allow .delete => "allow_delete"
  | .allow .mkcol => "allow_mkcol"
  | .allow .propfind => "allow_propfind"

theorem plain_name (key : MountKey) : IsPlainName key.name ∧ '=' ∉ key.name.toList := by
  rcases key with _ | _ | _ | _ | _ | _ | _ | _ <;> exact ⟨⟨by decide, by decide⟩, by decide⟩

theorem name_injective : Function.Injective name := by
  rintro (_ | _ | _ | _ | _ | _ | _ | _) (_ | _ | _ | _ | _ | _ | _ | _) h <;>
    first | rfl | exact absurd h (by decide)

theorem lookup_verbKeys {word : String} {verb : GuardedVerb} :
    MountSettings.verbKeys.lookup word = some verb ↔ word = (MountKey.allow verb).name := by
  constructor
  · intro h
    have hmem : (word, verb) ∈ MountSettings.verbKeys := by
      rcases List.lookup_eq_some_iff.mp h with ⟨front, back, hkeys, -⟩
      rw [hkeys]
      exact List.mem_append_right _ List.mem_cons_self
    unfold MountSettings.verbKeys at hmem
    simp only [List.mem_cons, Prod.mk.injEq, List.not_mem_nil, or_false] at hmem
    rcases hmem with ⟨rfl, rfl⟩ | ⟨rfl, rfl⟩ | ⟨rfl, rfl⟩ | ⟨rfl, rfl⟩ <;> rfl
  · rintro rfl
    cases verb <;> decide

end MountKey

/-! ## Items -/

namespace MountItem

variable {item item' : MountItem} {word value : List Char} {allowed : Bool}

/-- The key that the item is written with. -/
def key : MountItem → MountKey
  | .mountpoint _ => .mountpoint
  | .pool _ => .pool
  | .connection _ => .connection
  | .timeout _ => .timeout
  | .allow verb _ => .allow verb

/-- The words for a truth value. -/
def flagWords : Bool → List String
  | true => ["1", "true", "yes", "on"]
  | false => ["0", "false", "no", "off"]

/-- The word stands for the truth value, in any case. -/
def IsFlag (word : List Char) (allowed : Bool) : Prop :=
  ∃ plain ∈ flagWords allowed, word.map Char.toLower = plain.toList

/-- The word gives the value of the item. -/
def IsGivenBy : MountItem → List Char → Prop
  | .mountpoint text, value | .pool text, value | .connection text, value => text.toList = value
  | .timeout seconds, value => Text.IsNumber value seconds
  | .allow _ allowed, value => IsFlag value allowed

theorem isFlag_iff : IsFlag word allowed ↔ String.ofList (Text.lowered word) ∈ flagWords allowed := by
  constructor
  · rintro ⟨plain, hplain, hword⟩
    rwa [Text.lowered, hword, String.ofList_toList]
  · intro h
    exact ⟨_, h, String.toList_ofList.symm⟩

theorem flag?_eq_some_iff : MountSettings.flag? word = some allowed ↔ IsFlag word allowed := by
  have hdisjoint : ∀ plain ∈ flagWords true, plain ∉ flagWords false := by decide
  rw [isFlag_iff]
  unfold MountSettings.flag?
  simp only [List.contains_iff_mem]
  show (if _ ∈ flagWords true then _ else if _ ∈ flagWords false then _ else _) = _ ↔ _
  by_cases htrue : String.ofList (Text.lowered word) ∈ flagWords true
  · rw [if_pos htrue]
    cases allowed with
    | true => simp [htrue]
    | false => simp [hdisjoint _ htrue]
  · rw [if_neg htrue]
    cases allowed with
    | true => simp [htrue]
    | false => simp

end MountItem

/-- An item with this key can have the value. -/
def MountKey.Admits : MountKey → List Char → Prop
  | .timeout, value => ∃ seconds, Text.IsNumber value seconds
  | .allow _, value => ∃ allowed, MountItem.IsFlag value allowed
  | .mountpoint, _ | .pool, _ | .connection, _ => True

theorem MountKey.admits_iff {key : MountKey} {value : List Char} :
    key.Admits value ↔ ∃ item : MountItem, item.key = key ∧ item.IsGivenBy value := by
  constructor
  · intro h
    cases key with
    | mountpoint => exact ⟨.mountpoint (String.ofList value), rfl, String.toList_ofList⟩
    | pool => exact ⟨.pool (String.ofList value), rfl, String.toList_ofList⟩
    | connection => exact ⟨.connection (String.ofList value), rfl, String.toList_ofList⟩
    | timeout =>
      rcases h with ⟨seconds, hseconds⟩
      exact ⟨.timeout seconds, rfl, hseconds⟩
    | allow verb =>
      rcases h with ⟨allowed, hallowed⟩
      exact ⟨.allow verb allowed, rfl, hallowed⟩
  · rintro ⟨item, rfl, hgiven⟩
    cases item with
    | timeout seconds => exact ⟨seconds, hgiven⟩
    | allow verb allowed => exact ⟨allowed, hgiven⟩
    | _ => trivial

/-! ## The items that settings hold -/

namespace MountSettings

variable {s s' : MountSettings} {item item' : MountItem}

/-- The settings have the value of the item at its key. -/
def Holds (s : MountSettings) : MountItem → Prop
  | .mountpoint value => s.mountpoint = value
  | .pool value => s.pool = value
  | .connection value => s.connection = some value
  | .timeout seconds => s.timeout = some seconds
  | .allow verb allowed => s.permissions.allows verb = allowed

/-- The settings that a line without items would give. -/
def start : MountSettings := { mountpoint := "", pool := "" }

/-- Settings hold one item at most for a key. -/
theorem Holds.unique (h : s.Holds item) (h' : s.Holds item') (hkey : item.key = item'.key) :
    item = item' := by
  cases item <;> cases item' <;> cases hkey <;> simp_all [Holds]

/-- All settings hold an item for a key that `start` has an item for. -/
theorem Holds.of_start (h : start.Holds item) (s : MountSettings) :
    ∃ item', item'.key = item.key ∧ s.Holds item' := by
  cases item with
  | mountpoint => exact ⟨.mountpoint s.mountpoint, rfl, rfl⟩
  | pool => exact ⟨.pool s.pool, rfl, rfl⟩
  | allow verb => exact ⟨.allow verb (s.permissions.allows verb), rfl, rfl⟩
  | connection => cases h
  | timeout => cases h

theorem ext_holds (h : ∀ item, s.Holds item ↔ s'.Holds item) : s = s' := by
  have hallows : ∀ verb, s.permissions.allows verb = s'.permissions.allows verb :=
    fun verb => ((h (.allow verb _)).mpr rfl)
  have hpermissions : s.permissions = s'.permissions := by
    rw [Permissions.mk.injEq]
    exact ⟨hallows .put, hallows .delete, hallows .mkcol, hallows .propfind⟩
  rw [MountSettings.mk.injEq]
  refine ⟨(h (.mountpoint _)).mpr rfl, (h (.pool _)).mpr rfl, ?_, ?_, hpermissions⟩
  · exact Option.ext fun value => h (.connection value)
  · exact Option.ext fun seconds => h (.timeout seconds)

theorem allows_set (p : Permissions) (verb verb' : GuardedVerb) (allowed : Bool) :
    (p.set verb allowed).allows verb' = if verb = verb' then allowed else p.allows verb' := by
  cases verb <;> cases verb' <;> rfl

theorem holds_put_of_eq (hkey : item.key = item'.key) :
    (s.put item).Holds item' ↔ item = item' := by
  cases item <;> cases item' <;> cases hkey <;> simp [put, Holds, allows_set]

theorem holds_put_of_ne (hkey : item.key ≠ item'.key) :
    (s.put item).Holds item' ↔ s.Holds item' := by
  cases item with
  | allow verb allowed =>
    cases item' with
    | allow verb' allowed' =>
      have hverb : verb ≠ verb' := fun h => hkey (congrArg MountKey.allow h)
      simp [put, Holds, allows_set, hverb]
    | _ => exact Iff.rfl
  | _ => cases item' <;> first | exact absurd rfl hkey | exact Iff.rfl

end MountSettings

end DavGateway
