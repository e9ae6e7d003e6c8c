import DavGateway.Proofs.Transfer.Rules
import Mathlib.Logic.Function.Basic

/-!
# Two uploads of one object

Two uploads of one object take turns, operation by operation, in any order. As soon as one of them
begins to write, nothing is left of what the object was before; from then on each byte comes from
one of the bodies, or fills a gap, and the object ends where one of the uploads has come to
(`Upload.Meeting`). What one upload writes after the last chunk of the other stays in its place
(`Upload.Prevails`). Nothing more can be promised: no upload knows of the other.
-/

namespace DavGateway

/-- One of two requests. -/
inductive Side where
  | left
  | right
deriving DecidableEq, Repr

/-- The other one. -/
def Side.other : Side → Side
  | .left => .right
  | .right => .left

theorem Side.eq_other_of_ne {s t : Side} (h : s ≠ t) : s = t.other := by
  cases s <;> cases t <;> first | rfl | exact absurd rfl h

theorem Side.other_other (s : Side) : s.other.other = s := by cases s <;> rfl

theorem Side.other_ne (s : Side) : s.other ≠ s := by cases s <;> nofun

theorem Side.eq_of_ne_other {s t : Side} (h : s ≠ t.other) : s = t := by
  cases s <;> cases t <;> first | rfl | exact absurd rfl h

namespace Bytes

variable {bytes data : Bytes} {n i : Nat} {b : UInt8}

theorem getElem?_of_prefix (h : data <+: bytes.drop n) (hi : n ≤ i) (hb : data[i - n]? = some b) :
    bytes[i]? = some b := by
  obtain ⟨rest, hrest⟩ := h
  obtain ⟨hlt, -⟩ := List.getElem?_eq_some_iff.mp hb
  have hdrop : (bytes.drop n)[i - n]? = bytes[i]? := by
    rw [List.getElem?_drop, Nat.add_sub_cancel' hi]
  rw [← hdrop, ← hrest, List.getElem?_append_left hlt, hb]

end Bytes

namespace Upload

/-- The end of the last chunk that was written, if there is one. -/
def Place.written? : Place → Option Nat
  | .writing written => written
  | .looking | .clearing | .refused => none

/-- The number of bytes that were written. -/
def Place.count (place : Place) : Nat := place.written?.getD 0

variable {key : String} {body : Side → Bytes} {place : Side → Place} {side : Side} {x : Bytes}
variable {content content' : Option Bytes} {log : List (Side × Operation)}
variable {operation : Operation} {next : Place}

/-- The object ends where one of the uploads has come to, and each of its bytes is one of the bodies
or fills a gap. -/
structure Blend (body : Side → Bytes) (place : Side → Place) (x : Bytes) : Prop where
  length : ∃ side, x.length = (place side).count
  bytes : ∀ (i : Nat) (b : UInt8), x[i]? = some b → b = 0 ∨ ∃ side, (body side)[i]? = some b

/-- The bytes that `side` has written are in their places. Behind them there is at most what the
other one wrote, and nothing if the object was removed `after` that. -/
structure Prevails (key : String) (body : Side → Bytes) (place : Side → Place) (x : Bytes)
    (after : List (Side × Operation)) (side : Side) : Prop where
  written : x.take (place side).count = (body side).take (place side).count
  length : x.length ≤ max (place side).count (body side.other).length
  removed : (side, .remove key) ∈ after → x.length ≤ (place side).count

/-- No chunk of `side` was written. -/
def Unwritten (key : String) (side : Side) (log : List (Side × Operation)) : Prop :=
  ∀ data offset, (side, .write key data offset) ∉ log

theorem Unwritten.of_append {log' : List (Side × Operation)}
    (h : Unwritten key side (log ++ log')) : Unwritten key side log := fun data offset hmem =>
  h data offset (List.mem_append_left _ hmem)

/-- All chunks of `side` were written after those of the other one, and there are as many bytes in
them, or the object was removed in between. -/
def Overwrites (key : String) (body : Side → Bytes) (log : List (Side × Operation)) (side : Side) :
    Prop :=
  ∃ before after, log = before ++ after ∧ Unwritten key side before
    ∧ Unwritten key side.other after
    ∧ ((body side.other).length ≤ (body side).length ∨ (side, .remove key) ∈ after)

/-- Where two uploads of an object stand, with the operations that they have made. -/
structure Meeting (key : String) (body : Side → Bytes) (place : Side → Place)
    (content : Option Bytes) (log : List (Side × Operation)) : Prop where
  bound : ∀ side, (place side).count ≤ (body side).length
  logged : ∀ side, Unwritten key side log → (place side).written? = none
  missing : content = none → ∃ side, (place side).written? = none
  blend : ∀ side written, place side = .writing written → Blend body place (content.getD [])
  prevails : ∀ side before after, log = before ++ after → Unwritten key side before →
    Unwritten key side.other after → (place side.other).written? ≠ none →
    Prevails key body place (content.getD []) after side

theorem Place.count_eq_zero {place : Place} (h : place.written? = none) : place.count = 0 := by
  unfold count
  rw [h]
  rfl

/-- A chunk that is written where the upload has come to leaves a blend. -/
theorem Blend.write (h : Blend body place x) {data : Bytes}
    (hdata : data <+: (body side).drop (place side).count)
    (hnext : next.count = (place side).count + data.length) :
    Blend body (Function.update place side next) (x.overlay (place side).count data) := by
  have hlength := Bytes.length_overlay x (place side).count data
  constructor
  · by_cases hlong : x.length ≤ (place side).count + data.length
    · refine ⟨side, ?_⟩
      rw [Function.update_self, hnext]
      exact hlength.trans (Nat.max_eq_right hlong)
    · -- then the object ends where the other one has come to
      obtain ⟨t, ht⟩ := h.length
      have hne : t ≠ side := by
        rintro rfl
        omega
      refine ⟨t, ?_⟩
      rw [Function.update_of_ne hne, ← ht]
      exact hlength.trans (Nat.max_eq_left (by omega))
  · intro i b hb
    rcases Bytes.getElem?_overlay hb with hzero | hthere | ⟨hbehind, hdatum⟩
    · exact .inl hzero
    · exact h.bytes i b hthere
    · exact .inr ⟨side, Bytes.getElem?_of_prefix hdata hbehind hdatum⟩

/-- An upload that prevails does so with its next chunk. -/
theorem Prevails.write {after : List (Side × Operation)} (h : Prevails key body place x after side)
    {data : Bytes} (hbound : (place side).count ≤ (body side).length)
    (hdata : data <+: (body side).drop (place side).count)
    (hnext : next.count = (place side).count + data.length) :
    Prevails key body (Function.update place side next) (x.overlay (place side).count data)
      (after ++ [(side, .write key data (place side).count)]) side := by
  have hlength := Bytes.length_overlay x (place side).count data
  -- what was written before is there
  have hfront : (place side).count ≤ x.length := by
    have htaken := congrArg List.length h.written
    rw [List.length_take, List.length_take] at htaken
    omega
  refine ⟨?_, ?_, ?_⟩
  · rw [Function.update_self, hnext, Bytes.take_overlay hfront, h.written,
      Bytes.take_append_of_prefix hdata]
  · rw [Function.update_self, hnext]
    have hbehind := h.length
    omega
  · intro hmem
    rw [Function.update_self, hnext]
    rcases List.mem_append.mp hmem with hmem | hmem
    · have hshort := h.removed hmem
      omega
    · cases List.mem_singleton.mp hmem

/-- An upload that prevails does so when it has looked at the object. -/
theorem Prevails.look {after : List (Side × Operation)} {place' : Side → Place}
    (h : Prevails key body place x after side) (hcount : (place' side).count = (place side).count)
    (hoperation : operation ≠ .remove key) :
    Prevails key body place' x (after ++ [(side, operation)]) side := by
  obtain ⟨hwritten, hlength, hremoved⟩ := h
  rw [← hcount] at hwritten hlength hremoved
  refine ⟨hwritten, hlength, fun hmem => ?_⟩
  rcases List.mem_append.mp hmem with hmem | hmem
  · exact hremoved hmem
  · cases List.mem_singleton.mp hmem
    exact absurd rfl hoperation

namespace Meeting

theorem start (key : String) (body : Side → Bytes) (content : Option Bytes) :
    Meeting key body (fun _ => .looking) content [] where
  bound := fun _ => Nat.zero_le _
  logged := fun _ _ => rfl
  missing := fun _ => ⟨.left, rfl⟩
  blend := nofun
  prevails := fun _ _ _ _ _ _ hother => absurd rfl hother

/-- An upload that has written nothing prevails over whatever is there. -/
theorem prevails_of_unwritten (hnone : (place side).written? = none) (hblend : Blend body place x)
    (hbound : (place side.other).count ≤ (body side.other).length) :
    Prevails key body place x [] side := by
  have hzero := Place.count_eq_zero hnone
  refine ⟨?_, ?_, nofun⟩
  · rw [hzero, List.take_zero, List.take_zero]
  · obtain ⟨t, ht⟩ := hblend.length
    by_cases hside : t = side
    · rw [ht, hside]
      exact Nat.le_max_left _ _
    · rw [ht, Side.eq_other_of_ne hside]
      exact Nat.le_trans hbound (Nat.le_max_right _ _)

/-- Whether an upload prevails need only be shown from an operation on that was made before the last
one. -/
theorem of_last {entry : Side × Operation}
    (hbound : ∀ side, (place side).count ≤ (body side).length)
    (hlogged : ∀ side, Unwritten key side (log ++ [entry]) → (place side).written? = none)
    (hmissing : content = none → ∃ side, (place side).written? = none)
    (hblend : ∀ side written, place side = .writing written → Blend body place (content.getD []))
    (hprevails : ∀ side before after, log = before ++ after → Unwritten key side before →
      Unwritten key side.other (after ++ [entry]) → (place side.other).written? ≠ none →
      Prevails key body place (content.getD []) (after ++ [entry]) side) :
    Meeting key body place content (log ++ [entry]) := by
  refine ⟨hbound, hlogged, hmissing, hblend, ?_⟩
  intro side before after hsplit hbefore hafter hother
  rcases List.eq_nil_or_concat after with rfl | ⟨after', last, rfl⟩
  · rw [List.append_nil] at hsplit
    refine prevails_of_unwritten (hlogged side (hsplit ▸ hbefore)) ?_ (hbound _)
    cases hplace : place side.other with
    | writing written => exact hblend side.other written hplace
    | looking | clearing | refused =>
      rw [hplace] at hother
      exact absurd rfl hother
  · rw [List.concat_eq_append] at hsplit hafter ⊢
    rw [← List.append_assoc] at hsplit
    obtain ⟨hlog, hlast⟩ := List.append_inj' hsplit rfl
    cases hlast
    exact hprevails side before after' hlog hbefore hafter hother

/-- An upload that looks the object up or removes it has written nothing yet. -/
theorem prepare (h : Meeting key body place content log) (hold : (place side).written? = none)
    (hnew : next.written? = none)
    (hcontent : content' = none
      ∨ content' = content ∧ (∀ written, next ≠ .writing written) ∧ operation ≠ .remove key) :
    Meeting key body (Function.update place side next) content' (log ++ [(side, operation)]) := by
  have hsame : ∀ t, (Function.update place side next t).written? = (place t).written? := by
    intro t
    by_cases ht : t = side
    · rw [ht, Function.update_self, hnew, hold]
    · rw [Function.update_of_ne ht]
  have hcount : ∀ t, (Function.update place side next t).count = (place t).count := by
    intro t
    unfold Place.count
    rw [hsame]
  have hzero := Place.count_eq_zero hold
  refine of_last ?_ ?_ ?_ ?_ ?_
  · intro t
    rw [hcount]
    exact h.bound t
  · intro t ht
    rw [hsame]
    exact h.logged t ht.of_append
  · intro _
    exact ⟨side, (hsame side).trans hold⟩
  · intro t written ht
    rcases hcontent with rfl | ⟨rfl, hnext, -⟩
    · exact ⟨⟨side, ((hcount side).trans hzero).symm⟩, nofun⟩
    · have hne : t ≠ side := by
        rintro rfl
        rw [Function.update_self] at ht
        exact hnext written ht
      rw [Function.update_of_ne hne] at ht
      obtain ⟨⟨u, hlength⟩, hbytes⟩ := h.blend t written ht
      exact ⟨⟨u, hlength.trans (hcount u).symm⟩, hbytes⟩
  · intro t before after hlog hbefore hafter hother
    rw [hsame] at hother
    have hprevails := h.prevails t before after hlog hbefore hafter.of_append hother
    -- the other one has written
    have ht : side = t := by
      refine Side.eq_of_ne_other ?_
      rintro rfl
      exact hother hold
    subst ht
    rcases hcontent with rfl | ⟨rfl, -, hoperation⟩
    · refine ⟨?_, Nat.zero_le _, fun _ => Nat.zero_le _⟩
      rw [hcount, hzero, List.take_zero, List.take_zero]
    · exact hprevails.look (hcount side) hoperation

/-- An upload writes where its last chunk ends. -/
theorem write (h : Meeting key body place content log) {written : Option Nat} {data : Bytes}
    (hplace : place side = .writing written) (hdata : data <+: (body side).drop (written.getD 0)) :
    Meeting key body
      (Function.update place side (.writing (some (written.getD 0 + data.length))))
      (some ((content.getD []).overlay (written.getD 0) data))
      (log ++ [(side, .write key data (written.getD 0))]) := by
  have hcount : written.getD 0 = (place side).count := by
    rw [hplace]
    rfl
  rw [hcount] at hdata ⊢
  refine of_last ?_ ?_ nofun ?_ ?_
  · intro t
    by_cases ht : t = side
    · rw [ht, Function.update_self]
      exact Bytes.length_le_of_prefix hdata (h.bound side)
    · rw [Function.update_of_ne ht]
      exact h.bound t
  · intro t ht
    have hne : t ≠ side := by
      rintro rfl
      exact ht data _ (List.mem_append_right _ List.mem_cons_self)
    rw [Function.update_of_ne hne]
    exact h.logged t ht.of_append
  · intro _ _ _
    exact (h.blend side written hplace).write hdata rfl
  · intro t before after hlog hbefore hafter hother
    -- the other one has written nothing since
    have ht : side = t := by
      refine Side.eq_of_ne_other ?_
      rintro rfl
      exact hafter data _ (List.mem_append_right _ List.mem_cons_self)
    subst ht
    rw [Function.update_of_ne side.other_ne] at hother
    have hprevails := h.prevails side before after hlog hbefore hafter.of_append hother
    exact hprevails.write (h.bound side) hdata rfl

/-- Every operation that is carried out for one of the uploads. -/
theorem step {outcome : Outcome} (h : Meeting key body place content log)
    (hmay : (rules key (body side)).may (place side) operation)
    (htakes : operation.Takes content outcome content') :
    Meeting key body
      (Function.update place side ((rules key (body side)).next (place side) operation outcome))
      content' (log ++ [(side, operation)]) := by
  rcases step_cases hmay htakes with
    ⟨hlooking, rfl, rfl, hnext | ⟨rfl, hnext⟩⟩ | ⟨hclearing, rfl, rfl, hnext⟩
    | ⟨written, data, hwriting, rfl, hdata, rfl, hnext⟩
  · rw [hnext]
    exact h.prepare (by rw [hlooking]; rfl) rfl (.inr ⟨rfl, nofun, nofun⟩)
  · rw [hnext]
    exact h.prepare (by rw [hlooking]; rfl) rfl (.inl rfl)
  · rw [hnext]
    exact h.prepare (by rw [hclearing]; rfl) rfl (.inl rfl)
  · rw [hnext]
    exact h.write hwriting hdata

variable (h : Meeting key body place content log)
variable (hended : ∀ side, place side = .writing (some (body side).length))
include h hended

/-- When both uploads have written their bodies, the object is there and ends where one of the
bodies does, and each byte is one of the bodies or fills a gap. -/
theorem blended : ∃ x, content = some x ∧ (∃ side, x.length = (body side).length)
    ∧ ∀ (i : Nat) (b : UInt8), x[i]? = some b → b = 0 ∨ ∃ side, (body side)[i]? = some b := by
  cases hcontent : content with
  | none =>
    obtain ⟨side, hnone⟩ := h.missing hcontent
    rw [hended side] at hnone
    cases hnone
  | some x =>
    obtain ⟨⟨side, hlength⟩, hbytes⟩ := h.blend .left _ (hended .left)
    rw [hcontent, hended side] at hlength
    rw [hcontent] at hbytes
    exact ⟨x, rfl, ⟨side, hlength⟩, hbytes⟩

/-- When both uploads have written their bodies, the object is that of the one that overwrites the
other. -/
theorem overwritten (hcontent : content = some x) (hover : Overwrites key body log side) :
    x = body side := by
  obtain ⟨before, after, hlog, hbefore, hafter, hcovers⟩ := hover
  have hother : (place side.other).written? ≠ none := by
    rw [hended]
    nofun
  have hcount : (place side).count = (body side).length := by
    rw [hended]
    rfl
  obtain ⟨hwritten, hlength, hremoved⟩ := h.prevails side before after hlog hbefore hafter hother
  rw [hcontent, hcount] at hwritten hlength hremoved
  have hshort : x.length ≤ (body side).length := by
    rcases hcovers with hcovers | hremove
    · rw [Nat.max_eq_left hcovers] at hlength
      exact hlength
    · exact hremoved hremove
  have hall : x.take (body side).length = (body side).take (body side).length := hwritten
  rw [List.take_of_length_le hshort, List.take_length] at hall
  exact hall

end Meeting

end Upload

end DavGateway
