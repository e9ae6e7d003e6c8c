import DavGateway.Proofs.Http.References
import DavGateway.Proofs.Markup
import DavGateway.Proofs.Moves
import DavGateway.Proofs.Text.Number

/-!
# Documents are read back

A client splits a document at its tags and reads what it tells of each entry (`Multistatus.read?`).
Whatever the keys are, this gives back the entries, in their order; a key can add no tag, because it
stands in the document in escaped form only. A document without its closing is not read at all, so
that a listing which failed, or of which only a part arrived, cannot be taken for a whole one
(`documents_read_back`).
-/

namespace DavGateway.Http

open Markup (Mark)

/-! ## Entries as tags and texts -/

/-- What a document tells of an entry. -/
structure Told where
  href : String
  isCollection : Bool
  size : Option Nat := none
  changed : Option String := none
  type : Option String := none
deriving DecidableEq, Repr

namespace Told

/-- The tags of an entry, in their order. None of them depends on a text that is told. -/
def outline (t : Told) : List String :=
  ["D:response", "D:href", "/D:href", "D:propstat", "D:prop"]
    ++ (if t.isCollection then ["D:resourcetype", "D:collection/", "/D:resourcetype"]
      else ["D:resourcetype/", "D:getcontentlength", "/D:getcontentlength", "D:getlastmodified",
        "/D:getlastmodified"]
        ++ match t.type with
          | some _ => ["D:getcontenttype", "/D:getcontenttype"]
          | none => [])
    ++ ["/D:prop", "D:status", "/D:status", "/D:propstat", "/D:response"]

/-- An entry begins once, and does not close the document. -/
theorem count_outline (t : Told) :
    t.outline.count "D:response" = 1 ∧ t.outline.count "/D:multistatus" = 0 := by
  unfold outline
  cases t.isCollection with
  | true => exact ⟨rfl, rfl⟩
  | false => cases t.type <;> exact ⟨rfl, rfl⟩

/-- The text of an element, read back. -/
def textOf? (name : String) (marks : List Mark) : Option String :=
  (marks.find? (·.tag == name)).bind (Markup.unescape? ·.text)

/-- What is told between the tags of an entry. An entry without a reference is none. -/
def ofMarks? (marks : List Mark) : Option Told :=
  (textOf? "D:href" marks).map fun href =>
    { href
      isCollection := marks.any (·.tag == "D:collection/")
      size := (textOf? "D:getcontentlength" marks).bind (Text.readDigits? ·.toList)
      changed := textOf? "D:getlastmodified" marks
      type := textOf? "D:getcontenttype" marks }

end Told

namespace Entry

/-- The path of an entry, before it is encoded. -/
def path : Entry → String
  | .collection base => base ++ "/"
  | .object base key _ => base ++ "/" ++ key

/-- What is told of an entry. -/
def told (e : Entry) : Told :=
  match e with
  | .collection _ => { href := e.href, isCollection := true }
  | .object _ key stat =>
    { href := e.href
      isCollection := false
      size := some stat.size
      changed := some (HttpDate.format stat.mtime)
      type := MediaType.guess? key }

/-- An element as tags and texts. -/
def element (name text : String) : List Mark := [⟨name, Markup.escape text⟩, ⟨"/" ++ name, ""⟩]

/-- The properties of an entry as tags and texts. -/
def propertyMarks : Entry → List Mark
  | .collection _ => [⟨"D:resourcetype", ""⟩, ⟨"D:collection/", ""⟩, ⟨"/D:resourcetype", ""⟩]
  | .object _ key stat =>
    [⟨"D:resourcetype/", ""⟩] ++ element "D:getcontentlength" (toString stat.size)
      ++ element "D:getlastmodified" (HttpDate.format stat.mtime)
      ++ match MediaType.guess? key with
        | some type => element "D:getcontenttype" type
        | none => []

/-- What follows the tag that begins an entry. -/
def body (e : Entry) : List Mark :=
  element "D:href" e.href ++ [⟨"D:propstat", ""⟩, ⟨"D:prop", ""⟩] ++ e.propertyMarks
    ++ [⟨"/D:prop", ""⟩, ⟨"D:status", "HTTP/1.1 200 OK"⟩, ⟨"/D:status", ""⟩, ⟨"/D:propstat", ""⟩,
      ⟨"/D:response", "\n"⟩]

/-- An entry as tags and texts. -/
def marks (e : Entry) : List Mark := ⟨"D:response", ""⟩ :: e.body

theorem written_element (name text : String) :
    Markup.written (element name text) = Markup.element name text := by
  rw [← String.toList_inj]
  simp [element, Markup.element, Markup.written, Mark.written]

theorem properties_eq (e : Entry) : e.properties = Markup.written e.propertyMarks := by
  cases e with
  | collection base =>
    have hroot : "<D:resourcetype><D:collection/></D:resourcetype>" = Markup.written
        [⟨"D:resourcetype", ""⟩, ⟨"D:collection/", ""⟩, ⟨"/D:resourcetype", ""⟩] := by
      simp [Markup.written_cons]
    exact hroot
  | object base key stat =>
    have hkind : Markup.written [⟨"D:resourcetype/", ""⟩] = "<D:resourcetype/>" := by
      simp [Markup.written_cons]
    unfold properties propertyMarks
    simp only [Markup.written_append, written_element, hkind]
    cases MediaType.guess? key with
    | none => simp only [Markup.written_nil]
    | some type => simp only [written_element]

/-- The text of an entry is written from its tags and texts. -/
theorem text_eq (e : Entry) : e.text = Markup.written e.marks := by
  have hfront : Markup.written [⟨"D:response", ""⟩] = "<D:response>" := by
    simp [Markup.written_cons]
  have hmiddle : Markup.written [⟨"D:propstat", ""⟩, ⟨"D:prop", ""⟩] = "<D:propstat><D:prop>" := by
    simp [Markup.written_cons]
  have hback : Markup.written [⟨"/D:prop", ""⟩, ⟨"D:status", "HTTP/1.1 200 OK"⟩, ⟨"/D:status", ""⟩,
      ⟨"/D:propstat", ""⟩, ⟨"/D:response", "\n"⟩] =
      "</D:prop><D:status>HTTP/1.1 200 OK</D:status></D:propstat></D:response>\n" := by
    simp [Markup.written_cons]
  delta text
  rw [marks, ← List.singleton_append, body, Markup.written_append, Markup.written_append,
    Markup.written_append, Markup.written_append, written_element, hfront, hmiddle, hback,
    ← properties_eq]
  simp only [String.append_assoc]

theorem element_proper {name : String} (hopening : '<' ∉ name.toList) (hclosing : '>' ∉ name.toList)
    (text : String) : ∀ m ∈ element name text, m.IsProper := by
  have hback : (⟨"/" ++ name, ""⟩ : Mark).IsProper :=
    ⟨by simp [hopening], by simp [hclosing], by simp⟩
  have htext : '<' ∉ (Markup.escape text).toList := Markup.not_mem_escape (.inl rfl) text
  exact List.forall_mem_cons.mpr ⟨⟨hopening, hclosing, htext⟩, List.forall_mem_singleton.mpr hback⟩

/-- No text of an entry has a bracket in it. -/
theorem marks_proper (e : Entry) : ∀ m ∈ e.marks, m.IsProper := by
  have hproperties : ∀ m ∈ e.propertyMarks, m.IsProper := by
    cases e with
    | collection base => exact (by decide +kernel : ∀ m ∈ [(⟨"D:resourcetype", ""⟩ : Mark),
        ⟨"D:collection/", ""⟩, ⟨"/D:resourcetype", ""⟩], m.IsProper)
    | object base key stat =>
      simp only [propertyMarks, List.forall_mem_append]
      refine ⟨⟨⟨by decide +kernel, element_proper (by decide) (by decide) _⟩,
        element_proper (by decide) (by decide) _⟩, ?_⟩
      cases MediaType.guess? key with
      | none => exact nofun
      | some type => exact element_proper (by decide) (by decide) _
  simp only [marks, body, List.forall_mem_cons, List.forall_mem_append]
  exact ⟨by decide +kernel, ⟨⟨element_proper (by decide) (by decide) _, by decide +kernel⟩,
    hproperties⟩, by decide +kernel⟩

/-- Which tags an entry has is told by what it is, not by its texts. -/
theorem tags_eq (e : Entry) : e.marks.map (·.tag) = e.told.outline := by
  cases e with
  | collection base => rfl
  | object base key stat =>
    simp only [marks, body, propertyMarks, Told.outline, told, element]
    cases MediaType.guess? key <;> rfl

/-- An entry begins with its first tag, and does not have it again. -/
theorem tag_body (e : Entry) : ∀ m ∈ e.body, (m.tag == "D:response") = false := by
  cases e with
  | collection base =>
    simp [body, propertyMarks, element]
  | object base key stat =>
    simp only [body, propertyMarks, element]
    cases MediaType.guess? key <;> simp

/-- What a client reads between the tags of an entry is what is told of it. -/
theorem ofMarks?_body (e : Entry) : Told.ofMarks? e.body = some e.told := by
  cases e with
  | collection base =>
    simp [Told.ofMarks?, Told.textOf?, body, propertyMarks, element, told, Markup.unescape?_escape]
  | object base key stat =>
    simp only [Told.ofMarks?, Told.textOf?, body, propertyMarks, element, told]
    cases MediaType.guess? key <;>
      simp [Markup.unescape?_escape, Text.readDigits?_toDigits]

end Entry

/-! ## Documents as tags and texts -/

namespace Multistatus

/-- Reads a document. It has to end with the tag that closes it. -/
def read? (document : String) : Option (List Told) := do
  let marks ← Markup.split? document
  let last ← marks.getLast?
  if last.tag = "/D:multistatus" then
    (marks.dropLast.splitOnP (·.tag == "D:response")).tail.mapM Told.ofMarks?
  else none

/-- The tags and texts with which a document begins. -/
def openingMarks : List Mark :=
  [⟨"?xml version=\"1.0\" encoding=\"utf-8\"?", "\n"⟩, ⟨"D:multistatus xmlns:D=\"DAV:\"", "\n"⟩]

/-- The tag that closes a document. -/
def closingMark : Mark := ⟨"/D:multistatus", "\n"⟩

/-- A document with the given entries as tags and texts, with its end or without. -/
def marksOf (listed : List Entry) (isWhole : Bool) : List Mark :=
  openingMarks ++ listed.flatMap Entry.marks ++ if isWhole then [closingMark] else []

/-- The chunks of a document with the given entries, with its end or without. -/
def chunksOf (listed : List Entry) (isWhole : Bool) : List Bytes :=
  Bytes.ofText opening :: listed.map (fun e => Bytes.ofText e.text)
    ++ if isWhole then [Bytes.ofText closing] else []

variable {listed : List Entry} {isWhole : Bool}

theorem toText?_chunksOf (listed : List Entry) (isWhole : Bool) :
    Bytes.toText? (chunksOf listed isWhole).flatten =
      some (Markup.written (marksOf listed isWhole)) := by
  have hopening : opening = Markup.written openingMarks := by
    simp [opening, openingMarks, Markup.written_cons]
  have hclosing : closing = Markup.written [closingMark] := by
    simp [closing, closingMark, Markup.written_cons]
  have hentries : (listed.map fun e => Bytes.ofText e.text).flatten =
      Bytes.ofText (Markup.written (listed.flatMap Entry.marks)) := by
    induction listed with
    | nil => rfl
    | cons e listed ih =>
      rw [List.map_cons, List.flatten_cons, ih, List.flatMap_cons, Markup.written_append,
        Bytes.ofText_append, Entry.text_eq]
  have hend : (if isWhole then [Bytes.ofText closing] else []).flatten =
      Bytes.ofText (Markup.written (if isWhole then [closingMark] else [])) := by
    cases isWhole with
    | false => rfl
    | true => simp [hclosing]
  rw [chunksOf, marksOf, List.flatten_append, List.flatten_cons, hentries, hend, hopening,
    ← Bytes.ofText_append, ← Bytes.ofText_append, ← Markup.written_append, ← Markup.written_append,
    Bytes.toText?_ofText]

theorem marksOf_proper (listed : List Entry) (isWhole : Bool) :
    ∀ m ∈ marksOf listed isWhole, m.IsProper := by
  simp only [marksOf, List.forall_mem_append]
  refine ⟨⟨by decide +kernel, ?_⟩, ?_⟩
  · intro m hm
    obtain ⟨e, -, hm⟩ := List.mem_flatMap.mp hm
    exact e.marks_proper m hm
  · cases isWhole <;> decide +kernel

/-- Tags that are in no entry are counted where the document begins and ends. -/
theorem countP_marksOf (name : String) : (marksOf listed isWhole).countP (·.tag == name) =
    openingMarks.countP (·.tag == name) + (listed.map fun e => e.told.outline.count name).sum
      + (if isWhole then [closingMark] else []).countP (·.tag == name) := by
  have hentry : ∀ e : Entry, e.marks.countP (·.tag == name) = e.told.outline.count name := by
    intro e
    rw [← e.tags_eq, List.count, List.countP_map]
    rfl
  rw [marksOf, List.countP_append, List.countP_append, List.countP_flatMap]
  simp only [hentry, Function.comp_def]

/-- At the tags with which they begin, the entries are told apart. -/
theorem splitOnP_marks {front : List Mark} (hfront : ∀ m ∈ front, (m.tag == "D:response") = false)
    (listed : List Entry) :
    (front ++ listed.flatMap Entry.marks).splitOnP (·.tag == "D:response") =
      front :: listed.map Entry.body := by
  induction listed generalizing front with
  | nil => rw [List.flatMap_nil, List.append_nil, List.splitOnP_eq_singleton hfront, List.map_nil]
  | cons e listed ih =>
    rw [List.flatMap_cons, Entry.marks, List.cons_append,
      List.splitOnP_append_cons_of_forall_mem hfront _ rfl, ih e.tag_body, List.map_cons]

theorem mapM_body (listed : List Entry) :
    (listed.map Entry.body).mapM Told.ofMarks? = some (listed.map Entry.told) := by
  induction listed with
  | nil => rfl
  | cons e listed ih =>
    rw [List.map_cons, List.mapM_cons, Entry.ofMarks?_body, ih]
    rfl

/-- A whole document is read back, and nothing else is read. -/
theorem read?_marksOf (listed : List Entry) (isWhole : Bool) :
    read? (Markup.written (marksOf listed isWhole)) =
      if isWhole then some (listed.map Entry.told) else none := by
  rw [read?, Markup.split?_written (marksOf_proper listed isWhole), Option.bind_eq_bind,
    Option.bind_some]
  cases isWhole with
  | true =>
    have hopening : ∀ m ∈ openingMarks, (m.tag == "D:response") = false := by decide
    have hmarks : marksOf listed true =
        openingMarks ++ listed.flatMap Entry.marks ++ [closingMark] := rfl
    rw [hmarks, List.getLast?_concat, List.dropLast_concat, splitOnP_marks hopening]
    exact mapM_body listed
  | false =>
    -- no tag of an entry closes the document
    have hopen : ∀ m ∈ marksOf listed false, m.tag ≠ "/D:multistatus" := by
      have hnone : (marksOf listed false).countP (·.tag == "/D:multistatus") = 0 := by
        rw [countP_marksOf]
        simp [Told.count_outline, openingMarks]
      simpa [List.countP_eq_zero] using hnone
    cases hlast : (marksOf listed false).getLast? with
    | none => rfl
    | some last => exact if_neg (hopen last (List.mem_of_getLast? hlast))

theorem occurrences_marksOf (listed : List Entry) (isWhole : Bool) :
    Markup.occurrences "<D:response>" (Markup.written (marksOf listed isWhole)) = listed.length
      ∧ Markup.occurrences "</D:multistatus>" (Markup.written (marksOf listed isWhole)) =
        if isWhole then 1 else 0 := by
  have hresponse : "<D:response>" = "<" ++ "D:response" ++ ">" := by decide +kernel
  have hclosing : "</D:multistatus>" = "<" ++ "/D:multistatus" ++ ">" := by decide +kernel
  have hproper := marksOf_proper listed isWhole
  rw [hresponse, hclosing, Markup.occurrences_written (by decide) hproper,
    Markup.occurrences_written (by decide) hproper, countP_marksOf, countP_marksOf]
  cases isWhole <;> simp [Told.count_outline, openingMarks, closingMark]

/-- A part of a document that stops in front of its end is a document of fewer entries without an
end, or nothing. -/
theorem eq_chunksOf_of_prefix {part : List Bytes} (h : part <+: chunksOf listed false) :
    part = [] ∨ ∃ shown, part = chunksOf shown false := by
  have hchunks : ∀ shown, chunksOf shown false =
      Bytes.ofText opening :: shown.map fun e => Bytes.ofText e.text :=
    fun shown => List.append_nil _
  rw [hchunks, List.prefix_cons_iff] at h
  rcases h with rfl | ⟨rest, rfl, hrest⟩
  · exact .inl rfl
  · obtain ⟨shown, -, rfl⟩ := List.prefix_map_iff.mp hrest
    exact .inr ⟨shown, (hchunks shown).symm⟩

/-- A part of a document is read only if it is the document, and whole. -/
theorem of_read?_part {part : List Bytes} {text : String} {told : List Told}
    (hpart : part <+: chunksOf listed isWhole) (htext : Bytes.toText? part.flatten = some text)
    (htold : read? text = some told) : part = chunksOf listed isWhole ∧ isWhole = true := by
  -- what stops in front of the end is a document of its own, without an end
  have hshort : ¬ part <+: chunksOf listed false := by
    intro h
    rcases eq_chunksOf_of_prefix h with rfl | ⟨shown, rfl⟩
    · cases htext
      cases htold
    · rw [toText?_chunksOf, Option.some.injEq] at htext
      rw [← htext, read?_marksOf] at htold
      cases htold
  cases isWhole with
  | false => exact absurd hpart hshort
  | true =>
    have hchunks : chunksOf listed true = chunksOf listed false ++ [Bytes.ofText closing] := by
      simp [chunksOf]
    rw [hchunks, List.prefix_concat_iff] at hpart
    exact ⟨hchunks ▸ hpart.resolve_right hshort, rfl⟩

section Running

variable {σ : Type} (answer : (call : SessionCall) → StateM σ call.Answer)
variable (entries : SessionFlow Entry (Except Failure Unit)) (s : σ)

/-- A document is handed out while its entries become known. -/
theorem moves_document : (document entries).moves answer s =
    .handed (Bytes.ofText opening) ::
      ((entries.moves answer s).map (.map fun e => Bytes.ofText e.text)
        ++ if (entries.collect answer s).1.2.isOk then [.handed (Bytes.ofText closing)]
          else []) := by
  rw [document, Flow.moves, Flow.moves_bind, Flow.moves_mapItems, Flow.collect_mapItems]
  cases (entries.collect answer s).1.2 <;> rfl

theorem collect_document : (document entries).collect answer s =
    ((chunksOf (entries.collect answer s).1.1 (entries.collect answer s).1.2.isOk,
      (entries.collect answer s).1.2), (entries.collect answer s).2) := by
  rw [document, Flow.collect_emit, Flow.collect_bind, Flow.collect_mapItems]
  cases (entries.collect answer s).1.2 <;> rfl

end Running

end Multistatus

/-- Whatever the entries of a document are, and whatever its calls are answered: each entry is
handed out as one chunk as soon as it is known, between the opening and, unless the entries fail,
the closing, and the document ends as the entries do. Its text has the tags of the entries and no
others. A client that splits it at them reads what is told of each entry, in their order, if it is
whole, and nothing if it is not, however much of it arrived; and each reference is read as the path
of its entry. -/
theorem documents_read_back {σ : Type} (answer : (call : SessionCall) → StateM σ call.Answer)
    (entries : SessionFlow Entry (Except Failure Unit)) (s : σ) :
    let listed := (entries.collect answer s).1.1
    let result := (entries.collect answer s).1.2
    let chunks := ((Multistatus.document entries).collect answer s).1.1
    ((Multistatus.document entries).collect answer s).1.2 = result
      ∧ chunks = Bytes.ofText Multistatus.opening :: listed.map (fun e => Bytes.ofText e.text)
        ++ (if result.isOk then [Bytes.ofText Multistatus.closing] else [])
      ∧ (Multistatus.document entries).moves answer s = .handed (Bytes.ofText Multistatus.opening) ::
        ((entries.moves answer s).map (.map fun e => Bytes.ofText e.text)
          ++ if result.isOk then [.handed (Bytes.ofText Multistatus.closing)] else [])
      ∧ (∃ text, Bytes.toText? chunks.flatten = some text
        ∧ Markup.occurrences "<D:response>" text = listed.length
        ∧ Markup.occurrences "</D:multistatus>" text = (if result.isOk then 1 else 0)
        ∧ (Markup.split? text).map (·.map (·.tag)) = some
          (["?xml version=\"1.0\" encoding=\"utf-8\"?", "D:multistatus xmlns:D=\"DAV:\""]
            ++ listed.flatMap (·.told.outline) ++ if result.isOk then ["/D:multistatus"] else [])
        ∧ Multistatus.read? text = if result.isOk then some (listed.map Entry.told) else none)
      ∧ (∀ part text told, part <+: chunks → Bytes.toText? part.flatten = some text →
        Multistatus.read? text = some told → part = chunks ∧ result = .ok ())
      ∧ ∀ e ∈ listed, Percent.decode? e.told.href = some e.path := by
  intro listed result chunks
  have hchunks : chunks = Multistatus.chunksOf listed result.isOk :=
    congrArg (·.1.1) (Multistatus.collect_document answer entries s)
  obtain ⟨hresponses, hclosings⟩ := Multistatus.occurrences_marksOf listed result.isOk
  refine ⟨congrArg (·.1.2) (Multistatus.collect_document answer entries s), hchunks,
    Multistatus.moves_document answer entries s, ⟨_, ?_, hresponses, hclosings, ?_, ?_⟩, ?_, ?_⟩
  · rw [hchunks, Multistatus.toText?_chunksOf]
  · rw [Markup.split?_written (Multistatus.marksOf_proper listed result.isOk), Option.map_some,
      Multistatus.marksOf]
    simp only [List.map_append, List.map_flatMap, Entry.tags_eq]
    cases result.isOk <;> rfl
  · exact Multistatus.read?_marksOf listed result.isOk
  · intro part text told hpart htext htold
    rw [hchunks] at hpart ⊢
    obtain ⟨heq, hok⟩ := Multistatus.of_read?_part hpart htext htold
    refine ⟨heq, ?_⟩
    cases hresult : result with
    | ok done => rfl
    | error failure =>
      rw [hresult] at hok
      cases hok
  · intro e _
    cases e with
    | collection base => exact Entry.decode?_href_collection base
    | object base key stat => exact Entry.decode?_href_object base key stat

end DavGateway.Http
