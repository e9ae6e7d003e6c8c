import DavGateway.Proofs.Transfer.Upload

/-!
# Pieces of a body

Bytes are cut into whole chunks in one way only (`Upload.cut_eq`), so what was cut part by part is
what would have been cut at once (`Upload.cut_append`). The pieces of a body are its whole chunks
and what follows them: each begins where a multiple of the size of a chunk is, and there is one at
least (`Upload.pieces_eq`).
-/

namespace DavGateway

namespace Upload

variable {c : Nat}

/-! ## Cutting -/

theorem cutOff_eq (c count : Nat) (bytes : Bytes) : cutOff c count bytes =
    ((List.range count).map fun i => bytes.slice (i * c) c, bytes.drop (count * c)) := by
  induction count generalizing bytes with
  | zero => rw [Nat.zero_mul]; rfl
  | succ count ih =>
    show (bytes.take c :: (cutOff c count (bytes.drop c)).1, (cutOff c count (bytes.drop c)).2) = _
    rw [ih, List.drop_drop, List.range_succ_eq_map, List.map_cons, List.map_map, Nat.zero_mul,
      Nat.succ_mul, Nat.add_comm c]
    have hslices : (List.range count).map (fun i => Bytes.slice (bytes.drop c) (i * c) c) =
        (List.range count).map ((fun i => bytes.slice (i * c) c) ∘ Nat.succ) := by
      refine List.map_congr_left fun i _ => ?_
      rw [Function.comp_apply, Bytes.slice, Bytes.slice, List.drop_drop, Nat.succ_mul, Nat.add_comm]
    rw [hslices]
    rfl

theorem length_cut (c : Nat) (bytes : Bytes) : (cut c bytes).1.length = bytes.length / c := by
  rw [cut, cutOff_eq, List.length_map, List.length_range]

theorem length_of_mem_cut {bytes chunk : Bytes} (h : chunk ∈ (cut c bytes).1) :
    chunk.length = c := by
  rw [cut, cutOff_eq] at h
  obtain ⟨i, hi, rfl⟩ := List.mem_map.mp h
  have hend : (i + 1) * c ≤ bytes.length :=
    Nat.le_trans (Nat.mul_le_mul_right c (List.mem_range.mp hi)) (Nat.div_mul_le_self _ c)
  rw [Nat.succ_mul] at hend
  rw [Bytes.slice, List.length_take, List.length_drop]
  omega

theorem length_cut_snd (c : Nat) (bytes : Bytes) : (cut c bytes).2.length = bytes.length % c := by
  rw [cut, cutOff_eq, List.length_drop]
  have hdiv := Nat.div_add_mod' bytes.length c
  omega

theorem length_cut_snd_lt (hc : 0 < c) (bytes : Bytes) : (cut c bytes).2.length < c := by
  rw [length_cut_snd]
  exact Nat.mod_lt _ hc

/-- The slices of a beginning, one behind the other. -/
theorem slices_flatten (c count : Nat) (bytes : Bytes) :
    ((List.range count).map fun i => bytes.slice (i * c) c).flatten = bytes.take (count * c) := by
  have hall := cutOff_flatten c count bytes
  rw [cutOff_eq] at hall
  exact List.append_cancel_right (hall.trans (List.take_append_drop _ _).symm)

/-- There is one way only to cut bytes into whole chunks. -/
theorem cut_eq {chunks : List Bytes} {rest : Bytes} (hchunks : ∀ chunk ∈ chunks, chunk.length = c)
    (hrest : rest.length < c) : cut c (chunks.flatten ++ rest) = (chunks, rest) := by
  induction chunks with
  | nil =>
    rw [List.flatten_nil, List.nil_append, cut, Nat.div_eq_of_lt hrest]
    rfl
  | cons chunk chunks ih =>
    obtain ⟨hchunk, hmore⟩ := List.forall_mem_cons.mp hchunks
    have hcount : ((chunk :: chunks).flatten ++ rest).length / c =
        (chunks.flatten ++ rest).length / c + 1 := by
      rw [List.flatten_cons, List.append_assoc, List.length_append, hchunk, Nat.add_comm,
        Nat.add_div_right _ (Nat.zero_lt_of_lt hrest)]
    rw [cut, hcount, List.flatten_cons, List.append_assoc]
    show (_ :: (cutOff c _ _).1, (cutOff c _ _).2) = _
    rw [List.take_left' hchunk, List.drop_left' hchunk]
    have hcut := ih hmore
    rw [cut] at hcut
    rw [hcut]

/-- Bytes that come later are cut together with what was left. -/
theorem cut_append (hc : 0 < c) (bytes more : Bytes) : cut c (bytes ++ more) =
    ((cut c bytes).1 ++ (cut c ((cut c bytes).2 ++ more)).1,
      (cut c ((cut c bytes).2 ++ more)).2) := by
  have hbytes : bytes ++ more = ((cut c bytes).1 ++ (cut c ((cut c bytes).2 ++ more)).1).flatten
      ++ (cut c ((cut c bytes).2 ++ more)).2 := by
    rw [List.flatten_append, List.append_assoc, cut_flatten, ← List.append_assoc, cut_flatten]
  have hlength : ∀ chunk ∈ (cut c bytes).1 ++ (cut c ((cut c bytes).2 ++ more)).1,
      chunk.length = c := by
    intro chunk hmem
    rcases List.mem_append.mp hmem with hmem | hmem
    · exact length_of_mem_cut hmem
    · exact length_of_mem_cut hmem
  exact (congrArg (cut c) hbytes).trans (cut_eq hlength (length_cut_snd_lt hc _))

/-! ## Pieces -/

/-- The pieces in which a body is written: its whole chunks, and what follows them. An empty body is
one empty piece. -/
def pieces (c : Nat) (body : Bytes) : List Bytes :=
  if (cut c body).2 ≠ [] ∨ (cut c body).1.length = 0 then (cut c body).1 ++ [(cut c body).2]
  else (cut c body).1

theorem pieces_flatten (c : Nat) (body : Bytes) : (pieces c body).flatten = body := by
  unfold pieces
  split
  · rw [List.flatten_append, List.flatten_singleton, cut_flatten]
  · next hwhole =>
    have hnone : (cut c body).2 = [] := not_not.mp (not_or.mp hwhole).1
    have hall := cut_flatten c body
    rwa [hnone, List.append_nil] at hall

theorem pieces_ne_nil (c : Nat) (body : Bytes) : pieces c body ≠ [] := by
  unfold pieces
  split
  · exact List.append_ne_nil_of_right_ne_nil _ (List.cons_ne_nil _ _)
  · next hwhole => exact fun hnone => (not_or.mp hwhole).2 (congrArg List.length hnone)

/-- How many pieces there are: as many as chunks are begun, and at least one. -/
def pieceCount (c length : Nat) : Nat := max 1 ((length + c - 1) / c)

theorem pieceCount_of_rest {length : Nat} (hc : 0 < c) (h : length % c ≠ 0 ∨ length / c = 0) :
    pieceCount c length = length / c + 1 := by
  have hdiv := Nat.div_add_mod' length c
  by_cases hrest : length % c = 0
  · have hnone : length / c = 0 := h.resolve_left fun hne => hne hrest
    rw [hrest, hnone, Nat.zero_mul] at hdiv
    rw [pieceCount, ← hdiv, Nat.zero_add, Nat.div_eq_of_lt (by omega), Nat.zero_div]
    rfl
  · have hmod := Nat.mod_lt length hc
    have hup : (length + c - 1) / c = length / c + 1 := by
      refine Nat.div_eq_of_lt_le ?_ ?_
      · rw [Nat.succ_mul]
        omega
      · rw [Nat.succ_mul, Nat.succ_mul]
        omega
    rw [pieceCount, hup, Nat.max_eq_right (Nat.le_add_left 1 _)]

theorem pieceCount_of_whole {length : Nat} (hc : 0 < c) (h : length % c = 0)
    (hsome : length / c ≠ 0) : pieceCount c length = length / c := by
  have hdiv := Nat.div_add_mod' length c
  have hup : (length + c - 1) / c = length / c := by
    refine Nat.div_eq_of_lt_le ?_ ?_
    · omega
    · rw [Nat.succ_mul]
      omega
  rw [pieceCount, hup, Nat.max_eq_right (Nat.one_le_iff_ne_zero.mpr hsome)]

/-- Each piece begins within the body. -/
theorem mul_le_of_lt_pieceCount {i length : Nat} (hc : 0 < c) (h : i < pieceCount c length) :
    i * c ≤ length := by
  have hcount : pieceCount c length ≤ length / c + 1 := by
    by_cases hends : length % c ≠ 0 ∨ length / c = 0
    · exact Nat.le_of_eq (pieceCount_of_rest hc hends)
    · obtain ⟨hwhole, hsome⟩ := not_or.mp hends
      rw [pieceCount_of_whole hc (not_not.mp hwhole) hsome]
      exact Nat.le_succ _
  exact (Nat.le_div_iff_mul_le hc).mp (Nat.le_of_lt_succ (Nat.lt_of_lt_of_le h hcount))

/-- The pieces are the body, chunk by chunk. -/
theorem pieces_eq (hc : 0 < c) (body : Bytes) : pieces c body =
    (List.range (pieceCount c body.length)).map fun i => body.slice (i * c) c := by
  have hrest := length_cut_snd c body
  unfold pieces
  rw [length_cut]
  split
  · next hends =>
    -- the last piece is not whole
    have hcount : pieceCount c body.length = body.length / c + 1 := by
      refine pieceCount_of_rest hc (hends.imp_left fun hne hzero => hne ?_)
      exact List.eq_nil_of_length_eq_zero (hrest.trans hzero)
    have hlast : (cut c body).2 = body.slice (body.length / c * c) c := by
      have hshort := length_cut_snd_lt hc body
      rw [cut, cutOff_eq] at hshort ⊢
      exact (List.take_of_length_le (Nat.le_of_lt hshort)).symm
    rw [hcount, List.range_succ, List.map_append, List.map_singleton, hlast, cut, cutOff_eq]
  · next hwhole =>
    obtain ⟨hnone, hsome⟩ := not_or.mp hwhole
    rw [not_not.mp hnone] at hrest
    rw [pieceCount_of_whole hc hrest.symm hsome, cut, cutOff_eq]

theorem length_pieces (hc : 0 < c) (body : Bytes) :
    (pieces c body).length = pieceCount c body.length := by
  rw [pieces_eq hc, List.length_map, List.length_range]

/-- Every piece but the last is a whole chunk. -/
theorem length_slice_of_lt {i : Nat} {body : Bytes} (hc : 0 < c)
    (h : i + 1 < pieceCount c body.length) : (body.slice (i * c) c).length = c := by
  have hnext := mul_le_of_lt_pieceCount hc h
  rw [Nat.succ_mul] at hnext
  rw [Bytes.slice, List.length_take, List.length_drop]
  omega

/-- The last piece is what follows the whole chunks, if anything does. -/
theorem length_last_slice (hc : 0 < c) (body : Bytes) :
    (body.slice ((pieceCount c body.length - 1) * c) c).length =
      if body.length = 0 then 0 else if c ∣ body.length then c else body.length % c := by
  have hdiv := Nat.div_add_mod' body.length c
  have hmod := Nat.mod_lt body.length hc
  rw [Bytes.slice, List.length_take, List.length_drop]
  split
  · omega
  · next hsome =>
    split
    · next hwhole =>
      have hnone := Nat.mod_eq_zero_of_dvd hwhole
      have hchunks : body.length / c ≠ 0 := by
        intro hzero
        rw [hzero, hnone, Nat.zero_mul] at hdiv
        exact hsome hdiv.symm
      have hlast : (body.length / c - 1) * c + c = body.length / c * c := by
        rw [← Nat.succ_mul, Nat.succ_eq_add_one,
          Nat.sub_add_cancel (Nat.one_le_iff_ne_zero.mpr hchunks)]
      rw [pieceCount_of_whole hc hnone hchunks]
      omega
    · next hrest =>
      rw [pieceCount_of_rest hc (.inl fun hzero => hrest (Nat.dvd_of_mod_eq_zero hzero)),
        Nat.add_sub_cancel]
      omega

end Upload

end DavGateway
