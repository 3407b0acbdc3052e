import BrokerTrial.Payload
import BrokerTrial.Proofs.Chunking

/-! Chunking is an exact partition of the payload. The chunk at a position is the slice of the
payload that starts there (`chunkAt_eq_ok`). A cursor that goes on behind each chunk it reads comes
to the end, and from every place it comes by it reads the chunks that are left (`read_taken`). -/

namespace BrokerTrial

theorem length_toList_loop (bytes : ByteArray) (i : Nat) (read : List UInt8) :
    (ByteArray.toList.loop bytes i read).length = read.length + (bytes.size - i) := by
  induction i, read using ByteArray.toList.loop.induct bytes with
  | case1 i read h ih =>
    rw [ByteArray.toList.loop, if_pos h, ih, List.length_cons]
    omega
  | case2 i read h =>
    rw [ByteArray.toList.loop, if_neg h, List.length_reverse]
    omega

theorem payload_ne_nil : payload ≠ [] := by
  have htext : payloadText ≠ "" := by
    unfold payloadText
    simp only [ne_eq, String.append_eq_empty_iff]
    decide
  have hsize : payloadText.toUTF8.size ≠ 0 := mt String.utf8ByteSize_eq_zero_iff.1 htext
  refine List.ne_nil_of_length_pos ?_
  unfold payload ByteArray.toList
  rw [length_toList_loop]
  omega

namespace Chunker

variable {c : Chunker} {position : Int} {chunk : Chunk} {k : Nat}

theorem ofPayload?_eq_ok {payload : List UInt8} {size : Int} (hs : 1 ≤ size) (hp : payload ≠ []) :
    ofPayload? payload size = .ok ⟨payload, size.toNat, by omega, hp⟩ := by
  rw [ofPayload?, dif_pos (by omega), dif_pos hp]

/-- Inside the payload, the chunk at a position is the slice that starts there. -/
theorem chunkAt_eq_ok (hstart : 0 ≤ position) (hend : position < c.total) :
    c.chunkAt position = .ok
      ⟨c.payload.extract position.toNat (min (position + c.size) c.total).toNat,
        (c.total : Int) ≤ position + c.size⟩ := by
  obtain ⟨n, rfl⟩ := Int.eq_ofNat_of_zero_le hstart
  have hn : n < c.total := by exact_mod_cast hend
  rw [chunkAt, if_pos ⟨hstart, hend⟩, cut, Int.toNat_natCast]
  congr 2
  · -- a slice that is cut off at the end of the payload takes no less
    have hstop : (min ((n : Int) + c.size) c.total).toNat = min (n + c.size) c.payload.length := by
      rw [total]
      omega
    have hrest : (c.payload.drop n).length = c.payload.length - n := List.length_drop
    rw [hstop, List.extract_eq_take_drop, ← Nat.sub_min_sub_right, Nat.add_sub_cancel_left, ← hrest,
      List.take_eq_take_min]
  · rw [List.drop_drop, Bool.eq_iff_iff, List.isEmpty_iff, List.drop_eq_nil_iff, decide_eq_true_iff,
      total]
    omega

theorem chunkAt_eq_error (h : position < 0 ∨ c.total ≤ position) :
    c.chunkAt position = .error (.outside position c.total) := by
  rw [chunkAt, if_neg (by omega)]

theorem data_length_pos (h : c.chunkAt position = .ok chunk) : 0 < chunk.data.length := by
  by_cases hin : 0 ≤ position ∧ position < c.total
  · have hsize := c.size_pos
    rw [chunkAt_eq_ok hin.1 hin.2, Except.ok.injEq] at h
    rw [← h, List.extract_eq_take_drop, List.length_take, List.length_drop]
    unfold total at *
    omega
  · rw [chunkAt_eq_error (by omega)] at h
    cases h

/-- A chunk and what lies behind it are what lies behind its position. -/
theorem data_append_drop (h : c.chunkAt position = .ok chunk) :
    chunk.data ++ c.payload.drop (position + chunk.data.length).toNat =
      c.payload.drop position.toNat := by
  rw [chunkAt] at h
  split_ifs at h with hin
  have hdata : chunk.data = (c.payload.drop position.toNat).take c.size := by
    rw [← Except.ok.inj h, cut]
  have hprefix : chunk.data <+: c.payload.drop position.toNat := hdata ▸ List.take_prefix _ _
  have hposition : (position + chunk.data.length).toNat = position.toNat + chunk.data.length := by
    omega
  rw [hposition, ← List.drop_drop]
  exact List.prefix_iff_eq_append.1 hprefix

/-- What a cursor reads from a position on: chunk by chunk, until it stands at the end. -/
def read (c : Chunker) (position : Int) : Except Error (List Chunk) :=
  if position < c.total then
    match _ : c.chunkAt position with
    | .ok chunk => (c.read (position + chunk.data.length)).map (chunk :: ·)
    | .error e => .error e
  else .ok []
termination_by (c.total - position).toNat
decreasing_by
  have hpos := data_length_pos ‹c.chunkAt position = _›
  omega

theorem read_of_end (h : c.total ≤ position) : c.read position = .ok [] := by
  rw [read, if_neg (by omega)]

theorem read_of_chunkAt (h : c.chunkAt position = .ok chunk) :
    c.read position = (c.read (position + chunk.data.length)).map (chunk :: ·) := by
  have hlt : position < c.total := by
    by_contra hout
    rw [chunkAt_eq_error (by omega)] at h
    cases h
  rw [read, if_pos hlt]
  split
  · next other hother => rw [Except.ok.inj (hother.symm.trans h)]
  · next e he => cases he.symm.trans h

/-- In front of a chunk, what is left to read is that chunk and the ones behind it. -/
theorem Before.read_eq {position : Int} {k : Nat} (h : c.Before position k) :
    c.read position = .ok (c.chunks.drop k) := by
  have hlt := h.lt_length
  have hc : c.chunkAt position = .ok c.chunks[k] :=
    h.chunkAt_eq_ok_iff.2 (List.getElem?_eq_getElem hlt)
  rw [read_of_chunkAt hc, List.drop_eq_getElem_cons hlt]
  rcases h.next hc with ⟨hend, hlast, -⟩ | ⟨hnext, -⟩
  · rw [read_of_end hend.ge, hlast, List.drop_length]
    rfl
  · rw [hnext.read_eq]
    rfl
termination_by c.chunks.length - k

/-- Behind the first chunks the cursor reads the ones that are left. -/
theorem read_taken (c : Chunker) (k : Nat) :
    c.read ((c.chunks.take k).flatMap Chunk.data).length = .ok (c.chunks.drop k) := by
  rw [take_data, List.length_take]
  by_cases hk : k < c.chunks.length
  · have hle : k * c.size ≤ c.payload.length := (lt_length_chunks_iff.1 hk).le
    rw [Nat.min_eq_left hle]
    exact Before.read_eq ⟨rfl, hk⟩
  · have hle : c.payload.length ≤ k * c.size := not_lt.1 (mt lt_length_chunks_iff.2 hk)
    rw [Nat.min_eq_right hle, List.drop_eq_nil_of_le (not_lt.1 hk)]
    exact read_of_end le_rfl

/-- All chunks but the last one are of full size, and the last one is not empty. -/
theorem length_data_getElem (hk : k < c.chunks.length) :
    (k + 1 < c.chunks.length → c.chunks[k].data.length = c.size) ∧
      0 < c.chunks[k].data.length ∧ c.chunks[k].data.length ≤ c.size := by
  have hin := lt_length_chunks_iff.1 hk
  have hsize := c.size_pos
  have hchunk := chunks_getElem? c k
  rw [if_pos hin, List.getElem?_eq_getElem hk, Option.some.injEq] at hchunk
  have hlen : c.chunks[k].data.length = min c.size (c.total - k * c.size) := by
    simp [hchunk, cut, total]
  rw [hlen, lt_length_chunks_iff, Nat.succ_mul]
  omega

theorem length_chunks_eq_ediv (c : Chunker) :
    (c.chunks.length : Int) = (c.total + c.size - 1) / c.size := by
  have hpos := c.size_pos
  rw [length_chunks, Int.natCast_div]
  congr 1
  omega

/-- The chunks from a cursor on are as many as it takes to cover the bytes from there on. -/
theorem Before.chunks_left (h : c.Before position k) :
    (c.total - position + c.size - 1) / c.size = (c.chunks.length : Int) - k := by
  have hpos : (c.size : Int) ≠ 0 := by exact_mod_cast c.size_pos.ne'
  have hshift : c.total - position + c.size - 1 =
      (c.total + c.size - 1 : Int) + -(k : Int) * c.size := by
    rw [h.position_eq]
    push_cast
    ring
  rw [hshift, Int.add_mul_ediv_right _ _ hpos, ← length_chunks_eq_ediv]
  ring

/-- Chunking is an exact partition. A payload that is not empty is cut into as many chunks as it
takes to cover it, which join to the payload; all are of full size but the last, which is not
empty, and the last one alone is final. At each position inside the payload there is the chunk of
the bytes that start there, and outside there is none; a cursor that stands behind some of the
chunks reads the rest of them. -/
theorem partition_exact (payload : List UInt8) (size : Int) (hp : payload ≠ []) (hs : 1 ≤ size) :
    ∃ c, ofPayload? payload size = .ok c ∧
      c.read 0 = .ok c.chunks ∧
      (c.chunks.length : Int) = (payload.length + size - 1) / size ∧
      c.chunks.flatMap Chunk.data = payload ∧
      (∀ k (hk : k < c.chunks.length),
        (k + 1 < c.chunks.length → (c.chunks[k].data.length : Int) = size) ∧
          1 ≤ c.chunks[k].data.length ∧ (c.chunks[k].data.length : Int) ≤ size ∧
          (c.chunks[k].final = true ↔ k + 1 = c.chunks.length)) ∧
      (∀ position : Int,
        (position < 0 ∨ payload.length ≤ position →
          c.chunkAt position = .error (.outside position payload.length)) ∧
        (0 ≤ position → position < payload.length →
          ∃ data, data ≠ [] ∧
            data = payload.extract position.toNat (min (position + size) payload.length).toNat ∧
            c.chunkAt position = .ok ⟨data, (payload.length : Int) ≤ position + size⟩)) ∧
      ∀ k, c.read ((c.chunks.take k).flatMap Chunk.data).length = .ok (c.chunks.drop k) := by
  obtain ⟨size, rfl⟩ := Int.eq_ofNat_of_zero_le (by omega : 0 ≤ size)
  have hpos : 0 < size := by omega
  let c : Chunker := ⟨payload, size, hpos, hp⟩
  refine ⟨c, ofPayload?_eq_ok hs hp, c.read_taken 0, c.length_chunks_eq_ediv, c.chunks_data, ?_, ?_,
    c.read_taken⟩
  · intro k hk
    obtain ⟨hfull, hone, hle⟩ := length_data_getElem hk
    exact ⟨fun hmore => congrArg Nat.cast (hfull hmore), hone, Int.ofNat_le.2 hle,
      final_getElem_iff hk⟩
  · intro position
    refine ⟨fun hout => chunkAt_eq_error (c := c) hout, fun hstart hend => ?_⟩
    have hc := chunkAt_eq_ok (c := c) hstart hend
    exact ⟨_, List.ne_nil_of_length_pos (data_length_pos hc), rfl, hc⟩

/-- Three bytes in pieces of two make a full chunk and a short one. -/
theorem partition_of_three : ([1, 2, 3] : List UInt8) ≠ [] ∧ (1 : Int) ≤ 2 ∧
    ∃ c, ofPayload? [1, 2, 3] 2 = .ok c ∧ (c.chunks.length : Int) = 2 ∧
      c.read 0 = .ok c.chunks := by
  obtain ⟨c, hc, hread, hlength, -⟩ := partition_exact [1, 2, 3] 2 (by decide) (by decide)
  exact ⟨by decide, by decide, c, hc, hlength, hread⟩

end Chunker

end BrokerTrial
