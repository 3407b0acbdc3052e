import BrokerTrial.Chunk
import Mathlib.Tactic

/-! The chunks of a payload by number. Chunk `k` starts at `k * size` (`chunks_getElem?`), so a
cursor that stands in front of a chunk reads that chunk and comes to stand in front of the next one,
or at the end behind the last one (`Before.next`). Only the last chunk is final. -/

namespace BrokerTrial.Chunker

theorem chunksOf_getElem? {size : Nat} (h : 0 < size) (left : List UInt8) (k : Nat) :
    (chunksOf size h left)[k]? =
      if k * size < left.length then some (cut size (left.drop (k * size))) else none := by
  induction k generalizing left with
  | zero =>
    rw [chunksOf]
    by_cases hl : left = []
    · simp [hl]
    · have hpos : 0 < left.length := List.length_pos_iff.2 hl
      simp [hl, hpos]
  | succ k ih =>
    rw [chunksOf]
    by_cases hl : left = []
    · simp [hl]
    · rw [if_neg hl, List.getElem?_cons_succ, ih, List.length_drop, List.drop_drop]
      have hiff : k * size < left.length - size ↔ (k + 1) * size < left.length := by
        rw [Nat.succ_mul]
        omega
      have hat : size + k * size = (k + 1) * size := by
        rw [Nat.succ_mul]
        omega
      simp only [hiff, hat]

variable {c : Chunker} {k : Nat} {chunk : Chunk}

theorem chunks_getElem? (c : Chunker) (k : Nat) :
    c.chunks[k]? =
      if k * c.size < c.total then some (cut c.size (c.payload.drop (k * c.size))) else none :=
  chunksOf_getElem? c.size_pos c.payload k

theorem lt_length_chunks_iff : k < c.chunks.length ↔ k * c.size < c.total := by
  have hsome : k < c.chunks.length ↔ c.chunks[k]?.isSome := by simp
  rw [hsome, chunks_getElem?]
  split_ifs with h <;> simp [h]

theorem length_chunks (c : Chunker) : c.chunks.length = (c.total + c.size - 1) / c.size := by
  have hpos := c.size_pos
  refine eq_of_forall_lt_iff fun k => ?_
  rw [lt_length_chunks_iff, ← Nat.succ_le_iff (m := k), Nat.le_div_iff_mul_le hpos, Nat.succ_mul]
  omega

theorem length_chunks_pos (c : Chunker) : 0 < c.chunks.length := by
  rw [lt_length_chunks_iff, Nat.zero_mul]
  exact List.length_pos_iff.2 c.payload_ne_nil

theorem chunksOf_data {size : Nat} (h : 0 < size) (left : List UInt8) :
    (chunksOf size h left).flatMap Chunk.data = left := by
  induction left using chunksOf.induct size h with
  | case1 => simp [chunksOf]
  | case2 left hl ih =>
    rw [chunksOf, if_neg hl, List.flatMap_cons, ih, cut, List.take_append_drop]

theorem chunks_data (c : Chunker) : c.chunks.flatMap Chunk.data = c.payload :=
  chunksOf_data c.size_pos c.payload

theorem chunksOf_take_data {size : Nat} (h : 0 < size) (left : List UInt8) (k : Nat) :
    ((chunksOf size h left).take k).flatMap Chunk.data = left.take (k * size) := by
  induction k generalizing left with
  | zero => simp
  | succ k ih =>
    rw [chunksOf]
    by_cases hl : left = []
    · simp [hl]
    · rw [if_neg hl, List.take_succ_cons, List.flatMap_cons, ih, cut, Nat.succ_mul, Nat.add_comm,
        List.take_add]

/-- The first chunks join to the beginning of the payload that they cover. -/
theorem take_data (c : Chunker) (k : Nat) :
    (c.chunks.take k).flatMap Chunk.data = c.payload.take (k * c.size) :=
  chunksOf_take_data c.size_pos c.payload k

theorem chunksOf_countP_final {size : Nat} (h : 0 < size) (left : List UInt8) :
    (chunksOf size h left).countP Chunk.final = if left = [] then 0 else 1 := by
  induction left using chunksOf.induct size h with
  | case1 => simp [chunksOf]
  | case2 left hl ih =>
    rw [chunksOf, if_neg hl, if_neg hl, List.countP_cons, ih]
    by_cases hrest : left.drop size = [] <;> simp [cut, hrest]

theorem chunks_countP_final (c : Chunker) : c.chunks.countP Chunk.final = 1 := by
  rw [chunks, chunksOf_countP_final, if_neg c.payload_ne_nil]

theorem exists_final (c : Chunker) : ∃ chunk ∈ c.chunks, chunk.final = true := by
  have hone := c.chunks_countP_final
  exact List.countP_pos_iff.1 (by omega)

/-- A cursor at `position` stands in front of chunk `k`. -/
structure Before (c : Chunker) (position : Int) (k : Nat) : Prop where
  position_eq : position = (k * c.size : Nat)
  lt_length : k < c.chunks.length

namespace Before

variable {position : Int}

theorem start (c : Chunker) : c.Before 0 0 := ⟨by simp, c.length_chunks_pos⟩

theorem nonneg (h : c.Before position k) : 0 ≤ position := by
  rw [h.position_eq]
  exact Int.natCast_nonneg _

theorem lt_total (h : c.Before position k) : position < c.total := by
  rw [h.position_eq]
  exact_mod_cast lt_length_chunks_iff.1 h.lt_length

theorem number_eq (h : c.Before position k) : position.toNat / c.size = k := by
  rw [h.position_eq, Int.toNat_natCast, Nat.mul_div_cancel _ c.size_pos]

theorem chunkAt_eq_cut (h : c.Before position k) :
    c.chunkAt position = .ok (cut c.size (c.payload.drop (k * c.size))) := by
  rw [chunkAt, if_pos ⟨h.nonneg, h.lt_total⟩, h.position_eq, Int.toNat_natCast]

/-- The cursor reads the chunk that it stands in front of. -/
theorem chunkAt_eq_ok_iff (h : c.Before position k) :
    c.chunkAt position = .ok chunk ↔ c.chunks[k]? = some chunk := by
  rw [h.chunkAt_eq_cut, chunks_getElem?, if_pos (lt_length_chunks_iff.1 h.lt_length),
    Except.ok.injEq, Option.some.injEq]

theorem take_succ (h : c.Before position k) (hc : c.chunkAt position = .ok chunk) :
    c.chunks.take (k + 1) = c.chunks.take k ++ [chunk] := by
  rw [List.take_add_one, h.chunkAt_eq_ok_iff.1 hc, Option.toList_some]

/-- Behind the chunk that is read lies the end of the payload, or the next chunk. -/
theorem next (h : c.Before position k) (hc : c.chunkAt position = .ok chunk) :
    position + chunk.data.length = c.total ∧ k + 1 = c.chunks.length ∧ chunk.final = true ∨
      c.Before (position + chunk.data.length) (k + 1) ∧ chunk.final = false := by
  have hread : chunk = cut c.size (c.payload.drop (k * c.size)) :=
    Except.ok.inj (hc.symm.trans h.chunkAt_eq_cut)
  have hlen : chunk.data.length = min c.size (c.total - k * c.size) := by
    simp [hread, cut, total]
  have hfinal : chunk.final = true ↔ c.total ≤ (k + 1) * c.size := by
    rw [hread, cut, List.isEmpty_iff, List.drop_drop, List.drop_eq_nil_iff, Nat.succ_mul]
    rfl
  have hin := lt_length_chunks_iff.1 h.lt_length
  have hmore : k + 1 < c.chunks.length ↔ (k + 1) * c.size < c.total := lt_length_chunks_iff
  have hnext : (k + 1) * c.size = k * c.size + c.size := Nat.succ_mul k c.size
  have hlt := h.lt_length
  rw [h.position_eq, hlen]
  by_cases hlast : c.total ≤ (k + 1) * c.size
  · refine .inl ⟨?_, ?_, hfinal.2 hlast⟩
    · omega
    · omega
  · refine .inr ⟨⟨?_, ?_⟩, Bool.eq_false_iff.2 (mt hfinal.1 hlast)⟩
    · omega
    · omega

end Before

theorem final_getElem_iff (hk : k < c.chunks.length) :
    c.chunks[k].final = true ↔ k + 1 = c.chunks.length := by
  have hbefore : c.Before (k * c.size : Nat) k := ⟨rfl, hk⟩
  rcases hbefore.next (hbefore.chunkAt_eq_ok_iff.2 (List.getElem?_eq_getElem hk)) with
    ⟨-, hlast, hfinal⟩ | ⟨hmore, hfinal⟩
  · simp [hlast, hfinal]
  · have hlt := hmore.lt_length
    rw [hfinal]
    exact ⟨nofun, by omega⟩

/-- A beginning of the chunks that has the final one is all of them. -/
theorem eq_chunks_of_final {front : List Chunk} (h : front <+: c.chunks)
    (hf : ∃ chunk ∈ front, chunk.final = true) : front = c.chunks := by
  obtain ⟨chunk, hmem, hfinal⟩ := hf
  obtain ⟨i, hi, rfl⟩ := List.getElem_of_mem hmem
  rw [h.getElem hi, final_getElem_iff] at hfinal
  exact h.eq_of_length_le (by omega)

end BrokerTrial.Chunker
