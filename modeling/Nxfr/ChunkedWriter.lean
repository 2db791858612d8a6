/-
`ChunkedWriter` (`nxfr-web/src/lib.rs`): what its calls leave on the stream, and
what a reader of the chunked coding makes of it.
-/
import Nxfr.Chunked
import Nxfr.Messages

namespace Nxfr.Web.ChunkedWriter

open Chunked (hexUpper decode decodeWith)

/-- What is on the stream after `write_chunk`; an empty write leaves nothing, as
a chunk of size zero would end the body. -/
def writeChunk (stream data : Bytes) : Bytes :=
  if data = [] then stream
  else
    let chunkHeader := hexUpper data.length ++ [0x0d, 0x0a]
    stream ++ chunkHeader ++ data ++ [0x0d, 0x0a]

def finish (stream : Bytes) : Bytes := stream ++ [0x30, 0x0d, 0x0a, 0x0d, 0x0a]

/-- The stream after writes, in order. -/
def writeChunks (writes : List Bytes) : Bytes := writes.foldl writeChunk []

/-- What one write adds. -/
def chunk (data : Bytes) : Bytes :=
  if data = [] then [] else hexUpper data.length ++ 0x0d :: 0x0a :: (data ++ [0x0d, 0x0a])

theorem writeChunk_eq (stream data : Bytes) : writeChunk stream data = stream ++ chunk data := by
  unfold writeChunk chunk
  split <;> simp

theorem writeChunks_eq (writes : List Bytes) : writeChunks writes = writes.flatMap chunk := by
  have hfrom : ∀ stream, writes.foldl writeChunk stream = stream ++ writes.flatMap chunk := by
    induction writes with
    | nil => simp
    | cons data writes ih =>
      intro stream
      rw [List.foldl_cons, ih, writeChunk_eq, List.flatMap_cons, List.append_assoc]
  exact hfrom []

theorem chunk_length {data : Bytes} (h : data ≠ []) : 0 < (chunk data).length := by
  rw [chunk, if_neg h, List.length_append, List.length_cons]
  omega

/-- A reader takes the chunks one after another. -/
theorem decodeWith_chunks (writes : List Bytes) (rest : Bytes) {fuel : Nat}
    (hfuel : (writes.flatMap chunk).length < fuel) :
    decodeWith fuel (writes.flatMap chunk ++ ([0x30, 0x0d, 0x0a, 0x0d, 0x0a] ++ rest)) = some (writes.flatten, rest) := by
  induction writes generalizing fuel with
  | nil =>
    obtain ⟨k, rfl⟩ : ∃ k, fuel = k + 1 := ⟨fuel - 1, by omega⟩
    exact Chunked.decodeWith_last
  | cons data writes ih =>
    rw [List.flatMap_cons, List.length_append] at hfuel
    rw [List.flatMap_cons, List.flatten_cons, List.append_assoc]
    by_cases hdata : data = []
    · subst hdata
      simp only [chunk, if_true, List.length_nil, Nat.zero_add] at hfuel
      simpa [chunk] using ih hfuel
    · have hpos := chunk_length hdata
      obtain ⟨k, rfl⟩ : ∃ k, fuel = k + 1 := ⟨fuel - 1, by omega⟩
      have hsplit : chunk data ++ (writes.flatMap chunk ++ ([0x30, 0x0d, 0x0a, 0x0d, 0x0a] ++ rest)) =
          hexUpper data.length ++ 0x0d :: 0x0a ::
            (data ++ 0x0d :: 0x0a :: (writes.flatMap chunk ++ ([0x30, 0x0d, 0x0a, 0x0d, 0x0a] ++ rest))) := by
        simp [chunk, hdata]
      have hk : (writes.flatMap chunk).length < k := by omega
      rw [hsplit, Chunked.decodeWith_chunk hdata, ih hk]
      rfl

theorem decode_finish (writes : List Bytes) (rest : Bytes) :
    decode (finish (writeChunks writes) ++ rest) = some (writes.flatten, rest) := by
  rw [finish, writeChunks_eq, List.append_assoc]
  refine decodeWith_chunks writes rest ?_
  rw [List.length_append, List.length_append, List.length_cons]
  omega

/-- No write ends the body. -/
theorem writeChunks_open (writes : List Bytes) : decode (writeChunks writes) = none := by
  have hall := decode_finish writes []
  rw [List.append_nil] at hall
  exact Chunked.decode_proper_prefix hall (by simp)

/-- **A chunked body is what was written.** After any writes and `finish`, with
anything behind it, a reader has the data of the writes, in order, and stops at
the last byte; and it is not at the end of the body anywhere before that. -/
theorem chunked_round_trip (writes : List Bytes) :
    (∀ rest, decode (finish (writeChunks writes) ++ rest) = some (writes.flatten, rest)) ∧
      ∀ part more, finish (writeChunks writes) = part ++ more → more ≠ [] → decode part = none := by
  refine ⟨decode_finish writes, ?_⟩
  intro part more hsplit hmore
  have hall := decode_finish writes []
  rw [List.append_nil, hsplit] at hall
  exact Chunked.decode_proper_prefix hall hmore

/-- The chunks of the test. -/
example : finish (writeChunks ["Hello".toUTF8.data.toList, " World!".toUTF8.data.toList]) =
    "5\r\nHello\r\n7\r\n World!\r\n0\r\n\r\n".toUTF8.data.toList := by decide +kernel

end Nxfr.Web.ChunkedWriter
