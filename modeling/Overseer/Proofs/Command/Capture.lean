import Mathlib.Data.List.Basic
import Overseer.Command.Capture

/-! # A capture does not show how its stream came

The invariant compares a capture with all of the stream that has come so far (`Shows`): its front is kept, up to the
limit, and the rest is counted. A chunk keeps it wherever the limit falls, and so every way of cutting a stream into
chunks leads to the same capture.

The loop that reads a stream (`readAll`) knows nothing of captures. It has two modes, one in which a chunk is cut at the
limit and one in which it is only counted, and it ends at the first read that brings nothing. As long as the chunks are
not empty, it does what taking them in one after the other does (`readAll_delivered`).
-/

namespace Overseer.Command.Capture

variable {limit : Nat} {c : Capture} {stream taken : List UInt8} {chunks : List (List UInt8)}

/-! ## Reading to the end -/

/-- Reads until nothing comes. `kept` are the bytes kept so far and `dropped` counts those that are not kept. -/
def readAll (limit : Nat) (kept : List UInt8) (dropped : Nat) : List (List UInt8) → List UInt8 × Nat
  | [] => (kept, dropped)
  | chunk :: reads =>
      if chunk.length = 0 then (kept, dropped)
      else
        let remaining := limit - kept.length
        if 0 < remaining then
          let keep := min chunk.length remaining
          readAll limit (kept ++ chunk.take keep) (dropped + (chunk.length - keep)) reads
        else readAll limit kept (dropped + chunk.length) reads

/-- The reads by which a stream comes in chunks: each of them brings one, then one brings nothing, and what further ones
would bring is nobody's business. -/
def Delivers (chunks : List (List UInt8)) (reads : List (List UInt8)) : Prop :=
  ∃ later, reads = chunks ++ [] :: later

/-- What is captured by reading to the end. -/
def ofReads (limit : Nat) (reads : List (List UInt8)) : Capture :=
  let (kept, dropped) := readAll limit [] 0 reads
  ⟨limit, kept, dropped⟩

theorem readAll_cons (c : Capture) {chunk : List UInt8} (hchunk : chunk ≠ []) (reads : List (List UInt8)) :
    readAll c.limit c.kept c.dropped (chunk :: reads) =
      readAll c.limit (c.add chunk).kept (c.add chunk).dropped reads := by
  have hlength : ¬ chunk.length = 0 := fun h => hchunk (List.length_eq_zero_iff.mp h)
  rw [readAll, if_neg hlength]
  dsimp only
  by_cases hroom : 0 < c.limit - c.kept.length
  · rw [if_pos hroom]
    have htake : chunk.take (min chunk.length (c.limit - c.kept.length)) = chunk.take c.room := by
      rw [Nat.min_comm, ← List.take_take, List.take_length]
      rfl
    have hcount : chunk.length - min chunk.length (c.limit - c.kept.length) = chunk.length - c.room := by
      rw [room]
      omega
    rw [htake, hcount]
    rfl
  · rw [if_neg hroom]
    have hfull : c.room = 0 := Nat.le_zero.mp (Nat.le_of_not_lt hroom)
    have hkept : (c.add chunk).kept = c.kept := by rw [add, hfull, List.take_zero, List.append_nil]
    have hdropped : (c.add chunk).dropped = c.dropped + chunk.length := by rw [add, hfull, Nat.sub_zero]
    rw [hkept, hdropped]

theorem readAll_delivered {reads : List (List UInt8)} (hreads : Delivers chunks reads)
    (hne : ∀ chunk ∈ chunks, chunk ≠ []) (c : Capture) :
    readAll c.limit c.kept c.dropped reads = ((chunks.foldl add c).kept, (chunks.foldl add c).dropped) := by
  obtain ⟨later, rfl⟩ := hreads
  induction chunks generalizing c with
  | nil => rfl
  | cons chunk chunks ih =>
    rw [List.cons_append, readAll_cons c (hne chunk List.mem_cons_self), List.foldl_cons]
    exact ih (fun other hmem => hne other (List.mem_cons_of_mem _ hmem)) (c.add chunk)

/-! ## What a capture shows -/

/-- The front of what has come is kept, and the rest is counted. -/
structure Shows (limit : Nat) (c : Capture) (taken : List UInt8) : Prop where
  bound : c.limit = limit
  kept : c.kept = taken.take limit
  dropped : c.dropped = taken.length - limit

theorem shows_new (limit : Nat) : Shows limit (new limit) [] where
  bound := rfl
  kept := List.take_nil.symm
  dropped := (Nat.zero_sub limit).symm

theorem Shows.add (h : Shows limit c taken) (chunk : List UInt8) : Shows limit (c.add chunk) (taken ++ chunk) := by
  have hroom : c.room = limit - taken.length := by
    rw [room, h.bound, h.kept, List.length_take]
    omega
  refine ⟨h.bound, ?_, ?_⟩
  · change c.kept ++ chunk.take c.room = (taken ++ chunk).take limit
    rw [List.take_append, hroom, h.kept]
  · change c.dropped + (chunk.length - c.room) = (taken ++ chunk).length - limit
    rw [h.dropped, hroom, List.length_append]
    omega

theorem Shows.foldl_add (h : Shows limit c taken) (chunks : List (List UInt8)) :
    Shows limit (chunks.foldl Capture.add c) (taken ++ chunks.flatten) := by
  induction chunks generalizing c taken with
  | nil =>
    rw [List.flatten_nil, List.append_nil]
    exact h
  | cons chunk chunks ih =>
    rw [List.foldl_cons, List.flatten_cons, ← List.append_assoc]
    exact ih (h.add chunk)

theorem shows_ofChunks (limit : Nat) (chunks : List (List UInt8)) :
    Shows limit (ofChunks limit chunks) chunks.flatten :=
  (shows_new limit).foldl_add chunks

/-- The stream settles all that is in a capture. -/
theorem Shows.eq (h : Shows limit c taken) : c = ⟨limit, taken.take limit, taken.length - limit⟩ := by
  rw [← h.kept, ← h.dropped, ← h.bound]

theorem Shows.note (h : Shows limit c taken) (name : String) :
    c.note name = if limit < taken.length then
      "\n[" ++ name ++ " truncated " ++ toString (taken.length - limit) ++ " bytes]\n" else "" := by
  unfold Capture.note
  rw [h.dropped]
  by_cases hlong : limit < taken.length
  · rw [if_pos hlong, if_neg (Nat.sub_ne_zero_of_lt hlong)]
  · rw [if_neg hlong, if_pos (Nat.sub_eq_zero_of_le (Nat.le_of_not_lt hlong))]

theorem shows_ofReads {reads : List (List UInt8)} (hreads : Delivers chunks reads)
    (hne : ∀ chunk ∈ chunks, chunk ≠ []) (limit : Nat) : Shows limit (ofReads limit reads) chunks.flatten := by
  have hshows := shows_ofChunks limit chunks
  have hread : readAll limit [] 0 reads = ((ofChunks limit chunks).kept, (ofChunks limit chunks).dropped) :=
    readAll_delivered hreads hne (new limit)
  unfold ofReads
  rw [hread]
  exact ⟨rfl, hshows.kept, hshows.dropped⟩

/-- However a stream comes, in chunks of any sizes, of all its bytes the first ones are kept, as many as the limit allows,
and the others are counted. The text tells of bytes that are missing if and only if the stream is longer than the
limit. -/
theorem ofReads_of_stream {reads : List (List UInt8)} (hreads : Delivers chunks reads)
    (hne : ∀ chunk ∈ chunks, chunk ≠ []) (hstream : chunks.flatten = stream) (limit : Nat) :
    (ofReads limit reads).kept = stream.take (min limit stream.length) ∧
    (ofReads limit reads).dropped = stream.length - min limit stream.length ∧
    ofReads limit reads = ofChunks limit chunks ∧
    (∀ others reads', Delivers others reads' → (∀ chunk ∈ others, chunk ≠ []) → others.flatten = stream →
      ofReads limit reads' = ofReads limit reads) ∧
    ∀ name, (ofReads limit reads).text name = String.ofList (Text.lossy (stream.take limit)) ++
      if limit < stream.length then
        "\n[" ++ name ++ " truncated " ++ toString (stream.length - limit) ++ " bytes]\n" else "" := by
  subst hstream
  have hshows := shows_ofReads hreads hne limit
  refine ⟨?_, ?_, hshows.eq.trans (shows_ofChunks limit chunks).eq.symm, ?_, ?_⟩
  · rw [hshows.kept, ← List.take_take, List.take_length]
  · rw [hshows.dropped]
    omega
  · intro others reads' hreads' hne' hsame
    have hshows' := shows_ofReads hreads' hne' limit
    rw [hsame] at hshows'
    exact hshows'.eq.trans hshows.eq.symm
  · intro name
    rw [Capture.text, hshows.kept, hshows.note]

/-- Five bytes come in three chunks, and the limit lies inside the second one. -/
theorem ofReads_of_stream_cut : Delivers [[97, 98], [99, 100], [101]] [[97, 98], [99, 100], [101], []] ∧
    (∀ chunk ∈ [[97, 98], [99, 100], [(101 : UInt8)]], chunk ≠ []) ∧
    (ofReads 3 [[97, 98], [99, 100], [101], []]).kept = [97, 98, 99] ∧
    (ofReads 3 [[97, 98], [99, 100], [101], []]).dropped = 2 := by
  have hreads : Delivers [[97, 98], [99, 100], [101]] [[97, 98], [99, 100], [101], []] := ⟨[], rfl⟩
  have hne : ∀ chunk ∈ [[97, 98], [99, 100], [(101 : UInt8)]], chunk ≠ [] := by decide
  obtain ⟨hkept, hdropped, -⟩ := ofReads_of_stream hreads hne rfl 3
  exact ⟨hreads, hne, hkept, hdropped⟩

end Overseer.Command.Capture
