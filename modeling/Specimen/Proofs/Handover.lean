import Specimen.Output.Sink
import Specimen.Proofs.Results

/-!
# What a sink has taken in the end

However the pieces of a text are collected and however few bytes a call takes, what is handed over
comes in order and without a gap, and each byte that is taken is counted once
(`Collector.Has.write`). So a batch that is written is its text, with the right numbers
(`text_of_writeRecords`), and a sink that takes something at each call takes all of it
(`exists_writeRecords`).
-/

namespace Specimen

/-- A sink that takes some bytes at each call, without end. -/
structure Sink.IsEndless (sink : Sink) : Prop where
  perCall_ne : sink.perCall ≠ some 0
  room_eq : sink.room = none

theorem Sink.isEndless_unbounded : unbounded.IsEndless :=
  ⟨by simp [unbounded], rfl⟩

theorem Sink.accept_le {sink : Sink} {taken offered n : Nat}
    (h : sink.accept taken offered = .ok n) : n ≤ offered := by
  unfold accept at h
  split at h
  · simp only [Except.ok.injEq] at h
    omega
  · split at h
    · simp at h
    · simp only [Except.ok.injEq] at h
      omega

theorem Sink.IsEndless.exists_accept {sink : Sink} (h : sink.IsEndless) (taken : Nat)
    {offered : Nat} (hoffered : offered ≠ 0) : ∃ n, sink.accept taken offered = .ok n ∧ n ≠ 0 := by
  refine ⟨min offered (sink.perCall.getD offered), ?_, ?_⟩
  · rw [accept, h.room_eq]
  · have hperCall := h.perCall_ne
    cases hcall : sink.perCall with
    | none => simpa using hoffered
    | some n =>
      rw [hcall, ne_eq, Option.some.injEq] at hperCall
      rw [Option.getD_some]
      omega

namespace Counter

/-- What a counter is after its sink has taken some bytes. -/
structure Takes (c : Counter) (taken : ByteArray) (c' : Counter) : Prop where
  sink_eq : c'.sink = c.sink
  output_eq : c'.output = c.output ++ taken
  bytes_eq : c'.bytes = c.bytes + taken.size

theorem Takes.refl (c : Counter) : Takes c .empty c :=
  ⟨rfl, ByteArray.append_empty.symm, rfl⟩

theorem Takes.trans {c c' c'' : Counter} {a b : ByteArray} (h : Takes c a c')
    (h' : Takes c' b c'') : Takes c (a ++ b) c'' where
  sink_eq := h'.sink_eq.trans h.sink_eq
  output_eq := by rw [h'.output_eq, h.output_eq, ByteArray.append_assoc]
  bytes_eq := by
    rw [h'.bytes_eq, h.bytes_eq, ByteArray.size_append]
    omega

theorem takes_of_write {c c' : Counter} {offered : ByteArray} {n : Nat}
    (h : c.write offered = .ok (n, c')) :
    n ≤ offered.size ∧ Takes c (offered.extract 0 n) c' := by
  obtain ⟨k, haccept, h⟩ := bind_eq_ok_iff.mp h
  simp only [Except.ok.injEq, Prod.mk.injEq] at h
  obtain ⟨rfl, rfl⟩ := h
  have hle := Sink.accept_le haccept
  refine ⟨hle, rfl, rfl, ?_⟩
  have hsize : (offered.extract 0 k).size = k := by
    rw [ByteArray.size_extract]
    omega
  rw [hsize]

/-- Calls that go through to the end take all bytes. -/
theorem takes_of_writeAll {noneTaken : WriteError} {c c' : Counter} {offered : ByteArray}
    (h : c.writeAll noneTaken offered = .ok c') : Takes c offered c' := by
  fun_induction writeAll noneTaken c offered with
  | case1 c offered hempty =>
    rw [ByteArray.size_eq_zero_iff.mp hempty]
    obtain rfl : c = c' := Except.ok.inj h
    exact .refl c
  | case2 => simp at h
  | case3 => simp at h
  | case4 c offered _ n c₁ hwrite _ ih =>
    obtain ⟨hle, htakes⟩ := takes_of_write hwrite
    have htrans := htakes.trans (ih h)
    rwa [ByteArray.extract_append_extract, Nat.min_eq_left (Nat.zero_le n), Nat.max_eq_right hle,
      ByteArray.extract_zero_size] at htrans

theorem exists_write {c : Counter} (h : c.sink.IsEndless) {offered : ByteArray}
    (hoffered : offered.size ≠ 0) : ∃ n c', c.write offered = .ok (n, c') ∧ n ≠ 0 := by
  obtain ⟨n, haccept, hn⟩ := h.exists_accept c.output.size hoffered
  exact ⟨n, _, bind_eq_ok_iff.mpr ⟨n, haccept, rfl⟩, hn⟩

theorem exists_writeAll (noneTaken : WriteError) {c : Counter} (h : c.sink.IsEndless)
    (offered : ByteArray) : ∃ c', c.writeAll noneTaken offered = .ok c' := by
  fun_induction writeAll noneTaken c offered with
  | case1 c offered hempty => exact ⟨c, rfl⟩
  | case2 c offered hne e hwrite =>
    obtain ⟨n, c₁, hwrite', -⟩ := exists_write h hne
    rw [hwrite'] at hwrite
    cases hwrite
  | case3 c offered hne c₁ hwrite =>
    obtain ⟨n, c₂, hwrite', hn⟩ := exists_write h hne
    rw [hwrite'] at hwrite
    cases hwrite
    exact absurd rfl hn
  | case4 c offered _ n c₁ hwrite _ ih =>
    obtain ⟨-, htakes⟩ := takes_of_write hwrite
    exact ih (htakes.sink_eq ▸ h)

end Counter

namespace Collector

/-- What a collector holds between its pieces: all bytes so far have gone on or are collected, and
those that have gone on are counted. -/
structure Has (w : Collector) (sink : Sink) (bytes : ByteArray) : Prop where
  sink_eq : w.counter.sink = sink
  bytes_eq : w.counter.output ++ w.collected = bytes
  counted : w.counter.bytes = w.counter.output.size

variable {w w' : Collector} {sink : Sink} {bytes : ByteArray}

theorem Has.flush (hw : w.Has sink bytes) (h : w.flush = .ok w') :
    w'.Has sink bytes ∧ w'.collected = .empty := by
  obtain ⟨c, hall, h⟩ := bind_eq_ok_iff.mp h
  obtain rfl : (⟨.empty, c⟩ : Collector) = w' := Except.ok.inj h
  have htakes := Counter.takes_of_writeAll hall
  refine ⟨⟨htakes.sink_eq.trans hw.sink_eq, ?_, ?_⟩, rfl⟩
  · rw [htakes.output_eq, ByteArray.append_empty, hw.bytes_eq]
  · rw [htakes.bytes_eq, htakes.output_eq, ByteArray.size_append, hw.counted]

theorem Has.collect (hw : w.Has sink bytes) (piece : ByteArray) :
    ({ w with collected := w.collected ++ piece } : Collector).Has sink (bytes ++ piece) where
  sink_eq := hw.sink_eq
  bytes_eq := by rw [← hw.bytes_eq, ByteArray.append_assoc]
  counted := hw.counted

/-- A piece that goes on by itself comes after all that was collected. -/
theorem Has.pass (hw : w.Has sink bytes) (hcollected : w.collected = .empty) {piece : ByteArray}
    {c : Counter} (h : w.counter.writeAll .pieceNotTaken piece = .ok c) :
    ({ w with counter := c } : Collector).Has sink (bytes ++ piece) := by
  have htakes := Counter.takes_of_writeAll h
  refine ⟨htakes.sink_eq.trans hw.sink_eq, ?_, ?_⟩
  · rw [htakes.output_eq, ← hw.bytes_eq, hcollected, ByteArray.append_empty,
      ByteArray.append_empty]
  · rw [htakes.bytes_eq, htakes.output_eq, ByteArray.size_append, hw.counted]

theorem Has.makeRoom (hw : w.Has sink bytes) {piece : ByteArray}
    (h : w.makeRoom piece = .ok w') :
    w'.Has sink bytes ∧ (capacity ≤ piece.size → w'.collected = .empty) := by
  unfold Collector.makeRoom at h
  split at h
  · obtain ⟨hflushed, hempty⟩ := hw.flush h
    exact ⟨hflushed, fun _ => hempty⟩
  · obtain rfl : w = w' := Except.ok.inj h
    refine ⟨hw, fun hlarge => ByteArray.size_eq_zero_iff.mp ?_⟩
    have : capacity = 8192 := rfl
    omega

/-- A piece that is written comes after all bytes so far. -/
theorem Has.write (hw : w.Has sink bytes) {piece : ByteArray} (h : w.write piece = .ok w') :
    w'.Has sink (bytes ++ piece) := by
  unfold Collector.write at h
  split at h
  · obtain rfl := Except.ok.inj h
    exact hw.collect piece
  · obtain ⟨w₁, hroom, h⟩ := bind_eq_ok_iff.mp h
    obtain ⟨hw₁, hempty⟩ := hw.makeRoom hroom
    split at h
    · rename_i hlarge
      obtain ⟨c, hall, h⟩ := bind_eq_ok_iff.mp h
      obtain rfl := Except.ok.inj h
      exact hw₁.pass (hempty hlarge) hall
    · obtain rfl := Except.ok.inj h
      exact hw₁.collect piece

/-- Pieces that are written one after the other come in order. -/
theorem Has.foldlM (hw : w.Has sink bytes) {pieces : List String}
    (h : pieces.foldlM (fun w piece => w.write piece.toUTF8) w = .ok w') :
    w'.Has sink (bytes ++ (String.join pieces).toUTF8) := by
  induction pieces generalizing w bytes with
  | nil =>
    obtain rfl : w = w' := Except.ok.inj h
    simpa using hw
  | cons piece pieces ih =>
    rw [List.foldlM_cons] at h
    obtain ⟨w₁, hpiece, h⟩ := bind_eq_ok_iff.mp h
    have hrest := ih (hw.write hpiece) h
    rw [ByteArray.append_assoc] at hrest
    simpa using hrest

theorem exists_flush (h : w.counter.sink.IsEndless) : ∃ w', w.flush = .ok w' := by
  obtain ⟨c, hall⟩ := Counter.exists_writeAll .collectedNotTaken h w.collected
  exact ⟨_, bind_eq_ok_iff.mpr ⟨c, hall, rfl⟩⟩

theorem exists_makeRoom (h : w.counter.sink.IsEndless) (piece : ByteArray) :
    ∃ w', w.makeRoom piece = .ok w' := by
  unfold makeRoom
  split
  · exact exists_flush h
  · exact ⟨w, rfl⟩

theorem exists_write (hw : w.Has sink bytes) (h : sink.IsEndless) (piece : ByteArray) :
    ∃ w', w.write piece = .ok w' := by
  unfold Collector.write
  split
  · exact ⟨_, rfl⟩
  · obtain ⟨w₁, hroom⟩ := exists_makeRoom (hw.sink_eq ▸ h) piece
    obtain ⟨hw₁, -⟩ := hw.makeRoom hroom
    refine Exists.imp (fun w' h => bind_eq_ok_iff.mpr ⟨w₁, hroom, h⟩) ?_
    split
    · obtain ⟨c, hall⟩ := Counter.exists_writeAll .pieceNotTaken (hw₁.sink_eq ▸ h) piece
      exact ⟨_, bind_eq_ok_iff.mpr ⟨c, hall, rfl⟩⟩
    · exact ⟨_, rfl⟩

theorem exists_foldlM (hw : w.Has sink bytes) (h : sink.IsEndless) (pieces : List String) :
    ∃ w', pieces.foldlM (fun w piece => w.write piece.toUTF8) w = .ok w' := by
  induction pieces generalizing w bytes with
  | nil => exact ⟨w, rfl⟩
  | cons piece pieces ih =>
    obtain ⟨w₁, hpiece⟩ := exists_write hw h piece.toUTF8
    obtain ⟨w', hrest⟩ := ih (hw.write hpiece)
    rw [List.foldlM_cons]
    exact ⟨w', bind_eq_ok_iff.mpr ⟨w₁, hpiece, hrest⟩⟩

end Collector

/-! ## Batches -/

theorem OutputFormat.join_pieces (format : OutputFormat) (records : List Record) :
    String.join (format.pieces records) = format.render records := by
  have hsingle : ∀ cs : List Char, String.join (cs.map String.singleton) = String.ofList cs := by
    intro cs
    induction cs with
    | nil => rfl
    | cons c cs ih =>
      rw [List.map_cons, String.join_cons, ih]
      exact String.toList_inj.mp (by simp)
  cases format with
  | json => exact hsingle _
  | jsonl => exact hsingle _
  | yaml => simp [pieces]

/-- A batch that is written is its text, with the number of its records and of the bytes of it. -/
theorem written_of_writeRecords {records : List Record} {format : OutputFormat} {sink : Sink}
    {w : Written} (h : writeRecords records format sink = .ok w) :
    w = ⟨(format.render records).toUTF8, records.length, (format.render records).utf8ByteSize⟩ := by
  obtain ⟨w₁, hpieces, h⟩ := bind_eq_ok_iff.mp h
  obtain ⟨w₂, hflush, h⟩ := bind_eq_ok_iff.mp h
  obtain rfl := Except.ok.inj h
  have hstart : (⟨.empty, ⟨sink, .empty, 0⟩⟩ : Collector).Has sink .empty := ⟨rfl, rfl, rfl⟩
  obtain ⟨hhas, hempty⟩ := (hstart.foldlM hpieces).flush hflush
  have hbytes := hhas.bytes_eq
  rw [hempty, ByteArray.append_empty, ByteArray.empty_append, OutputFormat.join_pieces] at hbytes
  rw [hhas.counted, hbytes]
  rfl

theorem exists_writeRecords {sink : Sink} (h : sink.IsEndless) (records : List Record)
    (format : OutputFormat) : ∃ w, writeRecords records format sink = .ok w := by
  have hstart : (⟨.empty, ⟨sink, .empty, 0⟩⟩ : Collector).Has sink .empty := ⟨rfl, rfl, rfl⟩
  obtain ⟨w₁, hpieces⟩ := Collector.exists_foldlM hstart h (format.pieces records)
  have hsink := (hstart.foldlM hpieces).sink_eq
  obtain ⟨w₂, hflush⟩ := Collector.exists_flush (hsink ▸ h)
  exact ⟨_, bind_eq_ok_iff.mpr ⟨w₁, hpieces, bind_eq_ok_iff.mpr ⟨w₂, hflush, rfl⟩⟩⟩

theorem Written.text_eq (s : String) (records bytes : Nat) :
    (⟨s.toUTF8, records, bytes⟩ : Written).text = s := by
  have hread : String.fromUTF8? s.toUTF8 = some s := dif_pos s.isValidUTF8
  rw [text, hread, Option.getD_some]

end Specimen
