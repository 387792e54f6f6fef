import Specimen.Output.Format

/-!
# Where records are written to

A sink takes bytes, some at each call, as long as it has room. The text of a batch is handed over in
pieces; small pieces are collected first, and what is collected goes on in one go. On its way to
the sink every byte that is taken is counted.
-/

namespace Specimen

/-- What limits the bytes that a sink takes. -/
structure Sink where
  /-- How many bytes it takes at one call at most, if there is a bound. -/
  perCall : Option Nat
  /-- How many bytes it takes in all, if there is a bound. -/
  room : Option Nat
  deriving DecidableEq, Repr

/-- Why a batch is not written. -/
inductive WriteError where
  /-- A call comes when there is no more room. -/
  | diskFull
  /-- A call takes nothing of the bytes collected so far. -/
  | collectedNotTaken
  /-- A call takes nothing of a large piece that is handed over by itself. -/
  | pieceNotTaken
  deriving DecidableEq, Repr

namespace WriteError

def message : WriteError → String
  | diskFull => "disk full"
  | collectedNotTaken => "failed to write the buffered data"
  | pieceNotTaken => "failed to write whole buffer"

end WriteError

namespace Sink

/-- A sink that takes everything. -/
def unbounded : Sink :=
  ⟨none, none⟩

/-- How many bytes a call takes of those that are offered, when some are taken already. -/
def accept (sink : Sink) (taken offered : Nat) : Except WriteError Nat :=
  match sink.room with
  | none => .ok (min offered (sink.perCall.getD offered))
  | some room =>
    if room ≤ taken then .error .diskFull
    else .ok (min (min offered (sink.perCall.getD offered)) (room - taken))

end Sink

/-- A sink in use, with a counter of the bytes that it takes. -/
structure Counter where
  sink : Sink
  /-- What the sink has taken so far. -/
  output : ByteArray
  bytes : Nat

namespace Counter

/-- One call: how many of the bytes are taken. -/
def write (c : Counter) (offered : ByteArray) : Except WriteError (Nat × Counter) := do
  let n ← c.sink.accept c.output.size offered.size
  .ok (n, { c with output := c.output ++ offered.extract 0 n, bytes := c.bytes + n })

/-- Calls until all bytes are taken, or a call takes none of them. -/
def writeAll (noneTaken : WriteError) (c : Counter) (offered : ByteArray) :
    Except WriteError Counter :=
  if offered.size = 0 then .ok c
  else
    match c.write offered with
    | .error e => .error e
    | .ok (n, c) =>
      if n = 0 then .error noneTaken
      else writeAll noneTaken c (offered.extract n offered.size)
termination_by offered.size
decreasing_by
  rw [ByteArray.size_extract]
  omega

end Counter

/-- Bytes that are collected before they go on to a sink. -/
structure Collector where
  collected : ByteArray
  counter : Counter

namespace Collector

/-- How many bytes are collected at most. -/
def capacity : Nat := 8192

/-- Hands over what is collected. -/
def flush (w : Collector) : Except WriteError Collector := do
  let counter ← w.counter.writeAll .collectedNotTaken w.collected
  .ok ⟨.empty, counter⟩

/-- Hands over what is collected if a piece does not fit to it. -/
def makeRoom (w : Collector) (piece : ByteArray) : Except WriteError Collector :=
  if capacity - w.collected.size < piece.size then w.flush else .ok w

/-- Collects a piece where there is room for it; a large piece goes on by itself. -/
def write (w : Collector) (piece : ByteArray) : Except WriteError Collector :=
  if piece.size < capacity - w.collected.size then
    .ok { w with collected := w.collected ++ piece }
  else do
    let w ← w.makeRoom piece
    if capacity ≤ piece.size then
      let counter ← w.counter.writeAll .pieceNotTaken piece
      .ok { w with counter }
    else .ok { w with collected := w.collected ++ piece }

end Collector

/-- The pieces in which a batch is handed over. A YAML text comes as a whole, and a JSON text in
pieces that begin with a single character. How they are cut after it makes no difference. -/
def OutputFormat.pieces (format : OutputFormat) (records : List Record) : List String :=
  match format with
  | .yaml => [format.render records]
  | .json | .jsonl => (format.characters records).map String.singleton

/-- What is known of a batch that is written. -/
structure Written where
  /-- What the sink has taken. -/
  output : ByteArray
  /-- The number of records. -/
  records : Nat
  /-- The number of bytes. -/
  bytes : Nat

/-- The text that is written. -/
def Written.text (w : Written) : String :=
  (String.fromUTF8? w.output).getD ""

/-- Writes records to a sink. -/
def writeRecords (records : List Record) (format : OutputFormat) (sink : Sink) :
    Except WriteError Written := do
  let w ← (format.pieces records).foldlM (fun w piece => w.write piece.toUTF8)
    (⟨.empty, ⟨sink, .empty, 0⟩⟩ : Collector)
  let w ← w.flush
  .ok ⟨w.counter.output, records.length, w.counter.bytes⟩

end Specimen
