import Vitamine.Lib.System
import Vitamine.Proxyd.Framing

/-!
# Feeding received bytes to the frame decoder (`proxyd/packetreader.hpp`)

`onBytesReceived` appends the received bytes to `_readBuffer` and decodes frames from the start of
the buffer, but it hands the decoder the size of the *received* bytes, not that of the buffer.

A connection's feed is a system whose labels are the received chunks (`feeding`). The stream it
has received so far has one parse (`frameDecoder.parse`); `Feed.Agrees` says that the calls made
and the bytes retained are those of this parse. `agrees_next_iff` is one chunk: a feed that agrees
goes on to agree exactly if the chunk is one that `Feed.InStep` describes, and with
`along_iff_steps` this gives the runs.
-/

namespace Vitamine

open Wire

structure PacketReader where
  readBuffer : Buffer

/-- The calls of a `PacketReader`. -/
inductive ReaderCall where
  | onPacket (frame : PacketFrame)
  | onError
  deriving DecidableEq

/-- How the `for(;;)` ends: the frames it handed over, the status it stopped on, and the cursor. -/
structure LoopExit where
  frames : List PacketFrame
  status : DeserializeError
  cursor : Cursor Byte

/-- The `for(;;)` of `onBytesReceived`. -/
def readLoop (c : Cursor Byte) : LoopExit :=
  match _h : deserializePacketFrame c with
  | .ok frame c' =>
    let rest := readLoop c'
    { rest with frames := frame :: rest.frames }
  | .error status c' => { frames := [], status, cursor := c' }
termination_by c.size
decreasing_by exact consumes_frame _ _ _ _h

/-- The reader after a chunk, and the calls it made, in order. -/
def PacketReader.onBytesReceived (r : PacketReader) (data : Bytes) :
    PacketReader × List ReaderCall :=
  let readBuffer := r.readBuffer ++ data
  -- `UInt size = data.size()`: the cursor starts at the buffer and ends `data.size()` after it.
  let rest := readLoop ⟨readBuffer, data.length, by simp [readBuffer]⟩
  match rest.status with
  | .errorDataIncomplete =>
    (⟨readBuffer.drop (readBuffer.length - rest.cursor.size)⟩, rest.frames.map .onPacket)
  | .errorDataInvalid => (⟨readBuffer⟩, rest.frames.map .onPacket ++ [.onError])
  -- An exception would leave the call here; the frame decoder throws none.
  | .runtimeError => (⟨readBuffer⟩, rest.frames.map .onPacket)

/-- The frames handed over, in order. -/
def framesOf (calls : List ReaderCall) : List PacketFrame :=
  calls.filterMap fun
    | .onPacket frame => some frame
    | .onError => none

/-- A reader, the calls it has made, and what it has been given so far. -/
structure Feed where
  reader : PacketReader
  calls : List ReaderCall
  received : Bytes

def Feed.fresh : Feed := ⟨⟨[]⟩, [], []⟩

def Feed.next (f : Feed) (data : Bytes) : Feed :=
  let r := f.reader.onBytesReceived data
  ⟨r.1, f.calls ++ r.2, f.received ++ data⟩

/-- The runs of a reader: any chunks, in any number. -/
def feeding : System Feed Bytes where
  enabled _ _ := True
  next := Feed.next

/-- The calls are those of the parse of everything received: its frames in order, `_onError` if it
is rejected; and while it is not, the buffer is what the parse leaves. -/
def Feed.Agrees (f : Feed) : Prop :=
  framesOf f.calls = (frameDecoder.parse f.received).items ∧
  (.onError ∈ f.calls ↔ (frameDecoder.parse f.received).invalid = true) ∧
  ((frameDecoder.parse f.received).invalid = false →
    f.reader.readBuffer = (frameDecoder.parse f.received).rest)

/-- The bytes of the buffer that the loop looks at when `data` comes: `data.size()` of them. -/
def Feed.window (f : Feed) (data : Bytes) : Bytes := (f.reader.readBuffer ++ data).take data.length

/-- The chunks that a reader takes in step with the stream. Before an error: nothing is carried
over, or the window alone is already rejected. After one: the window starts with no frame. -/
def Feed.InStep (f : Feed) (data : Bytes) : Prop :=
  if .onError ∈ f.calls then ∀ frame n, frameDecoder.next (f.window data) ≠ .item frame n
  else f.reader.readBuffer = [] ∨ (frameDecoder.parse (f.window data)).invalid = true

/-! ## The loop is the parse of its view -/

theorem readLoop_of_ok {c c' : Cursor Byte} {frame : PacketFrame}
    (h : deserializePacketFrame c = .ok frame c') :
    readLoop c = { readLoop c' with frames := frame :: (readLoop c').frames } := by
  rw [readLoop]
  split <;> rename_i h' <;> rw [h] at h'
  · obtain ⟨rfl, rfl⟩ := EStateM.Result.ok.inj h'; rfl
  · cases h'

theorem readLoop_of_error {c c' : Cursor Byte} {e : DeserializeError}
    (h : deserializePacketFrame c = .error e c') : readLoop c = ⟨[], e, c'⟩ := by
  rw [readLoop]
  split <;> rename_i h' <;> rw [h] at h'
  · cases h'
  · obtain ⟨rfl, rfl⟩ := EStateM.Result.error.inj h'; rfl

/-- The loop hands over the items of the parse, stops on `errorDataInvalid` exactly if the parse is
rejected, and its cursor is at the rest. -/
theorem readLoop_eq (c : Cursor Byte) :
    (readLoop c).frames = (frameDecoder.parse c.view).items ∧
    (readLoop c).status = (if (frameDecoder.parse c.view).invalid then .errorDataInvalid
      else .errorDataIncomplete) ∧
    (readLoop c).cursor.view = (frameDecoder.parse c.view).rest := by
  induction hs : c.view using Decoder.parse_induction (D := frameDecoder) generalizing c with
  | item s frame n h ih =>
    subst hs
    have hc := frame_of_view c
    rw [h] at hc
    obtain ⟨h1, h2, h3⟩ := ih (c.advance n) (Cursor.view_advance c n)
    rw [readLoop_of_ok hc, Decoder.parse_of_item h]
    exact ⟨by simp only [h1], h2, h3⟩
  | incomplete s h =>
    subst hs
    have hc := frame_of_view c
    rw [h] at hc
    rw [readLoop_of_error hc, Decoder.parse_of_incomplete h]
    exact ⟨rfl, rfl, rfl⟩
  | invalid s h =>
    subst hs
    have hc := frame_of_view c
    rw [h] at hc
    rw [readLoop_of_error hc, Decoder.parse_of_invalid h]
    exact ⟨rfl, rfl, rfl⟩

/-- One chunk, in terms of the parse `p` of the window. -/
theorem onBytesReceived_eq (r : PacketReader) (data : Bytes) :
    let p := frameDecoder.parse ((r.readBuffer ++ data).take data.length)
    r.onBytesReceived data =
      if p.invalid then (⟨r.readBuffer ++ data⟩, p.items.map .onPacket ++ [.onError])
      else (⟨(r.readBuffer ++ data).drop ((r.readBuffer ++ data).length - p.rest.length)⟩,
        p.items.map .onPacket) := by
  intro p
  obtain ⟨h1, h2, h3⟩ := readLoop_eq ⟨r.readBuffer ++ data, data.length, by simp⟩
  have hlen := congrArg List.length h3
  rw [Cursor.length_view] at hlen
  change _ = p.items at h1
  change _ = if p.invalid then _ else _ at h2
  change _ = p.rest.length at hlen
  unfold PacketReader.onBytesReceived
  simp only [h1, h2, hlen]
  cases p.invalid <;> rfl

theorem framesOf_append (a b : List ReaderCall) : framesOf (a ++ b) = framesOf a ++ framesOf b :=
  List.filterMap_append

@[simp] theorem framesOf_packets (frames : List PacketFrame) :
    framesOf (frames.map .onPacket) = frames := by
  induction frames with
  | nil => rfl
  | cons frame frames ih => simp [framesOf]

/-- The calls of a chunk: the frames of the window, and `_onError` if the window is rejected. -/
theorem onBytesReceived_calls (r : PacketReader) (data : Bytes) :
    let p := frameDecoder.parse ((r.readBuffer ++ data).take data.length)
    framesOf (r.onBytesReceived data).2 = p.items ∧
      (.onError ∈ (r.onBytesReceived data).2 ↔ p.invalid = true) := by
  intro p
  have h := onBytesReceived_eq r data
  simp only at h
  rw [h]
  split <;> rename_i hp
  · refine ⟨?_, by simp [p, hp]⟩
    simp only [framesOf_append, framesOf_packets]
    simp [framesOf, p]
  · simp [p, hp]

/-- The buffer after a chunk whose window is not rejected. -/
theorem onBytesReceived_buffer {r : PacketReader} {data : Bytes}
    (h : (frameDecoder.parse ((r.readBuffer ++ data).take data.length)).invalid = false) :
    (r.onBytesReceived data).1.readBuffer =
      (r.readBuffer ++ data).drop ((r.readBuffer ++ data).length -
        (frameDecoder.parse ((r.readBuffer ++ data).take data.length)).rest.length) := by
  have heq := onBytesReceived_eq r data
  simp only [h] at heq
  rw [heq]
  rfl

/-! ## One chunk -/

/-- The received bytes are the window and as many more as were carried over. -/
theorem window_append (f : Feed) (data : Bytes) :
    ∃ t, f.reader.readBuffer ++ data = f.window data ++ t ∧
      t.length = f.reader.readBuffer.length := by
  refine ⟨(f.reader.readBuffer ++ data).drop data.length, (List.take_append_drop _ _).symm, ?_⟩
  simp

/-- After an error, a chunk keeps the feed in agreement exactly if it adds no frame. -/
theorem agrees_next_iff_of_error {f : Feed} (hf : f.Agrees) (he : .onError ∈ f.calls)
    (data : Bytes) : (f.next data).Agrees ↔ f.InStep data := by
  obtain ⟨hi, herr, -⟩ := hf
  obtain ⟨hcalls, -⟩ := onBytesReceived_calls f.reader data
  have hp := Decoder.parse_append_of_invalid (herr.mp he) data
  unfold Feed.InStep
  rw [if_pos he, ← Decoder.parse_items_eq_nil_iff]
  unfold Feed.Agrees Feed.next
  simp only [hp, framesOf_append, hi, hcalls, List.mem_append, he, true_or]
  change _ ++ (frameDecoder.parse (f.window data)).items = _ ∧ _ ↔ _
  simp

/-- Before an error, a chunk keeps the feed in agreement exactly if the window and the whole of
the buffer have the same frames, the same verdict, and the buffer keeps what the whole leaves. -/
theorem agrees_next_iff_parse {f : Feed} (hf : f.Agrees) (he : .onError ∉ f.calls)
    (data : Bytes) : (f.next data).Agrees ↔
      (frameDecoder.parse (f.window data)).items =
        (frameDecoder.parse (f.reader.readBuffer ++ data)).items ∧
      ((frameDecoder.parse (f.window data)).invalid = true ↔
        (frameDecoder.parse (f.reader.readBuffer ++ data)).invalid = true) ∧
      ((frameDecoder.parse (f.reader.readBuffer ++ data)).invalid = false →
        (f.reader.onBytesReceived data).1.readBuffer =
          (frameDecoder.parse (f.reader.readBuffer ++ data)).rest) := by
  obtain ⟨hi, herr, hbuf⟩ := hf
  have hinv : (frameDecoder.parse f.received).invalid = false := by
    rw [← Bool.not_eq_true, ← herr]; exact he
  have hp := Decoder.parse_append hinv data
  rw [← hbuf hinv] at hp
  obtain ⟨hcalls, hcerr⟩ := onBytesReceived_calls f.reader data
  change framesOf _ = (frameDecoder.parse (f.window data)).items at hcalls
  change _ ↔ (frameDecoder.parse (f.window data)).invalid = true at hcerr
  unfold Feed.Agrees Feed.next
  simp only [hp, framesOf_append, hi, hcalls, List.mem_append, he, false_or, hcerr,
    List.append_cancel_left_eq]

/-- With nothing carried over, the window is the chunk, and the reader keeps what its parse
leaves. -/
theorem buffer_of_nil {f : Feed} {data : Bytes} (hnil : f.reader.readBuffer = [])
    (h : (frameDecoder.parse data).invalid = false) :
    (f.reader.onBytesReceived data).1.readBuffer = (frameDecoder.parse data).rest := by
  have hw : (f.reader.readBuffer ++ data).take data.length = data := by rw [hnil]; simp
  rw [onBytesReceived_buffer (by rw [hw]; exact h), hw, hnil, List.nil_append]
  obtain ⟨u, hu⟩ := Decoder.parse_rest_suffix (D := frameDecoder) data
  have hlen := congrArg List.length hu
  rw [List.length_append] at hlen
  have hdrop := congrArg (List.drop u.length) hu
  rw [List.drop_left] at hdrop
  rw [show data.length - (frameDecoder.parse data).rest.length = u.length by omega]
  exact hdrop.symm

/-- A chunk whose window is not rejected stays in agreement only if nothing was carried over: the
bytes after the window would have to be left, and the buffer is too short for them. -/
theorem nil_of_agrees_next {f : Feed} {data : Bytes}
    (hwin : (frameDecoder.parse (f.window data)).invalid = false)
    (hitems : (frameDecoder.parse (f.window data)).items =
      (frameDecoder.parse (f.reader.readBuffer ++ data)).items)
    (hbuf : (f.reader.onBytesReceived data).1.readBuffer =
      (frameDecoder.parse (f.reader.readBuffer ++ data)).rest) : f.reader.readBuffer = [] := by
  obtain ⟨t, ht, htlen⟩ := window_append f data
  have hp := Decoder.parse_append hwin t
  rw [ht, hp] at hitems hbuf
  have hnil : (frameDecoder.parse ((frameDecoder.parse (f.window data)).rest ++ t)).items = [] :=
    List.append_right_eq_self.mp hitems.symm
  have hsuf := (Decoder.parse_rest_suffix (D := frameDecoder) (f.window data)).length_le
  have hlen := congrArg List.length hbuf
  simp only [Decoder.rest_of_items_eq_nil hnil] at hlen
  rw [onBytesReceived_buffer hwin] at hlen
  change (List.drop (_ - (frameDecoder.parse (f.window data)).rest.length) _).length = _ at hlen
  have hw := congrArg List.length ht
  simp only [List.length_drop, List.length_append] at hlen hw
  exact List.eq_nil_of_length_eq_zero (by omega)

/-- Before an error, a chunk keeps the feed in agreement exactly if nothing was carried over, or
the window alone is rejected. -/
theorem agrees_next_iff_of_no_error {f : Feed} (hf : f.Agrees) (he : .onError ∉ f.calls)
    (data : Bytes) : (f.next data).Agrees ↔ f.InStep data := by
  rw [agrees_next_iff_parse hf he]
  unfold Feed.InStep
  rw [if_neg he]
  cases hwin : (frameDecoder.parse (f.window data)).invalid with
  | true =>
    -- The window decides: the whole buffer is rejected after the same frames.
    obtain ⟨t, ht, -⟩ := window_append f data
    rw [ht, Decoder.parse_append_of_invalid hwin t]
    simp
  | false =>
    refine ⟨fun ⟨hitems, hinv, hbuf⟩ => .inl (nil_of_agrees_next hwin hitems (hbuf ?_)), ?_⟩
    · rw [← Bool.not_eq_true, ← hinv]; simp
    · rintro (hnil | hbad)
      · have hw : f.window data = data := by unfold Feed.window; rw [hnil]; simp
        rw [hw] at hwin
        rw [hw, hnil, List.nil_append, hwin]
        exact ⟨rfl, Iff.rfl, fun _ => buffer_of_nil hnil hwin⟩
      · cases hbad

/-- One chunk: a feed in agreement stays so exactly on the chunks that it takes in step. -/
theorem agrees_next_iff {f : Feed} (hf : f.Agrees) (data : Bytes) :
    (f.next data).Agrees ↔ f.InStep data := by
  by_cases he : .onError ∈ f.calls
  · exact agrees_next_iff_of_error hf he data
  · exact agrees_next_iff_of_no_error hf he data

/-- No bytes hold no frame. -/
theorem next_nil : frameDecoder.next [] = .incomplete := rfl

theorem agrees_fresh : Feed.fresh.Agrees := by
  unfold Feed.Agrees Feed.fresh
  rw [Decoder.parse_of_incomplete next_nil]
  simp [framesOf]

/-! ## Runs -/

/-- **Segmentation.** The calls and the buffer are those of the stream received so far, after
every chunk, exactly if the reader takes every chunk in step. -/
theorem segmentation_iff (chunks : List Bytes) :
    feeding.Along Feed.fresh chunks Feed.Agrees ↔ feeding.Steps Feed.fresh chunks Feed.InStep := by
  have hrun : feeding.Run Feed.fresh chunks := fun _ _ _ => trivial
  exact System.along_iff_steps agrees_fresh (fun _ h => h)
    (fun _ data hf _ hs => (agrees_next_iff hf data).mpr hs)
    (fun _ data hf _ hn => (agrees_next_iff hf data).mp hn) hrun

/-- The frame `01 00` in two chunks: its first byte is discarded with the second chunk, and the
frame is never handed over. -/
theorem segmentation_two_chunks : ¬ ∀ chunks, feeding.Along Feed.fresh chunks Feed.Agrees := by
  intro h
  have hframes := (h [[1], [0]]).last.1
  have hcalls : framesOf (feeding.after Feed.fresh [[1], [0]]).calls = [] := by decide +kernel
  have hstream : (frameDecoder.parse [1, 0]).items = [⟨0, []⟩] := by decide +kernel
  rw [hcalls] at hframes
  change [] = (frameDecoder.parse [1, 0]).items at hframes
  rw [hstream] at hframes
  cases hframes

end Vitamine
