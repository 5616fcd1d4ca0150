import HvFrame.RingBuffers
import Mathlib.Tactic.SplitIfs

/-!
# The trace ring of the debug build

`trace_packet` and `dump_ring` of `debug_log.cpp`, as compiled with `DEBUG_LOG_ENABLE`. Writer
and reader each mask the 64-bit sequence number to find a slot. As long as that number does not
wrap, the ring keeps the latest entries.
-/

namespace HvFrame

/-- `TRACE_RING_SIZE`. -/
def traceRingSize : ℕ := 4096

instance neZeroTraceRingSize : NeZero traceRingSize := ⟨by decide⟩

structure PacketTraceEntry where
  seq : UInt64 := 0
  frameId : UInt32 := 0
  packetId : UInt16 := 0
  packetCount : UInt16 := 0
  payloadSize : UInt16 := 0
  flags : UInt16 := 0
  deriving DecidableEq, Repr

/-- What `dump_ring` prints one line about. -/
structure TraceLine where
  seq : UInt64
  entry : PacketTraceEntry
  deriving DecidableEq, Repr

/-- The `fprintf` of the loop. The `seq` field of the entry is not printed. -/
def TraceLine.text (l : TraceLine) : String :=
  toString l.seq ++ " " ++ toString l.entry.frameId ++ " " ++ toString l.entry.packetId ++ "/" ++
    toString l.entry.packetCount ++ " " ++ toString l.entry.payloadSize ++ " [" ++
    toString l.entry.flags ++ "]\n"

/-- `g_ring` and `g_write_seq`. -/
structure DebugLog where
  ring : Vector PacketTraceEntry traceRingSize
  writeSeq : UInt64

namespace DebugLog

/-- Static storage starts zeroed. -/
def new : DebugLog := ⟨Vector.replicate traceRingSize {}, 0⟩

/-- `seq & (TRACE_RING_SIZE - 1)`. -/
def maskedSeq (seq : UInt64) : UInt64 := seq &&& UInt64.ofNat (traceRingSize - 1)

theorem maskedSeq_toNat (seq : UInt64) : (maskedSeq seq).toNat = seq.toNat % traceRingSize := by
  have hmask : (UInt64.ofNat (traceRingSize - 1)).toNat = 2 ^ 12 - 1 := by decide
  rw [maskedSeq, UInt64.toNat_and, hmask, Nat.and_two_pow_sub_one_eq_mod]
  rfl

theorem maskedSeq_lt (seq : UInt64) : (maskedSeq seq).toNat < traceRingSize := by
  rw [maskedSeq_toNat]
  exact Nat.mod_lt _ (by decide)

def tracePacket (log : DebugLog) (e : PacketTraceEntry) : DebugLog where
  ring := log.ring.set (maskedSeq log.writeSeq).toNat e (maskedSeq_lt _)
  writeSeq := log.writeSeq + 1

def tracePackets (log : DebugLog) (es : List PacketTraceEntry) : DebugLog :=
  es.foldl tracePacket log

theorem tracePackets_concat (log : DebugLog) (es : List PacketTraceEntry) (e : PacketTraceEntry) :
    log.tracePackets (es ++ [e]) = (log.tracePackets es).tracePacket e :=
  List.foldl_concat tracePacket log e es

def dumpStart (log : DebugLog) : UInt64 :=
  if UInt64.ofNat traceRingSize < log.writeSeq then log.writeSeq - UInt64.ofNat traceRingSize
  else 0

def dumpLines (log : DebugLog) : List TraceLine :=
  (List.range (log.writeSeq.toNat - log.dumpStart.toNat)).map (fun i =>
    let s := log.dumpStart + UInt64.ofNat i
    ⟨s, log.ring.get ⟨(maskedSeq s).toNat, maskedSeq_lt s⟩⟩)

/-- What `dump_ring` writes to its file; `none` when the file cannot be opened. -/
def dumpRing (log : DebugLog) (opened : Bool) : Option (List String) :=
  if opened then
    some ("# seq frame_id packet_id/packet_count payload\n" :: log.dumpLines.map TraceLine.text)
  else none

def lastCalls (es : List PacketTraceEntry) : List TraceLine :=
  (((List.range es.length).zip es).drop (es.length - traceRingSize)).map
    (fun x => ⟨UInt64.ofNat x.1, x.2⟩)

/-- The dump lists the last entries and nothing else. -/
structure DumpsLast (log : DebugLog) (es : List PacketTraceEntry) : Prop where
  lines : log.dumpLines = lastCalls es
  count : log.dumpLines.length = min es.length traceRingSize
  file : log.dumpRing true = some ("# seq frame_id packet_id/packet_count payload\n" ::
    (lastCalls es).map TraceLine.text)

def toRing (log : DebugLog) : RingBuffer PacketTraceEntry traceRingSize where
  slots := log.ring.get
  written := log.writeSeq.toNat

variable {log : DebugLog}

theorem slot_eq (seq : UInt64) :
    (⟨(maskedSeq seq).toNat, maskedSeq_lt seq⟩ : Fin traceRingSize) =
      Fin.ofNat traceRingSize seq.toNat :=
  Fin.ext (maskedSeq_toNat seq)

/-- A call pushes its entry unless it wraps the sequence number. -/
theorem toRing_tracePacket (h : log.writeSeq.toNat + 1 < 2 ^ 64) (e : PacketTraceEntry) :
    (log.tracePacket e).toRing = log.toRing.push e := by
  have hseq : (log.writeSeq + 1).toNat = log.writeSeq.toNat + 1 := by
    rw [UInt64.toNat_add]
    exact Nat.mod_eq_of_lt h
  have hget : ∀ (v : Vector PacketTraceEntry traceRingSize) (i : Fin traceRingSize),
      v.get i = v[i.val] := fun _ _ => rfl
  have hslots : (log.tracePacket e).ring.get =
      Function.update log.ring.get (Fin.ofNat traceRingSize log.writeSeq.toNat) e := by
    funext i
    rw [← slot_eq, tracePacket, hget]
    by_cases hi : i = ⟨(maskedSeq log.writeSeq).toNat, maskedSeq_lt log.writeSeq⟩
    · rw [hi, Function.update_self]
      exact Vector.getElem_set_self _
    · rw [Function.update_of_ne hi]
      exact Vector.getElem_set_ne (maskedSeq_lt _) i.isLt (fun heq => hi (Fin.ext heq.symm))
  rw [toRing, hslots, RingBuffer.push, tracePacket, hseq]
  rfl

theorem toRing_tracePackets {es : List PacketTraceEntry} (h : es.length < 2 ^ 64) :
    (new.tracePackets es).toRing = new.toRing.pushAll es ∧
      (new.tracePackets es).writeSeq.toNat = es.length := by
  induction es using List.reverseRecOn with
  | nil => exact ⟨rfl, rfl⟩
  | append_singleton es e ih =>
    rw [List.length_append, List.length_singleton] at h
    obtain ⟨hring, hseq⟩ := ih (by omega)
    have hroom : (new.tracePackets es).writeSeq.toNat + 1 < 2 ^ 64 := by omega
    have hstep := toRing_tracePacket hroom e
    rw [tracePackets_concat, RingBuffer.pushAll_concat, ← hring]
    refine ⟨hstep, (congrArg RingBuffer.written hstep).trans ?_⟩
    rw [List.length_append, List.length_singleton, ← hseq]
    rfl

theorem dumpStart_toNat (log : DebugLog) :
    log.dumpStart.toNat = log.writeSeq.toNat - traceRingSize := by
  have hsize : (UInt64.ofNat traceRingSize).toNat = traceRingSize := by decide
  rw [dumpStart]
  split_ifs with h
  · rw [UInt64.toNat_sub_of_le _ _ (UInt64.le_of_lt h), hsize]
  · rw [UInt64.lt_iff_toNat_lt, hsize] at h
    rw [Nat.sub_eq_zero_of_le (by omega)]
    rfl

theorem dumpLines_eq (log : DebugLog) :
    log.dumpLines = log.toRing.latest.map (fun x => ⟨UInt64.ofNat x.1, x.2⟩) := by
  have hstart := log.dumpStart_toNat
  have hend := log.writeSeq.toNat_lt
  have hcount : log.writeSeq.toNat - log.dumpStart.toNat =
      min log.writeSeq.toNat traceRingSize := by omega
  rw [dumpLines, hcount, RingBuffer.latest, toRing, List.range'_eq_map_range, List.map_map,
    List.map_map]
  refine List.map_congr_left (fun i hi => ?_)
  rw [List.mem_range] at hi
  have hs : (log.dumpStart + UInt64.ofNat i).toNat =
      log.writeSeq.toNat - traceRingSize + i := by
    have hi64 : i < 2 ^ 64 := by omega
    rw [UInt64.toNat_add, UInt64.toNat_ofNat_of_lt' hi64, hstart]
    exact Nat.mod_eq_of_lt (by omega)
  have hnumber : log.dumpStart + UInt64.ofNat i =
      UInt64.ofNat (log.writeSeq.toNat - traceRingSize + i) := by
    rw [← hs, UInt64.ofNat_toNat]
  simp only [Function.comp_apply, slot_eq, hs]
  rw [hnumber]

/-- Up to the wrap of the sequence number, the dump lists the last calls of `trace_packet`. -/
theorem dumpsLast_tracePackets (es : List PacketTraceEntry) (h : es.length < 2 ^ 64) :
    DumpsLast (new.tracePackets es) es := by
  obtain ⟨hring, hseq⟩ := toRing_tracePackets h
  have hholds : (new.toRing.pushAll es).Holds es := RingBuffer.holds_pushAll new.ring.get es
  have hlines : (new.tracePackets es).dumpLines = lastCalls es := by
    rw [dumpLines_eq, hring, hholds.latest_eq, lastCalls]
  refine ⟨hlines, ?_, ?_⟩
  · rw [hlines, lastCalls, List.length_map, List.length_drop, List.length_zip, List.length_range]
    omega
  · rw [dumpRing, if_pos rfl, hlines]

def numberedEntries (n : ℕ) : List PacketTraceEntry :=
  (List.range n).map (fun i => { seq := UInt64.ofNat i, frameId := UInt32.ofNat i })

theorem length_numberedEntries (n : ℕ) : (numberedEntries n).length = n := by
  simp [numberedEntries]

theorem lastCalls_head (k : ℕ) :
    (lastCalls (numberedEntries (k + traceRingSize)))[0]? =
      some ⟨UInt64.ofNat k, { seq := UInt64.ofNat k, frameId := UInt32.ofNat k }⟩ := by
  have hlt : k < k + traceRingSize := Nat.lt_add_of_pos_right (by decide)
  have hentry : (numberedEntries (k + traceRingSize))[k]? =
      some { seq := UInt64.ofNat k, frameId := UInt32.ofNat k } := by
    rw [numberedEntries, List.getElem?_map, List.getElem?_range hlt, Option.map_some]
  have hnumbered : ((List.range (k + traceRingSize)).zip
      (numberedEntries (k + traceRingSize)))[k]? = some (k, _) :=
    List.getElem?_zip_eq_some.mpr ⟨List.getElem?_range hlt, hentry⟩
  rw [lastCalls, length_numberedEntries, Nat.add_sub_cancel, List.getElem?_map,
    List.getElem?_drop, Nat.add_zero, hnumbered, Option.map_some]

/-- After 5000 calls the dump starts with call 904. -/
theorem dumpsLast_tracePackets_wrapped :
    DumpsLast (new.tracePackets (numberedEntries 5000)) (numberedEntries 5000) ∧
      (new.tracePackets (numberedEntries 5000)).dumpLines[0]? =
        some ⟨904, { seq := 904, frameId := 904 }⟩ := by
  have hlen : (numberedEntries 5000).length < 2 ^ 64 := by
    rw [length_numberedEntries]
    decide
  have hdumps := dumpsLast_tracePackets (numberedEntries 5000) hlen
  refine ⟨hdumps, ?_⟩
  rw [hdumps.lines]
  exact lastCalls_head 904

end DebugLog

end HvFrame
