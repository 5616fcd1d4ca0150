import HvFrame.FrameReassemblerManager

/-!
# Files written by the receiver

`write_frame_to_file` with its guard and its three files. Whether `fopen` succeeds for a
name is left to the environment.
-/

namespace HvFrame

structure FileWrite where
  name : String
  content : List UInt8
  deriving DecidableEq, Repr

/-- The three file names for a `base` of `full` or `partial`. -/
def frameFileName (isPartial : Bool) (part : String) : String :=
  "received_" ++ (if isPartial then "partial" else "full") ++ "_" ++ part ++ ".bin"

/-- `write_frame_to_file`. A null `frame` is the data pointer of an empty buffer. -/
def writeFrameToFile (fopen : String → Bool) (frame : List UInt8) (frameSize : ℕ)
    (isPartial : Bool) : List FileWrite :=
  if frame.isEmpty || frameSize < FrameHeader.byteSize then []
  else
    [⟨frameFileName isPartial "frame", frame.take frameSize⟩,
      ⟨frameFileName isPartial "header", frame.take FrameHeader.byteSize⟩,
      ⟨frameFileName isPartial "raw",
        (frame.drop FrameHeader.byteSize).take (frameSize - FrameHeader.byteSize)⟩].filter
      (fun w => fopen w.name)

/-- The callback that `frame_worker_thread` installs as `manager.onFrameDone`. -/
def workerOnFrameDone (fopen : String → Bool) (r : FrameResult) : List FileWrite :=
  writeFrameToFile fopen r.frameData r.frameSize (r.state = .partialFrame)

/-- Files of full frames and of partial frames never share a name. -/
theorem frameFileName_isPartial {p q : Bool} {s t : String}
    (hs : s ∈ ["frame", "header", "raw"]) (ht : t ∈ ["frame", "header", "raw"])
    (h : frameFileName p s = frameFileName q t) : p = q := by
  simp only [List.mem_cons, List.not_mem_nil, or_false] at hs ht
  revert h
  rcases hs with rfl | rfl | rfl <;> rcases ht with rfl | rfl | rfl <;>
    cases p <;> cases q <;> decide

theorem mem_writeFrameToFile {fopen : String → Bool} {frame : List UInt8} {frameSize : ℕ}
    {isPartial : Bool} {w : FileWrite} (h : w ∈ writeFrameToFile fopen frame frameSize isPartial) :
    ∃ part ∈ ["frame", "header", "raw"], w.name = frameFileName isPartial part := by
  simp only [writeFrameToFile] at h
  split_ifs at h with hguard
  · simp at h
  · have hmem := List.mem_of_mem_filter h
    simp only [List.mem_cons, List.not_mem_nil, or_false] at hmem
    rcases hmem with rfl | rfl | rfl
    · exact ⟨"frame", by simp, rfl⟩
    · exact ⟨"header", by simp, rfl⟩
    · exact ⟨"raw", by simp, rfl⟩

end HvFrame
