import HvFrame.LastWrites
import HvFrame.ReceiverAccounts

/-!
# The files on disk

Each call of `write_frame_to_file` opens its three files anew and truncates those it can open.
So every file shows the last frame that was written under its flag and could be opened, and the
full files are out of reach of the partial writes.
-/

namespace HvFrame

inductive FramePart where
  | frame
  | header
  | raw
  deriving DecidableEq, Repr

namespace FramePart

def text : FramePart → String
  | .frame => "frame"
  | .header => "header"
  | .raw => "raw"

def fileName (part : FramePart) (isPartial : Bool) : String := frameFileName isPartial part.text

theorem fileName_inj {part part' : FramePart} {isPartial isPartial' : Bool} :
    part.fileName isPartial = part'.fileName isPartial' ↔
      part = part' ∧ isPartial = isPartial' := by
  cases part <;> cases part' <;> cases isPartial <;> cases isPartial' <;> decide

end FramePart

namespace WriteCall

def part (c : WriteCall) : FramePart → List UInt8
  | .frame => c.frame.take c.frameSize
  | .header => c.frame.take FrameHeader.byteSize
  | .raw => (c.frame.drop FrameHeader.byteSize).take (c.frameSize - FrameHeader.byteSize)

/-- The call passes the guard of `write_frame_to_file`. -/
def writes (c : WriteCall) : Bool := !(c.frame.isEmpty || c.frameSize < FrameHeader.byteSize)

theorem files_eq (c : WriteCall) (fopen : String → Bool) :
    c.files fopen = if c.writes then
      ([FramePart.frame, .header, .raw].map (fun part =>
        (⟨part.fileName c.isPartial, c.part part⟩ : FileWrite))).filter (fun w => fopen w.name)
      else [] := by
  by_cases h : (c.frame.isEmpty || decide (c.frameSize < FrameHeader.byteSize)) = true
  · have hwrites : c.writes = false := by rw [writes, h, Bool.not_true]
    rw [files, writeFrameToFile, if_pos h, hwrites]
    rfl
  · have hwrites : c.writes = true := by rw [writes, Bool.not_eq_true', Bool.eq_false_iff.mpr h]
    rw [files, writeFrameToFile, if_neg h, hwrites]
    rfl

theorem part_frame {c : WriteCall} (h : c.writes = true) :
    c.part .frame = c.part .header ++ c.part .raw := by
  have hsize : FrameHeader.byteSize ≤ c.frameSize := by
    simp only [writes, Bool.not_eq_true', Bool.or_eq_false_iff, decide_eq_false_iff_not,
      not_lt] at h
    exact h.2
  have hsplit := List.take_add (l := c.frame) (i := FrameHeader.byteSize)
    (j := c.frameSize - FrameHeader.byteSize)
  rwa [Nat.add_sub_cancel' hsize] at hsplit

end WriteCall

abbrev Disk := String → Option (List UInt8)

structure LoggedWrite where
  call : WriteCall
  fopen : String → Bool

namespace LoggedWrite

/-- The call replaces the file of `part` under the flag `isPartial`. -/
def replaces (part : FramePart) (isPartial : Bool) (l : LoggedWrite) : Bool :=
  l.call.writes && l.call.isPartial == isPartial && l.fopen (part.fileName isPartial)

def writes (l : LoggedWrite) : List (String × List UInt8) :=
  (l.call.files l.fopen).map (fun w => (w.name, w.content))

theorem writes_eq (l : LoggedWrite) :
    l.writes = if l.call.writes then
      ([FramePart.frame, .header, .raw].filter (fun part =>
        l.fopen (part.fileName l.call.isPartial))).map (fun part =>
          (part.fileName l.call.isPartial, l.call.part part))
      else [] := by
  rw [writes, WriteCall.files_eq]
  split_ifs
  · rw [List.filter_map, List.map_map]
    rfl
  · rfl

theorem writes_fileName (l : LoggedWrite) (part : FramePart) (isPartial : Bool) :
    l.writes.filter (fun w => w.1 = part.fileName isPartial) =
      if l.replaces part isPartial then [(part.fileName isPartial, l.call.part part)] else [] := by
  cases hwrites : l.call.writes with
  | false => simp [writes_eq, replaces, hwrites]
  | true =>
    have hpred : ∀ part' : FramePart,
        (decide (part'.fileName l.call.isPartial = part.fileName isPartial) &&
          l.fopen (part'.fileName l.call.isPartial)) =
        (decide (part' = part) && l.replaces part isPartial) := by
      intro part'
      by_cases hsame : part' = part ∧ l.call.isPartial = isPartial
      · simp [replaces, hwrites, hsame]
      · have hname : part'.fileName l.call.isPartial ≠ part.fileName isPartial :=
          fun h => hsame (FramePart.fileName_inj.mp h)
        rw [decide_eq_false hname, Bool.false_and]
        by_cases hpart : part' = part
        · have hflag : (l.call.isPartial == isPartial) = false :=
            beq_false_of_ne (fun h => hsame ⟨hpart, h⟩)
          simp [replaces, hflag]
        · simp [hpart]
    have hcomp : ((fun w : String × List UInt8 => decide (w.1 = part.fileName isPartial)) ∘
        fun part' : FramePart => (part'.fileName l.call.isPartial, l.call.part part')) =
        fun part' => decide (part'.fileName l.call.isPartial = part.fileName isPartial) := rfl
    rw [writes_eq, if_pos hwrites, List.filter_map, List.filter_filter, hcomp]
    simp only [hpred]
    cases hreplaces : l.replaces part isPartial with
    | false => simp
    | true =>
      have hflag : l.call.isPartial = isPartial := by
        simp only [replaces, Bool.and_eq_true, beq_iff_eq] at hreplaces
        exact hreplaces.1.2
      rw [hflag]
      cases part <;> rfl

theorem writes_names {l : LoggedWrite} {w : String × List UInt8} (h : w ∈ l.writes) :
    ∃ part : FramePart, w.1 = part.fileName l.call.isPartial := by
  rw [writes_eq] at h
  split_ifs at h
  · obtain ⟨part, -, rfl⟩ := List.mem_map.mp h
    exact ⟨part, rfl⟩
  · cases h

end LoggedWrite

namespace Disk

def after (disk : Disk) (log : List LoggedWrite) : Disk :=
  writeAll disk (log.flatMap LoggedWrite.writes)

/-- Every file shows the last call that replaced it. -/
theorem after_fileName (disk : Disk) (log : List LoggedWrite) (part : FramePart)
    (isPartial : Bool) :
    disk.after log (part.fileName isPartial) =
      ((log.filter (LoggedWrite.replaces part isPartial)).getLast?.map
        (fun l => l.call.part part)).or (disk (part.fileName isPartial)) := by
  have hwrites : (log.flatMap LoggedWrite.writes).filter
      (fun w => w.1 = part.fileName isPartial) =
        (log.filter (LoggedWrite.replaces part isPartial)).map
          (fun l => (part.fileName isPartial, l.call.part part)) := by
    induction log with
    | nil => rfl
    | cons l log ih =>
      rw [List.flatMap_cons, List.filter_append, ih, LoggedWrite.writes_fileName,
        List.filter_cons]
      split_ifs <;> rfl
  rw [after, writeAll_apply, hwrites, List.getLast?_map, Option.map_map]
  rfl

theorem after_other (disk : Disk) (log : List LoggedWrite) {name : String}
    (h : ∀ (part : FramePart) isPartial, name ≠ part.fileName isPartial) :
    disk.after log name = disk name := by
  refine writeAll_of_unwritten (fun w hw hname => ?_)
  obtain ⟨l, -, hl⟩ := List.mem_flatMap.mp hw
  obtain ⟨part, hpart⟩ := LoggedWrite.writes_names hl
  exact h part l.call.isPartial (hname.symm.trans hpart)

end Disk

namespace ReceiverState

/-- The calls of `write_frame_to_file` in a run, each with its own answers of `fopen`. -/
def writeLog (answers : ℕ → String → Bool) (es : List ReceiverEvent) : List LoggedWrite :=
  (writeCalls es).zipIdx.map (fun c => ⟨c.1, answers c.2⟩)

theorem writeLog_calls (answers : ℕ → String → Bool) (es : List ReceiverEvent) :
    (writeLog answers es).map LoggedWrite.call = writeCalls es := by
  rw [writeLog, List.map_map]
  exact List.zipIdx_map_fst 0 (writeCalls es)

theorem output_of_mem_writeLog {answers : ℕ → String → Bool} {es : List ReceiverEvent}
    {l : LoggedWrite} (h : l ∈ writeLog answers es) :
    ∃ out ∈ es.filterMap ReceiverEvent.managerOutput, out.writeCall = l.call := by
  refine List.mem_map.mp (?_ : l.call ∈ writeCalls es)
  rw [← writeLog_calls answers]
  exact List.mem_map_of_mem h

theorem fopen_of_mem_writeLog {answers : ℕ → String → Bool} {es : List ReceiverEvent}
    {l : LoggedWrite} (h : l ∈ writeLog answers es) : ∃ n, l.fopen = answers n := by
  obtain ⟨c, -, rfl⟩ := List.mem_map.mp h
  exact ⟨c.2, rfl⟩

variable {clock : ℤ} {moves : List ReceiverMove}

theorem frameSize_le_of_report {r : FrameResult}
    (h : .managed (.onFrameDone r) ∈ machine.outputs (init clock) moves) :
    r.frameData.length = Receiver.maxFrameSize ∧ r.frameSize ≤ Receiver.maxFrameSize := by
  obtain ⟨before, later, k, e, -, he, ⟨drops, heq⟩ | heq⟩ := entry_of_output h
  swap
  · cases heq
  obtain rfl := ManagerOutput.onFrameDone.inj heq
  rw [(manager_run clock before).1] at he
  obtain ⟨count, ps, href⟩ := FrameReassemblerManager.reflects_of_find? he
  obtain ⟨-, -, hbuffer, hextent, -⟩ := href.wellFormed
  rw [href.maxSize] at hbuffer hextent
  exact ⟨hbuffer, hextent⟩

theorem fullWrites_eq {outs : List ManagerOutput}
    (hkinds : ∀ out ∈ outs, out.IsFullReport ∨ out.IsPartialWrite)
    (hdata : ∀ r ∈ outs.filterMap ManagerOutput.report, r.frameData ≠ []) :
    (outs.map ManagerOutput.writeCall).filter (fun c => c.writes && c.isPartial == false) =
      ((outs.filterMap ManagerOutput.report).filter
        (fun r => FrameHeader.byteSize ≤ r.frameSize)).map
          (fun r => ManagerOutput.writeCall (.onFrameDone r)) := by
  induction outs with
  | nil => rfl
  | cons out outs ih =>
    have hrest := ih (fun o ho => hkinds o (List.mem_cons_of_mem _ ho)) (fun r hr =>
      hdata r (by rw [List.filterMap_cons]; cases out.report <;> simp [hr]))
    rw [List.map_cons, List.filter_cons, hrest]
    rcases hkinds out List.mem_cons_self with ⟨r, rfl, hstate⟩ | ⟨frame, frameSize, rfl⟩
    · have hne : r.frameData.isEmpty = false := by
        have hr := hdata r (by simp [ManagerOutput.report])
        simpa using hr
      have hreport : (ManagerOutput.onFrameDone r).report = some r := rfl
      rw [List.filterMap_cons, hreport]
      by_cases hsize : r.frameSize < FrameHeader.byteSize
      · simp [ManagerOutput.writeCall, WriteCall.writes, hsize, not_le.mpr hsize]
      · simp [ManagerOutput.writeCall, WriteCall.writes, hsize, not_lt.mp hsize, hne, hstate]
    · have hreport : (ManagerOutput.writeFrameToFile frame frameSize true).report = none := rfl
      rw [List.filterMap_cons, hreport]
      simp [ManagerOutput.writeCall]

/-- The last full frame with a header, when every `fopen` succeeds. -/
theorem lastFull_eq {answers : ℕ → String → Bool} (hopen : ∀ n name, answers n name = true)
    (clock : ℤ) (moves : List ReceiverMove) (part : FramePart) :
    ((writeLog answers (machine.outputs (init clock) moves)).filter
        (LoggedWrite.replaces part false)).getLast?.map (fun l => l.call.part part) =
      ((reports (machine.outputs (init clock) moves)).filter
        (fun r => FrameHeader.byteSize ≤ r.frameSize)).getLast?.map
          (fun r => (ManagerOutput.writeCall (.onFrameDone r)).part part) := by
  have hreplaces : ∀ l ∈ writeLog answers (machine.outputs (init clock) moves),
      l.replaces part false = (l.call.writes && l.call.isPartial == false) := by
    intro l hl
    obtain ⟨n, hn⟩ := fopen_of_mem_writeLog hl
    rw [LoggedWrite.replaces, hn, hopen, Bool.and_true]
  have hfiltered : ((writeLog answers (machine.outputs (init clock) moves)).filter
      (LoggedWrite.replaces part false)).map LoggedWrite.call =
        (writeCalls (machine.outputs (init clock) moves)).filter
          (fun c => c.writes && c.isPartial == false) := by
    rw [List.filter_congr hreplaces, ← writeLog_calls answers, List.filter_map]
    rfl
  have hkinds : ∀ out ∈ (machine.outputs (init clock) moves).filterMap
      ReceiverEvent.managerOutput, out.IsFullReport ∨ out.IsPartialWrite := by
    obtain ⟨polled, flushed, houts, hpolled, hflushed, -⟩ :=
      (framesSettled_run clock moves).outputs
    intro out hout
    rw [houts] at hout
    exact (List.mem_append.mp hout).imp (hpolled out) (hflushed out)
  have hdata : ∀ r ∈ reports (machine.outputs (init clock) moves), r.frameData ≠ [] := by
    intro r hr
    refine List.ne_nil_of_length_pos ?_
    rw [(frameSize_le_of_report (mem_reports.mp hr)).1]
    decide
  have hlast := congrArg List.getLast? (hfiltered.trans (fullWrites_eq hkinds hdata))
  rw [List.getLast?_map, List.getLast?_map] at hlast
  have hpart := congrArg (Option.map (fun c => c.part part)) hlast
  rwa [Option.map_map, Option.map_map] at hpart

/-- In every state of every run each file of a frame shows the last call that replaced it, no
other file is touched, and no partial file is before the worker has ended. When all files can be
opened, the full files show the last reported frame of at least a header, cut after it. -/
theorem received_files (disk : Disk) (answers : ℕ → String → Bool) (clock : ℤ)
    (moves : List ReceiverMove) :
    let s := machine.state (init clock) moves
    let es := machine.outputs (init clock) moves
    let log := writeLog answers es
    let d := disk.after log
    (∀ (part : FramePart) isPartial, d (part.fileName isPartial) =
      ((log.filter (LoggedWrite.replaces part isPartial)).getLast?.map
        (fun l => l.call.part part)).or (disk (part.fileName isPartial))) ∧
    (∀ name, (∀ (part : FramePart) isPartial, name ≠ part.fileName isPartial) →
      d name = disk name) ∧
    (s.worker ≠ .ended → ∀ part : FramePart, d (part.fileName true) = disk (part.fileName true)) ∧
    ((∀ n name, answers n name = true) → ∀ r,
      ((reports es).filter (fun r => FrameHeader.byteSize ≤ r.frameSize)).getLast? = some r →
        ∃ header raw, header.length = FrameHeader.byteSize ∧
          header ++ raw = r.frameData.take r.frameSize ∧
          d (FramePart.fileName .frame false) = some (header ++ raw) ∧
          d (FramePart.fileName .header false) = some header ∧
          d (FramePart.fileName .raw false) = some raw) := by
  intro s es log d
  refine ⟨disk.after_fileName log, fun name hname => disk.after_other log hname, ?_, ?_⟩
  · intro hw part
    have hnone : log.filter (LoggedWrite.replaces part true) = [] := by
      refine List.filter_eq_nil_iff.mpr (fun l hl hreplaces => ?_)
      obtain ⟨polled, flushed, houts, hpolled, -, hrunning⟩ :=
        (framesSettled_run clock moves).outputs
      obtain ⟨out, hout, heq⟩ := output_of_mem_writeLog hl
      rw [houts, hrunning hw, List.append_nil] at hout
      have hflag := (hpolled out hout).isPartial
      simp [LoggedWrite.replaces, ← heq, hflag] at hreplaces
    have hshows := disk.after_fileName log part true
    rw [hnone] at hshows
    exact hshows
  · intro hopen r hlast
    have hmem := List.mem_of_getLast? hlast
    obtain ⟨hlength, hinside⟩ := frameSize_le_of_report
      (mem_reports.mp (List.mem_of_mem_filter hmem))
    have hheader : FrameHeader.byteSize ≤ r.frameSize := by
      simpa using List.of_mem_filter hmem
    set c := ManagerOutput.writeCall (.onFrameDone r) with hc
    have hwrites : c.writes = true := by
      have hne : r.frameData ≠ [] := List.ne_nil_of_length_pos (by rw [hlength]; decide)
      simp [hc, ManagerOutput.writeCall, WriteCall.writes, hne, hheader]
    have hshows : ∀ part : FramePart, d (part.fileName false) = some (c.part part) := by
      intro part
      have hlog := lastFull_eq hopen clock moves part
      rw [hlast] at hlog
      have hshow := disk.after_fileName log part false
      rw [hlog] at hshow
      exact hshow
    refine ⟨c.part .header, c.part .raw, ?_, (WriteCall.part_frame hwrites).symm, ?_,
      hshows .header, hshows .raw⟩
    · simp only [WriteCall.part, hc, ManagerOutput.writeCall, List.length_take, hlength]
      omega
    · rw [hshows, WriteCall.part_frame hwrites]

end ReceiverState

end HvFrame
