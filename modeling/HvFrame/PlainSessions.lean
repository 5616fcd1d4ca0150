import HvFrame.PlainRuns

/-!
# The frame that the plain reassembler works on

`FrameReassembler` encodes that no frame is open by the frame id `0xFFFFFFFF`. A packet that
carries this id while no frame is open does not start its frame: the announced count stays zero
and the start time stays that of an older frame.
-/

namespace HvFrame

namespace FrameReassembler

/-- The reassembler works on the frame of `x`, which the first of the pushes `xs` started. -/
structure WorksOn (r : FrameReassembler) (x : TimedPush) (xs : List TimedPush) : Prop where
  id : r.currentFrameId = x.pkt.hdr.frameId
  started : ∃ first, xs.head? = some first ∧ first.pkt.hdr.frameId = x.pkt.hdr.frameId ∧
    r.expectedPacketCount = first.pkt.hdr.packetCount ∧ r.frameStartTime = first.clock.startNow
  held : ∀ pid payload, r.packets.find? pid = some payload →
    ∃ y ∈ xs, y.pkt.hdr.frameId = x.pkt.hdr.frameId ∧ y.pkt.hdr.packetId = pid ∧
      y.bytes = payload

/-- After every push that is not discarded, the reassembler works on the frame of the packet. -/
def AlwaysOnItsFrame (calls : List PlainCall) : Prop :=
  ∀ y ∈ positions calls, ∀ x, y.2 = .pushPacket x → (machine.state new y.1).discards x = false →
    WorksOn (machine.state new (y.1 ++ [y.2])) x (openFrame (y.1 ++ [y.2]))

/-- A packet with the id `0xFFFFFFFF` that comes while no frame is open is discarded, or it
announces what the idle fields say. -/
def ReservedIdHarmless (calls : List PlainCall) : Prop :=
  ∀ y ∈ positions calls, ∀ x, y.2 = .pushPacket x → openFrame y.1 = [] →
    x.pkt.hdr.frameId = 0xFFFFFFFF →
      (machine.state new y.1).discards x = true ∨
        (x.pkt.hdr.packetCount = 0 ∧ (machine.state new y.1).frameStartTime = x.clock.startNow)

/-- The count and the start time are those of the first push. -/
def StartedByFirst (r : FrameReassembler) (xs : List TimedPush) : Prop :=
  ∀ first, xs.head? = some first →
    r.expectedPacketCount = first.pkt.hdr.packetCount ∧ r.frameStartTime = first.clock.startNow

variable {r : FrameReassembler} {xs : List TimedPush} {x : TimedPush}

theorem startedByFirst_nil (r : FrameReassembler) : StartedByFirst r [] := by
  intro first hfirst
  cases hfirst

theorem startedByFirst_pushPacket (h : Follows r xs) (hstart : StartedByFirst r xs)
    (hkept : r.discards x = false)
    (hreserved : xs = [] → x.pkt.hdr.frameId = 0xFFFFFFFF →
      x.pkt.hdr.packetCount = 0 ∧ r.frameStartTime = x.clock.startNow) :
    StartedByFirst (r.pushPacket x.pkt.hdr x.pkt.payload x.clock)
      (r.session (.pushPacket x) xs) := by
  rw [h.session_pushPacket, hkept, if_neg Bool.false_ne_true, pushPacket_of_not_discards hkept]
  intro first hfirst
  rw [store_expectedPacketCount, store_frameStartTime]
  by_cases hid : x.pkt.hdr.frameId = r.currentFrameId
  · rw [if_pos hid] at hfirst
    rw [enterFrame_same hid]
    cases xs with
    | nil =>
      obtain ⟨hcurrent, hexpected⟩ := h.idle rfl
      obtain ⟨hcount, htime⟩ := hreserved rfl (hid.trans hcurrent)
      obtain rfl : x = first := Option.some.inj hfirst
      exact ⟨hexpected.trans hcount.symm, htime⟩
    | cons y ys => exact hstart first hfirst
  · rw [if_neg hid] at hfirst
    rw [enterFrame_other hid]
    obtain rfl : x = first := Option.some.inj hfirst
    exact ⟨rfl, rfl⟩

theorem worksOn_of_pushPacket (h : Follows r xs) (hkept : r.discards x = false)
    (hstart : StartedByFirst (r.pushPacket x.pkt.hdr x.pkt.payload x.clock)
      (r.session (.pushPacket x) xs)) :
    WorksOn (r.pushPacket x.pkt.hdr x.pkt.payload x.clock) x (r.session (.pushPacket x) xs) := by
  have hnext : Follows (r.pushPacket x.pkt.hdr x.pkt.payload x.clock)
      (r.session (.pushPacket x) xs) := h.call (.pushPacket x)
  have hlast : x ∈ r.session (.pushPacket x) xs := by
    rw [h.session_pushPacket, hkept, if_neg Bool.false_ne_true]
    exact List.mem_append_right _ List.mem_cons_self
  have hid := hnext.id x hlast
  have hsame : ∀ y ∈ r.session (.pushPacket x) xs, y.pkt.hdr.frameId = x.pkt.hdr.frameId :=
    fun y hy => (hnext.id y hy).trans hid.symm
  refine ⟨hid.symm, ?_, ?_⟩
  · obtain ⟨first, rest, hcons⟩ := List.exists_cons_of_ne_nil (List.ne_nil_of_mem hlast)
    have hfirst : (r.session (.pushPacket x) xs).head? = some first := by
      rw [hcons, List.head?_cons]
    obtain ⟨hcount, htime⟩ := hstart first hfirst
    exact ⟨first, hfirst, hsame first (List.mem_of_head? hfirst), hcount, htime⟩
  · intro pid payload hfind
    rw [hnext.held, Option.map_eq_some_iff] at hfind
    obtain ⟨y, hy, hbytes⟩ := hfind
    have hmem := List.mem_of_find?_eq_some hy
    exact ⟨y, hmem, hsame y hmem, by simpa using List.find?_some hy, hbytes⟩

theorem startedByFirst_call (h : Follows r xs) (hstart : StartedByFirst r xs) (c : PlainCall)
    (hreserved : ∀ x, c = .pushPacket x → xs = [] → x.pkt.hdr.frameId = 0xFFFFFFFF →
      r.discards x = true ∨ (x.pkt.hdr.packetCount = 0 ∧ r.frameStartTime = x.clock.startNow)) :
    StartedByFirst (r.call c).1 (r.session c xs) := by
  rcases r.call_cases c xs with ⟨r', -, hsession⟩ | ⟨he, hsession⟩ | ⟨x, rfl, hkept, -⟩
  · rw [hsession]
    exact startedByFirst_nil _
  · rw [he, hsession]
    exact hstart
  · refine startedByFirst_pushPacket h hstart hkept (fun hnil hid => ?_)
    refine (hreserved x rfl hnil hid).resolve_left ?_
    rw [hkept]
    exact Bool.false_ne_true

/-- As long as the reserved id does no harm, the open frame was started by its first push. -/
theorem startedByFirst_run {calls : List PlainCall} (h : ReservedIdHarmless calls) :
    StartedByFirst (machine.state new calls) (openFrame calls) := by
  have hrun := machine.past_invariant session
    (I := fun xs r => Follows r xs ∧ StartedByFirst r xs)
    (G := fun as c => ∀ x, c = .pushPacket x → openFrame as = [] →
      x.pkt.hdr.frameId = 0xFFFFFFFF → (machine.state new as).discards x = true ∨
        (x.pkt.hdr.packetCount = 0 ∧ (machine.state new as).frameStartTime = x.clock.startNow))
    (s := new) (p := []) ⟨follows_reset _, startedByFirst_nil _⟩
    (fun _ c hsafe hprev => ⟨hprev.1.call c, startedByFirst_call hprev.1 hprev.2 c hsafe⟩) calls h
  exact hrun.2

/-- The reassembler always works on the frame it was given exactly if no packet with the reserved
id does harm. -/
theorem alwaysOnItsFrame_iff (calls : List PlainCall) :
    AlwaysOnItsFrame calls ↔ ReservedIdHarmless calls := by
  constructor
  · rintro h ⟨before, c⟩ hy x rfl hnil hid
    cases hkept : (machine.state new before).discards x with
    | true => exact Or.inl rfl
    | false =>
      -- the packet is the first of its frame, but the idle fields were kept
      have hfollows := follows_run before
      obtain ⟨hcurrent, hexpected⟩ := hfollows.idle hnil
      obtain ⟨-, ⟨first, hfirst, -, hcount, htime⟩, -⟩ := h _ hy x rfl hkept
      rw [openFrame_concat, hfollows.session_pushPacket, hkept, hnil, ite_self] at hfirst
      obtain rfl : x = first := Option.some.inj hfirst
      simp only [OutputMachine.state_append, OutputMachine.state_cons, OutputMachine.state_nil,
        machine_step, call, pushPacket_of_not_discards hkept,
        enterFrame_same (hid.trans hcurrent.symm), store_expectedPacketCount,
        store_frameStartTime] at hcount htime
      exact Or.inr ⟨hcount.symm.trans hexpected, htime⟩
  · rintro h ⟨before, c⟩ hy x rfl hkept
    obtain ⟨after, rfl⟩ := mem_positions_iff.mp hy
    have hbefore : ReservedIdHarmless before := fun y hmem =>
      h y (mem_positions_append_left hmem _)
    have hstart := startedByFirst_pushPacket (follows_run before) (startedByFirst_run hbefore) hkept
      (fun hnil hid => (h _ hy x rfl hnil hid).resolve_left
        (by rw [hkept]; exact Bool.false_ne_true))
    have hworks := worksOn_of_pushPacket (follows_run before) hkept hstart
    rw [openFrame_concat, OutputMachine.state_append]
    exact hworks

def reservedIdRun : List PlainCall :=
  [.pushPacket ⟨{ hdr := ⟨1, 0, 1, 1⟩, payload := fun _ => 7 }, ⟨10000000000, 10000000000⟩⟩,
    .popFrame]

def reservedIdPush : TimedPush :=
  ⟨{ hdr := ⟨0xFFFFFFFF, 0, 1, 1⟩, payload := fun _ => 9 }, ⟨10000000001, 10000000001⟩⟩

/-- The packet is stored, but the announced count stays zero. -/
theorem not_alwaysOnItsFrame :
    ¬ ∀ calls : List PlainCall, (calls.flatMap PlainCall.readings).Pairwise (fun a b => a ≤ b) →
      AlwaysOnItsFrame calls := by
  intro h
  have hmem : (reservedIdRun, .pushPacket reservedIdPush) ∈
      positions (reservedIdRun ++ [.pushPacket reservedIdPush]) := by
    rw [positions_concat]
    exact List.mem_append_right _ List.mem_cons_self
  have hkept : (machine.state new reservedIdRun).discards reservedIdPush = false := by decide
  obtain ⟨-, ⟨first, hfirst, -, hcount, -⟩, -⟩ :=
    h _ (by decide) _ hmem reservedIdPush rfl hkept
  have hopen : (openFrame (reservedIdRun ++ [.pushPacket reservedIdPush])).head? =
      some reservedIdPush := rfl
  obtain rfl : reservedIdPush = first := Option.some.inj (hopen.symm.trans hfirst)
  exact absurd hcount (by decide)

end FrameReassembler

end HvFrame
