import AimSimulator.Controller.GenericAccesses
import AimSimulator.Dram.GDDR6
/-!
# The capacity of the request buffers

`enqueue` tests `buffer.size() <= max_size`, so a buffer that holds `max_size` requests takes one
more.  Both controllers are systems of bounded buffers; their buffers keep the capacity as long as
no request is offered to a full one, and never exceed it by more than one request.
-/

namespace AimSimulator.Controller

open Dram Occupancy

variable {Dev Cmd : Type}

/-! ## What the capacity asks for -/

/-- Every buffer holds at most `max_size` requests. -/
def Queues.WithinCapacity (c : Queues Cmd) : Prop :=
  ∀ id, (c.bufferOf id).size ≤ (c.bufferOf id).maxSize

/-- Each `enqueue` is refused exactly when its buffer holds `max_size` requests. -/
def Queues.RefusesFull (c : Queues Cmd) (accesses : List (Access BufferId)) : Prop :=
  EachOffer ReqBuffer.admits c.capacities
    (fun size maxSize => ReqBuffer.admits size maxSize = false ↔ maxSize ≤ size) c.sizes accesses

/-- No `enqueue` finds its buffer with `max_size` requests in it. -/
def Queues.FindsNoneFull (c : Queues Cmd) (accesses : List (Access BufferId)) : Prop :=
  EachOffer ReqBuffer.admits c.capacities (fun size maxSize => size ≠ maxSize) c.sizes accesses

instance (c : Queues Cmd) (accesses : List (Access BufferId)) :
    Decidable (c.RefusesFull accesses) :=
  EachOffer.decidable _ _ _ _ _

instance (c : Queues Cmd) (accesses : List (Access BufferId)) :
    Decidable (c.FindsNoneFull accesses) :=
  EachOffer.decidable _ _ _ _ _

theorem Queues.sizes_setup_le (id : BufferId) (n : Nat) : ({} : Queues Cmd).sizes id ≤ n := by
  cases id <;> exact Nat.zero_le n

/-! ## The controllers as systems of buffers -/

section

variable [DecidableEq Cmd] (iface : IDRAM Dev Cmd) {dev₀ : Dev}

namespace Chan

variable (params : Params)

def buffers : Occupancy.System (Chan Dev Cmd) (Call Cmd) BufferId where
  step s call := s.call iface params call
  admits := ReqBuffer.admits
  size s := s.ctl.toQueues.sizes
  capacity s := s.ctl.toQueues.capacities
  accesses s call := s.ctl.accesses iface params s.dev call
  size_step h := (call_accessed h).sizes
  capacity_step h := (call_accessed h).capacities

/-- Each `enqueue` of a call is refused exactly when its buffer holds `max_size` requests. -/
def RefusesFull (s : Chan Dev Cmd) (call : Call Cmd) : Prop :=
  s.ctl.toQueues.RefusesFull (s.ctl.accesses iface params s.dev call)

/-- No `enqueue` of a call finds its buffer with `max_size` requests in it. -/
def FindsNoneFull (s : Chan Dev Cmd) (call : Call Cmd) : Prop :=
  s.ctl.toQueues.FindsNoneFull (s.ctl.accesses iface params s.dev call)

instance (s : Chan Dev Cmd) (call : Call Cmd) : Decidable (s.RefusesFull iface params call) :=
  inferInstanceAs (Decidable (Queues.RefusesFull _ _))

instance (s : Chan Dev Cmd) (call : Call Cmd) : Decidable (s.FindsNoneFull iface params call) :=
  inferInstanceAs (Decidable (Queues.FindsNoneFull _ _))

variable {iface params}

theorem within_init {slack : Nat} (s : Chan Dev Cmd) (h : s = init iface dev₀) :
    (buffers iface params).Within slack s := by
  subst h
  exact fun id => Queues.sizes_setup_le id _

end Chan

namespace GenericChan

variable (params : GenericParams)

def buffers : Occupancy.System (GenericChan Dev Cmd) (Call Cmd) BufferId where
  step s call := s.call iface params call
  admits := ReqBuffer.admits
  size s := s.ctl.toQueues.sizes
  capacity s := s.ctl.toQueues.capacities
  accesses s call := s.ctl.accesses iface params s.dev call
  size_step h := (call_accessed h).sizes
  capacity_step h := (call_accessed h).capacities

/-- Each `enqueue` of a call is refused exactly when its buffer holds `max_size` requests. -/
def RefusesFull (s : GenericChan Dev Cmd) (call : Call Cmd) : Prop :=
  s.ctl.toQueues.RefusesFull (s.ctl.accesses iface params s.dev call)

/-- No `enqueue` of a call finds its buffer with `max_size` requests in it. -/
def FindsNoneFull (s : GenericChan Dev Cmd) (call : Call Cmd) : Prop :=
  s.ctl.toQueues.FindsNoneFull (s.ctl.accesses iface params s.dev call)

instance (s : GenericChan Dev Cmd) (call : Call Cmd) :
    Decidable (s.RefusesFull iface params call) :=
  inferInstanceAs (Decidable (Queues.RefusesFull _ _))

instance (s : GenericChan Dev Cmd) (call : Call Cmd) :
    Decidable (s.FindsNoneFull iface params call) :=
  inferInstanceAs (Decidable (Queues.FindsNoneFull _ _))

variable {iface params}

theorem within_init {slack : Nat} (s : GenericChan Dev Cmd) (h : s = init iface dev₀) :
    (buffers iface params).Within slack s := by
  subst h
  exact fun id => Queues.sizes_setup_le id _

end GenericChan

end

/-- A buffer refuses as it should if and only if it is not exactly full.  A run in which no
`enqueue` finds its buffer full keeps every buffer within `max_size`, and there a call keeps it so,
refusing exactly what finds its buffer full, if and only if it goes on like that. -/
theorem buffers_within_capacity_iff [DecidableEq Cmd] (iface : IDRAM Dev Cmd)
    (params : GenericParams) (dev₀ : Dev) :
    (∀ (b : ReqBuffer Cmd) (q : Queued Cmd),
      (b.enqueue q = none ↔ b.maxSize ≤ b.size) ↔ b.size ≠ b.maxSize) ∧
    (∀ s : Chan Dev Cmd,
      Chan.CallRun iface params.toParams dev₀ (Chan.FindsNoneFull iface params.toParams) s →
        s.ctl.WithinCapacity ∧ ∀ call t, s.call iface params.toParams call = some t →
          ((t.ctl.WithinCapacity ∧ s.RefusesFull iface params.toParams call) ↔
            s.FindsNoneFull iface params.toParams call)) ∧
    ∀ s : GenericChan Dev Cmd,
      GenericChan.Run iface params dev₀ (GenericChan.FindsNoneFull iface params) s →
        s.ctl.WithinCapacity ∧ ∀ call t, s.call iface params call = some t →
          ((t.ctl.WithinCapacity ∧ s.RefusesFull iface params call) ↔
            s.FindsNoneFull iface params call) := by
  refine ⟨fun b q => ?_, fun s hr => ?_, fun s hr => ?_⟩
  · rw [ReqBuffer.enqueue_eq_none_iff, ReqBuffer.admits, decide_eq_false_iff_not]
    omega
  · have hwithin := System.within_of_no_full (S := Chan.buffers iface params.toParams)
      (fun _ _ => rfl) Chan.within_init hr
    exact ⟨hwithin, fun call t hstep => System.step_iff_no_full (fun _ _ => rfl) hwithin hstep⟩
  · have hwithin := System.within_of_no_full (S := GenericChan.buffers iface params)
      (fun _ _ => rfl) GenericChan.within_init hr
    exact ⟨hwithin, fun call t hstep => System.step_iff_no_full (fun _ _ => rfl) hwithin hstep⟩

/-! ## Thirty-three requests -/

def aimParams : GenericParams where
  channelId := 0
  readLatency := 52

/-- A `MAC_ABK` instruction of the channel. -/
def aMac : Request where
  type := .AIM
  opcode := .ISR_MAC_ABK
  addrVec := [0, -1, -1, 7, 0]

def aWrite (row : Nat) : Request where
  type := .Write
  addr := row
  addrVec := [0, 0, 0, row, 0]

def macs (n : Nat) : List (Call GDDR6.Cmd) := (List.replicate n [.send aMac, .tick []]).flatten

def writes (n : Nat) : List (Call GDDR6.Cmd) := (List.range n).map fun row => .send (aWrite row)

/-- Thirty-two requests fill a buffer. -/
theorem buffers_within_capacity_iff_32 :
    (∃ s : Chan GDDR6.aimModel.Dev GDDR6.Cmd, s.ctl.aimBuffer.size = 32 ∧ s.ctl.WithinCapacity) ∧
      ∃ s : GenericChan GDDR6.aimModel.Dev GDDR6.Cmd,
        s.ctl.writeBuffer.size = 32 ∧ s.ctl.WithinCapacity := by
  have haim : ((Runs.replay (Chan.call GDDR6.aimModel.idram aimParams.toParams)
      (fun s call => decide (s.FindsNoneFull GDDR6.aimModel.idram aimParams.toParams call))
      (Chan.init GDDR6.aimModel.idram GDDR6.x16Device) (macs 32)).any
        fun s => s.ctl.aimBuffer.size = 32) = true := by
    decide +kernel
  have hwrite : ((Runs.replay (GenericChan.call GDDR6.aimModel.idram aimParams)
      (fun s call => decide (s.FindsNoneFull GDDR6.aimModel.idram aimParams call))
      (GenericChan.init GDDR6.aimModel.idram GDDR6.x16Device) (writes 32)).any
        fun s => s.ctl.writeBuffer.size = 32) = true := by
    decide +kernel
  obtain ⟨s, hs, hsize⟩ := Option.any_eq_true .. |>.mp haim
  obtain ⟨s', hs', hsize'⟩ := Option.any_eq_true .. |>.mp hwrite
  obtain ⟨-, hchan, hgeneric⟩ :=
    buffers_within_capacity_iff GDDR6.aimModel.idram aimParams GDDR6.x16Device
  exact ⟨⟨s, of_decide_eq_true hsize,
      (hchan s (Runs.replay_reachable (fun _ _ => of_decide_eq_true) (.start rfl) hs)).1⟩,
    s', of_decide_eq_true hsize',
    (hgeneric s' (Runs.replay_reachable (fun _ _ => of_decide_eq_true) (.start rfl) hs')).1⟩

/-- A full AiM buffer that takes another request, and still holds it after the next tick. -/
def takesAnother (s : Chan GDDR6.aimModel.Dev GDDR6.Cmd) : Bool :=
  s.ctl.aimBuffer.size = 32 && s.ctl.aimBuffer.maxSize = 32 &&
    !decide (s.RefusesFull GDDR6.aimModel.idram aimParams.toParams (.send aMac)) &&
    (s.call GDDR6.aimModel.idram aimParams.toParams (.send aMac)).any fun t =>
      (t.call GDDR6.aimModel.idram aimParams.toParams (.tick [])).any fun u =>
        u.ctl.aimBuffer.size = 33 && u.ctl.aimBuffer.maxSize < u.ctl.aimBuffer.size

/-- The thirty-third request is taken too: by the AiM buffer of an AiM controller that gets one in
each cycle, and by the write buffer of a generic controller. -/
theorem full_buffer_takes_request :
    (∃ s : Chan GDDR6.aimModel.Dev GDDR6.Cmd,
      Chan.CallRun GDDR6.aimModel.idram aimParams.toParams GDDR6.x16Device (fun _ _ => True) s ∧
        s.ctl.aimBuffer.size = 32 ∧ s.ctl.aimBuffer.maxSize = 32 ∧
        ¬ s.RefusesFull GDDR6.aimModel.idram aimParams.toParams (.send aMac) ∧
        ∃ t u, s.call GDDR6.aimModel.idram aimParams.toParams (.send aMac) = some t ∧
          t.call GDDR6.aimModel.idram aimParams.toParams (.tick []) = some u ∧
          u.ctl.aimBuffer.size = 33 ∧ ¬ u.ctl.WithinCapacity) ∧
    ∃ s : GenericChan GDDR6.aimModel.Dev GDDR6.Cmd,
      GenericChan.Run GDDR6.aimModel.idram aimParams GDDR6.x16Device (fun _ _ => True) s ∧
        s.ctl.writeBuffer.size = 33 ∧ ¬ s.ctl.WithinCapacity := by
  have haim : ((Runs.replay (Chan.call GDDR6.aimModel.idram aimParams.toParams) (fun _ _ => true)
      (Chan.init GDDR6.aimModel.idram GDDR6.x16Device) (macs 32)).any takesAnother) = true := by
    decide +kernel
  have hwrite : ((Runs.replay (GenericChan.call GDDR6.aimModel.idram aimParams) (fun _ _ => true)
      (GenericChan.init GDDR6.aimModel.idram GDDR6.x16Device) (writes 33)).any fun s =>
        s.ctl.writeBuffer.size = 33 && s.ctl.writeBuffer.maxSize < s.ctl.writeBuffer.size) =
          true := by
    decide +kernel
  obtain ⟨s, hs, htest⟩ := Option.any_eq_true .. |>.mp haim
  obtain ⟨s', hs', htest'⟩ := Option.any_eq_true .. |>.mp hwrite
  simp only [takesAnother, Bool.and_eq_true, decide_eq_true_eq, Bool.not_eq_true',
    decide_eq_false_iff_not, Option.any_eq_true] at htest htest'
  obtain ⟨⟨⟨hsize, hmax⟩, hanswer⟩, t, ht, u, hu, hsize', hover⟩ := htest
  refine ⟨⟨s, Runs.replay_reachable (fun _ _ _ => trivial) (.start rfl) hs, hsize, hmax, hanswer,
      t, u, ht, hu, hsize', fun hwithin => ?_⟩,
    s', Runs.replay_reachable (fun _ _ _ => trivial) (.start rfl) hs', htest'.1, fun hwithin => ?_⟩
  · exact Nat.not_le.mpr hover (hwithin .aim)
  · exact Nat.not_le.mpr htest'.2 (hwithin .write)

end AimSimulator.Controller
