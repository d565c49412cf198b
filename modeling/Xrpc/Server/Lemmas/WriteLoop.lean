import Xrpc.Server.WriteLoop

/-!
# 接続の書き込み側の不変条件
-/

namespace Xrpc.Server.ConnectionCore
open Xrpc.Lib

variable {limits : BackpressureLimits} {others liveOthers : Nat} {c : ConnectionCore} {refused : Bool}

/-! ## 閉じること -/

theorem close_of_closed (h : c.state = .closed) : c.close = c := if_pos h

theorem close_eq (h : c.state ≠ .closed) :
    c.close = { c with
      state := .closed
      writeQueue := []
      pendingWriteBytes := 0
      writeQueueWaiter := false
      writeLoop := if c.writeQueueWaiter then .returned else c.writeLoop
      ownerPendingWriteBytes := c.ownerPendingWriteBytes - c.pendingWriteBytes + 0
      ownerLiveConnections :=
        if c.faults.cancelFd.isNone ∧ c.ownerLiveConnections > 0 then c.ownerLiveConnections - 1
        else c.ownerLiveConnections
      assertsHold := c.assertsHold && (c.ownerPendingWriteBytes ≥ c.pendingWriteBytes)
      effects :=
        c.effects ++ if c.faults.cancelFd.isSome then [.cancelFd] else [.cancelFd, .closeSocket, .onClosed]
      throwing := if c.faults.cancelFd.isSome then c.faults.cancelFd else c.throwing
      cancelFdThrew := c.faults.cancelFd.isSome || c.cancelFdThrew } := by
  rw [close, if_neg h, cancelAndClose]
  cases hcancel : c.faults.cancelFd <;>
    simp [call, wakeClosed, recordWriteBytesChange, check, onConnectionClosed, hcancel]

@[simp]
theorem close_state : c.close.state = .closed := by
  by_cases h : c.state = .closed
  · rw [close_of_closed h, h]
  · rw [close_eq h]

@[simp]
theorem close_inflightRequests : c.close.inflightRequests = c.inflightRequests := by
  by_cases h : c.state = .closed
  · rw [close_of_closed h]
  · rw [close_eq h]

@[simp]
theorem close_accepted : c.close.accepted = c.accepted := by
  by_cases h : c.state = .closed
  · rw [close_of_closed h]
  · rw [close_eq h]

@[simp]
theorem close_drained : c.close.drained = c.drained := by
  by_cases h : c.state = .closed
  · rw [close_of_closed h]
  · rw [close_eq h]

/-! ## 不変条件 -/

/-- `on_closed_` が呼ばれている。 -/
def notified (c : ConnectionCore) : Bool := c.state = .closed ∧ c.cancelFdThrew = false

theorem notified_of_open (h : c.state ≠ .closed) : c.notified = false := by
  simp [notified, h]

/-- `Close` が最後に外へ出す呼び出し。 -/
def lastEffects (c : ConnectionCore) : List Effect :=
  if c.cancelFdThrew then [.cancelFd] else [.cancelFd, .closeSocket, .onClosed]

/-- 歩みの途中でも成り立つこと。`others` と `liveOthers` は、持ち主の数のうち、ほかの接続の分である。 -/
structure Sound (limits : BackpressureLimits) (others liveOthers : Nat) (c : ConnectionCore) : Prop where
  asserts : c.assertsHold = true
  waiter : c.writeQueueWaiter = true ↔ c.writeLoop = .waiting
  closed : c.state = .closed → c.pendingWriteBytes = 0 ∧ c.writeQueue = []
  le_max : c.pendingWriteBytes ≤ limits.maxWriteQueueBytes
  owner : c.ownerPendingWriteBytes = others + c.pendingWriteBytes
  live : c.ownerLiveConnections = liveOthers + if c.notified then 0 else 1
  onClosed : c.effects.count .onClosed = if c.notified then 1 else 0
  threw : c.cancelFdThrew = true → c.state = .closed
  ending : c.state = .closed → ∃ before, c.effects = before ++ c.lastEffects

/-- 歩みの間に成り立つこと。閉じるまでは、数えたバイト数は列と手元の束の大きさに例外で取り残された数を足したものであり、送ったもの、
送り残し、例外で失ったもの、列をつなぐと、受け付けた書き込みになる。 -/
structure WriteInv (limits : BackpressureLimits) (others liveOthers : Nat) (c : ConnectionCore) : Prop
    extends Sound limits others liveOthers c where
  awake : c.writeLoop = .waiting → c.state ≠ .closed
  idle : c.writeLoop = .waiting ∨ c.writeLoop = .unstarted → c.writeQueue = []
  pending : c.state ≠ .closed → c.pendingWriteBytes = c.writeQueue.flatten.length + c.writeLoop.held + c.strandedBytes
  nonempty : ∀ bytes ∈ c.writeQueue, bytes ≠ []
  offset : ∀ batch offset, c.writeLoop = .sending batch offset → offset < batch.length
  wire : c.state ≠ .closed → c.sent ++ c.writeLoop.unsent ++ c.lostBytes ++ c.writeQueue.flatten = c.accepted.flatten
  lost : c.lostBytes ≠ [] → c.writeLoop = .returned
  lost_le : c.lostBytes.length ≤ c.strandedBytes
  drained : c.drained = true →
    c.state = .closed ∧ c.inflightRequests = 0 ∧ c.sent = c.accepted.flatten ∧ c.strandedBytes = 0

theorem Sound.not_threw (h : Sound limits others liveOthers c) (hopen : c.state ≠ .closed) : c.cancelFdThrew = false := by
  by_contra hne
  exact hopen (h.threw (by simpa using hne))

theorem WriteInv.lost_eq_nil (h : WriteInv limits others liveOthers c) (hloop : c.writeLoop ≠ .returned) :
    c.lostBytes = [] := by
  by_contra hne
  exact hloop (h.lost hne)

theorem WriteInv.not_drained (h : WriteInv limits others liveOthers c) (hopen : c.state ≠ .closed) : c.drained = false := by
  by_contra hne
  exact hopen (h.drained (by simpa using hne)).1

/-- 閉じた接続が外へ出した呼び出しは、`Close` のもので終わる。 -/
theorem Sound.ends (h : Sound limits others liveOthers c) (hclosed : c.state = .closed) :
    ∃ before, .onClosed ∉ before ∧ c.effects = before ++ c.lastEffects := by
  obtain ⟨before, heffects⟩ := h.ending hclosed
  have hcount := h.onClosed
  refine ⟨before, List.count_eq_zero.mp ?_, heffects⟩
  rw [heffects, List.count_append, lastEffects, notified, hclosed] at hcount
  cases hthrew : c.cancelFdThrew <;> simp [hthrew] at hcount <;> simp [hcount]

/-- 閉じた後は、書き込みの側は空である。 -/
theorem Sound.close (h : Sound limits others liveOthers c) (hopen : c.state ≠ .closed)
    (hoffset : ∀ batch offset, c.writeLoop = .sending batch offset → offset < batch.length)
    (hlost : c.lostBytes ≠ [] → c.writeLoop = .returned) (hlostLe : c.lostBytes.length ≤ c.strandedBytes)
    (hdrained : c.drained = true → c.inflightRequests = 0 ∧ c.sent = c.accepted.flatten ∧ c.strandedBytes = 0) :
    WriteInv limits others liveOthers c.close := by
  have hlive := h.live
  have hcount := h.onClosed
  have hthrew := h.not_threw hopen
  rw [notified_of_open hopen, if_neg Bool.false_ne_true] at hlive hcount
  have hawake : (if c.writeQueueWaiter then WriteLoop.returned else c.writeLoop) ≠ .waiting := by
    intro hwaiting
    split at hwaiting
    next => cases hwaiting
    next hwaiter => exact hwaiter (h.waiter.mpr hwaiting)
  rw [close_eq hopen]
  constructor
  · constructor
    · simp [h.asserts, h.owner]
    · exact iff_of_false nofun hawake
    · exact fun _ => ⟨rfl, rfl⟩
    · exact Nat.zero_le _
    · simp [h.owner]
    · cases hcancel : c.faults.cancelFd <;> simp [notified, hlive, hthrew]
    · cases hcancel : c.faults.cancelFd <;> simp [notified, hcount, hthrew]
    · exact fun _ => rfl
    · exact fun _ => ⟨c.effects, by simp [lastEffects, hthrew]⟩
  · exact fun hwaiting => absurd hwaiting hawake
  · exact fun _ => rfl
  · exact fun hne => absurd rfl hne
  · nofun
  · intro batch offset hpc
    split at hpc
    next => cases hpc
    next => exact hoffset batch offset hpc
  · exact fun hne => absurd rfl hne
  · intro hne
    simp [hlost hne]
  · exact hlostLe
  · exact fun hd => ⟨rfl, hdrained hd⟩

theorem WriteInv.close (h : WriteInv limits others liveOthers c) : WriteInv limits others liveOthers c.close := by
  by_cases hopen : c.state = .closed
  · rwa [close_of_closed hopen]
  · refine h.toSound.close hopen h.offset h.lost h.lost_le fun hd => ?_
    rw [h.not_drained hopen] at hd
    cases hd

/-! ## 待ちと送信 -/

/-- 閉じた後に `WriteLoop` が返る。 -/
theorem WriteInv.setReturned (h : WriteInv limits others liveOthers c) (hclosed : c.state = .closed)
    {throwing : Option Exception} :
    WriteInv limits others liveOthers { c with writeLoop := .returned, throwing := throwing } where
  asserts := h.asserts
  waiter := iff_of_false (fun hwaiter => h.awake (h.waiter.mp hwaiter) hclosed) nofun
  closed := h.closed
  le_max := h.le_max
  owner := h.owner
  live := h.live
  onClosed := h.onClosed
  threw := h.threw
  ending := h.ending
  awake := nofun
  idle := by simp
  pending hopen := absurd hclosed hopen
  nonempty := h.nonempty
  offset := nofun
  wire hopen := absurd hclosed hopen
  lost _ := rfl
  lost_le := h.lost_le
  drained := h.drained

theorem Sound.releaseWriteBytes (h : Sound limits others liveOthers c) (bytes : Nat) (hbytes : bytes ≤ c.pendingWriteBytes)
    (hopen : c.state ≠ .closed) : Sound limits others liveOthers (c.releaseWriteBytes bytes) where
  asserts := by
    have := h.owner
    simp [ConnectionCore.releaseWriteBytes, recordWriteBytesChange, check, h.asserts]
    omega
  waiter := h.waiter
  closed hclosed := absurd hclosed hopen
  le_max := by
    have := h.le_max
    simp only [ConnectionCore.releaseWriteBytes, recordWriteBytesChange, check]
    omega
  owner := by
    have := h.owner
    simp only [ConnectionCore.releaseWriteBytes, recordWriteBytesChange, check]
    omega
  live := h.live
  onClosed := h.onClosed
  threw := h.threw
  ending := h.ending

theorem WriteInv.failSend (h : WriteInv limits others liveOthers c) {batch : Bytes} {offset : Nat}
    (hloop : c.writeLoop = .sending batch offset) (hopen : c.state ≠ .closed) :
    WriteInv limits others liveOthers (c.failSend batch) := by
  have hbytes : batch.length ≤ c.pendingWriteBytes := by
    rw [h.pending hopen, hloop, WriteLoop.held]
    omega
  refine ((h.toSound.releaseWriteBytes _ hbytes hopen).close hopen h.offset h.lost h.lost_le
    fun hdrained => ?_).setReturned close_state
  rw [show (c.releaseWriteBytes batch.length).drained = c.drained from rfl, h.not_drained hopen] at hdrained
  cases hdrained

/-- 開いている間の呼び出しは、`on_closed_` でない。 -/
theorem WriteInv.call (h : WriteInv limits others liveOthers c) {effects : List Effect}
    (heffects : effects.count .onClosed = 0) (hopen : c.state ≠ .closed) :
    WriteInv limits others liveOthers (c.call effects) :=
  { h with
    onClosed := List.count_append.trans (by rw [heffects]; exact h.onClosed)
    ending := fun hclosed => absurd hclosed hopen }

/-- 送信の開始が投げると、束は数えられたまま失われる。 -/
theorem WriteInv.throwSend (h : WriteInv limits others liveOthers c) {batch : Bytes} {offset : Nat}
    (hloop : c.writeLoop = .sending batch offset) (hopen : c.state ≠ .closed) :
    WriteInv limits others liveOthers (c.throwSend batch offset) := by
  have hpending := h.pending hopen
  have hwire := h.wire hopen
  have hlost := h.lost_eq_nil (by rw [hloop]; nofun)
  rw [hloop, WriteLoop.held] at hpending
  rw [hloop, hlost, WriteLoop.unsent, List.append_nil] at hwire
  exact { h with
    waiter := iff_of_false (fun hwaiter => by rw [h.waiter.mp hwaiter] at hloop; cases hloop) nofun
    awake := nofun
    idle := by simp [ConnectionCore.throwSend]
    pending := fun _ => by
      simp only [ConnectionCore.throwSend, WriteLoop.held]
      omega
    offset := nofun
    wire := fun _ => by simpa [ConnectionCore.throwSend, WriteLoop.unsent] using hwire
    lost := fun _ => rfl
    lost_le := by
      simp only [ConnectionCore.throwSend, List.length_drop]
      omega
    drained := fun hdrained => absurd (h.drained hdrained).1 hopen }

theorem WriteInv.startSend {batch : Bytes} {offset : Nat}
    (h : WriteInv limits others liveOthers { c with writeLoop := .sending batch offset }) (hopen : c.state ≠ .closed) :
    WriteInv limits others liveOthers (c.startSend refused batch offset) := by
  have hcall := h.call (show [Effect.send (batch.drop offset)].count .onClosed = 0 from rfl) hopen
  rw [ConnectionCore.startSend]
  split
  next => exact hcall.throwSend rfl hopen
  next =>
    split
    next => exact hcall.failSend rfl hopen
    next => exact hcall

theorem WriteInv.awaitSuspend (h : WriteInv limits others liveOthers c) (hloop : c.writeLoop.held = 0)
    (hunsent : c.writeLoop.unsent = []) (hnot : c.writeLoop ≠ .waiting) (hrunning : c.writeLoop ≠ .returned)
    (hopen : c.state ≠ .closed)
    (hqueue : c.writeQueue = []) : WriteInv limits others liveOthers c.awaitSuspend where
  asserts := by
    have hwaiter : c.writeQueueWaiter = false := by
      by_contra hne
      exact hnot (h.waiter.mp (by simpa using hne))
    simp [ConnectionCore.awaitSuspend, check, h.asserts, hwaiter]
  waiter := iff_of_true rfl rfl
  closed := h.closed
  le_max := h.le_max
  owner := h.owner
  live := h.live
  onClosed := h.onClosed
  threw := h.threw
  ending := h.ending
  awake _ := hopen
  idle _ := hqueue
  pending _ := by
    have := h.pending hopen
    rw [hloop] at this
    exact this
  nonempty := h.nonempty
  offset := nofun
  wire _ := by
    have := h.wire hopen
    rw [hunsent] at this
    exact this
  lost hne := absurd (h.lost hne) hrunning
  lost_le := h.lost_le
  drained := h.drained

/-! ## 束ねること -/

/-- 束は列の先頭のいくつかをつないだもので、二つ以上をつないだものは上限を越えない。 -/
theorem coalesce_spec (batch : Bytes) (queue : List Bytes) :
    ∃ taken, queue = taken ++ (coalesce batch queue).2 ∧ (coalesce batch queue).1 = batch ++ taken.flatten ∧
      (taken = [] ∨ (coalesce batch queue).1.length ≤ MAX_WRITE_BATCH_BYTES) := by
  induction queue generalizing batch with
  | nil => exact ⟨[], rfl, by simp [coalesce], .inl rfl⟩
  | cons next rest ih =>
      rw [coalesce]
      split
      next hfits =>
        obtain ⟨taken, hqueue, hbatch, hlen⟩ := ih (batch ++ next)
        refine ⟨next :: taken, by rw [List.cons_append, ← hqueue], by rw [hbatch]; simp, .inr ?_⟩
        rcases hlen with rfl | hlen
        · rw [hbatch]
          simpa using hfits
        · exact hlen
      next => exact ⟨[], rfl, by simp, .inl rfl⟩

theorem takeWriteBatch_spec {queue : List Bytes} (h : queue ≠ []) :
    ∃ first taken, queue = first :: taken ++ (takeWriteBatch queue).2 ∧
      (takeWriteBatch queue).1 = (first :: taken).flatten ∧
      (taken = [] ∨ (takeWriteBatch queue).1.length ≤ MAX_WRITE_BATCH_BYTES) := by
  cases queue with
  | nil => exact absurd rfl h
  | cons first rest =>
      obtain ⟨taken, hqueue, hbatch, hlen⟩ := coalesce_spec first rest
      exact ⟨first, taken, by rw [List.cons_append]; exact congrArg (first :: ·) hqueue, hbatch, hlen⟩

/-! ## 落ち着く位置 -/

/-- 歩みの間の `WriteLoop` の位置。書き込みを待つのは、閉じる前だけである。 -/
def Resting (c : ConnectionCore) : Prop :=
  c.writeLoop = .returned ∨ (∃ batch offset, c.writeLoop = .sending batch offset) ∨
    (c.writeLoop = .waiting ∧ c.state ≠ .closed)

theorem WriteInv.tryFinishDrain (h : WriteInv limits others liveOthers c) :
    WriteInv limits others liveOthers c.tryFinishDrain := by
  rw [ConnectionCore.tryFinishDrain]
  split
  next => exact h
  next hdraining =>
    have hopen : c.state ≠ .closed := by
      intro hclosed
      exact hdraining (by rw [hclosed]; nofun)
    split
    next hzero =>
      -- 数が零なら、列も手元の束も空で、受け付けたものはすべて送られている
      have hpending := h.pending hopen
      rw [hzero.2] at hpending
      have hflat : c.writeQueue.flatten = [] := List.eq_nil_of_length_eq_zero (by omega)
      have hqueue : c.writeQueue = [] := by
        rw [List.eq_nil_iff_forall_not_mem]
        intro bytes hmem
        exact h.nonempty bytes hmem (List.flatten_eq_nil_iff.mp hflat bytes hmem)
      have hunsent : c.writeLoop.unsent = [] := by
        cases hloop : c.writeLoop with
        | sending batch offset =>
            rw [hloop, WriteLoop.held] at hpending
            rw [WriteLoop.unsent, List.drop_eq_nil_of_le (by omega)]
        | _ => rfl
      have hstranded : c.strandedBytes = 0 := by omega
      have hlost : c.lostBytes = [] := List.eq_nil_of_length_eq_zero (Nat.le_zero.mp (hstranded ▸ h.lost_le))
      have hwire := h.wire hopen
      rw [hunsent, hlost, hflat, List.append_nil, List.append_nil, List.append_nil] at hwire
      refine Sound.close (c := { c.check c.writeQueue.isEmpty with drained := true })
        { h.toSound with asserts := by simp [check, h.asserts, hqueue] } hopen h.offset h.lost h.lost_le
        fun _ => ⟨hzero.1, hwire, hstranded⟩
    next => exact h

theorem WriteInv.setDraining (h : WriteInv limits others liveOthers c) (hactive : c.state = .active) :
    WriteInv limits others liveOthers { c with state := .draining } := by
  have hopen : c.state ≠ .closed := by rw [hactive]; nofun
  have hlive := h.live
  have hcount := h.onClosed
  rw [notified_of_open hopen] at hlive hcount
  exact { h with
    closed := nofun
    live := by rw [notified_of_open (by nofun)]; exact hlive
    onClosed := by rw [notified_of_open (by nofun)]; exact hcount
    threw := fun hthrew => absurd (h.threw hthrew) hopen
    ending := nofun
    awake := fun _ => nofun
    pending := fun _ => h.pending hopen
    wire := fun _ => h.wire hopen
    drained := fun hdrained => absurd (h.drained hdrained).1 hopen }

theorem WriteInv.beginDrain (h : WriteInv limits others liveOthers c) :
    WriteInv limits others liveOthers c.beginDrain := by
  rw [ConnectionCore.beginDrain]
  split
  next => exact h
  next hactive => exact ((h.setDraining (by simpa using hactive)).call rfl nofun).tryFinishDrain

/-! ## 書き込みの繰り返し -/

theorem tryFinishDrain_writeLoop (h : c.writeLoop = .running) (hwaiter : c.writeQueueWaiter = false) :
    c.tryFinishDrain.writeLoop = .running := by
  rw [tryFinishDrain]
  split
  next => exact h
  next hdraining =>
    split
    next =>
      rw [close_eq (by intro hclosed; exact hdraining (by rw [show c.state = _ from hclosed]; nofun))]
      simp [check, h, hwaiter]
    next => exact h

theorem WriteInv.waiter_eq_false (h : WriteInv limits others liveOthers c) (hloop : c.writeLoop ≠ .waiting) :
    c.writeQueueWaiter = false := by
  by_contra hne
  exact hloop (h.waiter.mp (by simpa using hne))

theorem tryFinishDrain_writeQueue (hqueue : c.writeQueue = []) : c.tryFinishDrain.writeQueue = [] := by
  rw [tryFinishDrain]
  split
  next => exact hqueue
  next hdraining =>
    split
    next => rw [close_eq (by intro hclosed; exact hdraining (by rw [show c.state = _ from hclosed]; nofun))]
    next => exact hqueue

theorem WriteInv.finishWrites (h : WriteInv limits others liveOthers c) (hloop : c.writeLoop = .running)
    (hqueue : c.writeQueue = []) :
    WriteInv limits others liveOthers c.finishWrites ∧ c.finishWrites.Resting := by
  have hwaiter := h.waiter_eq_false (by rw [hloop]; nofun)
  have hrunning := tryFinishDrain_writeLoop hloop hwaiter
  rw [ConnectionCore.finishWrites]
  split
  next hclosed => exact ⟨h.tryFinishDrain.setReturned hclosed, .inl rfl⟩
  next hopen =>
    refine ⟨h.tryFinishDrain.awaitSuspend ?_ ?_ ?_ ?_ hopen (tryFinishDrain_writeQueue hqueue), .inr (.inr ⟨rfl, hopen⟩)⟩
    · rw [hrunning]; rfl
    · rw [hrunning]; rfl
    · rw [hrunning]; nofun
    · rw [hrunning]; nofun

theorem startSend_resting {batch : Bytes} {offset : Nat} : (c.startSend refused batch offset).Resting := by
  rw [startSend]
  split
  next => exact .inl rfl
  next =>
    split
    next => exact .inl rfl
    next => exact .inr (.inl ⟨batch, offset, rfl⟩)

/-- 列の先頭の束を手元に移す。 -/
theorem WriteInv.takeBatch (h : WriteInv limits others liveOthers c) (hloop : c.writeLoop = .running)
    (hopen : c.state ≠ .closed) (hqueue : c.writeQueue ≠ []) :
    (takeWriteBatch c.writeQueue).1 ≠ [] ∧
      WriteInv limits others liveOthers
        { c with
          writeQueue := (takeWriteBatch c.writeQueue).2
          writeLoop := .sending (takeWriteBatch c.writeQueue).1 0 } := by
  obtain ⟨first, taken, hsplit, hbatch, _⟩ := takeWriteBatch_spec hqueue
  have hflat : c.writeQueue.flatten = (takeWriteBatch c.writeQueue).1 ++ (takeWriteBatch c.writeQueue).2.flatten := by
    rw [hbatch, ← List.flatten_append, ← hsplit]
  have hfirst : first ≠ [] := h.nonempty first (by rw [hsplit]; exact List.mem_append_left _ List.mem_cons_self)
  have hne : (takeWriteBatch c.writeQueue).1 ≠ [] := by
    rw [hbatch, List.flatten_cons]
    exact fun hnil => hfirst (List.append_eq_nil_iff.mp hnil).1
  have hpending := h.pending hopen
  have hwire := h.wire hopen
  rw [hloop, hflat] at hpending hwire
  refine ⟨hne, { h with
    waiter := iff_of_false (by rw [h.waiter_eq_false (by rw [hloop]; nofun)]; nofun) nofun
    closed := fun hclosed => absurd hclosed hopen
    awake := nofun
    idle := by simp
    pending := fun _ => ?_
    nonempty := fun bytes hmem => h.nonempty bytes (by rw [hsplit]; exact List.mem_append_right _ hmem)
    offset := ?_
    wire := fun _ => ?_
    lost := fun hne => absurd (h.lost_eq_nil (by rw [hloop]; nofun)) hne }⟩
  · rw [hpending, List.length_append]
    simp only [WriteLoop.held]
    omega
  · rintro batch offset ⟨⟩
    exact List.length_pos_of_ne_nil hne
  · rw [h.lost_eq_nil (by rw [hloop]; nofun)] at hwire ⊢
    simpa [WriteLoop.unsent] using hwire

theorem WriteInv.writeBatches (h : WriteInv limits others liveOthers c) (hloop : c.writeLoop = .running) {fuel : Nat}
    (hfuel : c.writeQueue.length ≤ fuel) :
    WriteInv limits others liveOthers (c.writeBatches refused fuel) ∧ (c.writeBatches refused fuel).Resting := by
  cases fuel with
  | zero => exact h.finishWrites hloop (List.eq_nil_of_length_eq_zero (Nat.le_zero.mp hfuel))
  | succ fuel =>
      rw [ConnectionCore.writeBatches]
      split
      next hstop =>
        refine h.finishWrites hloop ?_
        rcases hstop with hclosed | hqueue
        · exact (h.closed hclosed).2
        · exact hqueue
      next hgo =>
        obtain ⟨hopen, hqueue⟩ := not_or.mp hgo
        obtain ⟨hne, hsending⟩ := h.takeBatch hloop hopen hqueue
        simp only [List.length_eq_zero_iff, hne, if_false]
        exact ⟨WriteInv.startSend (c := { c with writeQueue := (takeWriteBatch c.writeQueue).2 }) hsending hopen,
          startSend_resting⟩

theorem WriteInv.runWriteLoop
    (h : WriteInv limits others liveOthers { c with writeLoop := .running }) :
    WriteInv limits others liveOthers (c.runWriteLoop refused) ∧ (c.runWriteLoop refused).Resting :=
  h.writeBatches rfl (Nat.le_refl _)

theorem WriteInv.startWriteLoop (h : WriteInv limits others liveOthers c) (refused : Bool) (hloop : c.writeLoop = .unstarted)
    (hopen : c.state ≠ .closed) :
    WriteInv limits others liveOthers (c.startWriteLoop refused) ∧ (c.startWriteLoop refused).Resting := by
  have hqueue := h.idle (.inr hloop)
  rw [ConnectionCore.startWriteLoop, if_neg hopen, if_pos hqueue]
  refine ⟨h.awaitSuspend ?_ ?_ ?_ ?_ hopen hqueue, .inr (.inr ⟨rfl, hopen⟩)⟩
  · rw [hloop]; rfl
  · rw [hloop]; rfl
  · rw [hloop]; nofun
  · rw [hloop]; nofun

theorem WriteInv.sendCompleted (h : WriteInv limits others liveOthers c) (refused : Bool) (hrest : c.Resting)
    (result : Option Nat) :
    WriteInv limits others liveOthers (c.sendCompleted refused result) ∧ (c.sendCompleted refused result).Resting := by
  rw [ConnectionCore.sendCompleted]
  split
  next batch offset hloop =>
    have hoffset := h.offset batch offset hloop
    split
    next hclosed => exact ⟨h.setReturned hclosed, .inl rfl⟩
    next hopen =>
      have hpending := h.pending hopen
      have hwire := h.wire hopen
      have hlost := h.lost_eq_nil (by rw [hloop]; nofun)
      rw [hloop] at hpending hwire
      rw [hlost] at hwire
      simp only [WriteLoop.held, WriteLoop.unsent, List.append_nil] at hpending hwire
      have hnot := h.not_drained hopen
      cases result with
      | none => exact ⟨h.failSend hloop hopen, .inl rfl⟩
      | some n =>
          dsimp only
          split
          next hmore =>
            -- 途中まで送れたので、続きから送る
            refine ⟨WriteInv.startSend (c := { c with sent := c.sent ++ (batch.drop offset).take n }) { h with
              waiter := iff_of_false (by rw [h.waiter_eq_false (by rw [hloop]; nofun)]; nofun) nofun
              awake := nofun
              idle := by simp
              pending := fun _ => hpending
              offset := ?_
              wire := fun _ => ?_
              lost := fun hne => absurd hlost hne
              drained := fun hdrained => absurd hdrained (by rw [hnot]; nofun) } hopen, startSend_resting⟩
            · rintro _ _ ⟨⟩
              exact hmore
            · rw [hlost, ← hwire]
              simp only [WriteLoop.unsent, List.append_nil]
              rw [List.append_assoc c.sent, ← List.drop_drop, List.take_append_drop]
          next hdone =>
            -- 束を送り終えたので、数を戻して次の束へ進む
            have hrelease := h.toSound.releaseWriteBytes batch.length (by omega) hopen
            refine WriteInv.runWriteLoop { hrelease with
              waiter := iff_of_false (by rw [show _ = false from h.waiter_eq_false (by rw [hloop]; nofun)]; nofun) nofun
              closed := fun hclosed => absurd hclosed hopen
              awake := nofun
              idle := by simp
              pending := fun _ => ?_
              nonempty := h.nonempty
              offset := nofun
              wire := fun _ => ?_
              lost := fun hne => absurd hlost hne
              lost_le := h.lost_le
              drained := fun hdrained => absurd hdrained (by rw [show _ = false from hnot]; nofun) }
            · show c.pendingWriteBytes - batch.length = c.writeQueue.flatten.length + 0 + c.strandedBytes
              omega
            · show c.sent ++ (batch.drop offset).take n ++ [] ++ c.lostBytes ++ c.writeQueue.flatten = c.accepted.flatten
              rw [hlost, ← hwire, List.take_of_length_le (by rw [List.length_drop]; omega), List.append_nil,
                List.append_nil]
  next => exact ⟨h, hrest⟩

/-! ## 書き込みの受け付け -/

theorem tryReserveWriteBytes_of_le {bytes : Nat} (hfits : bytes ≤ limits.maxWriteQueueBytes - c.pendingWriteBytes) :
    c.tryReserveWriteBytes limits bytes =
      ({ c with
        assertsHold := c.assertsHold && (c.pendingWriteBytes ≤ limits.maxWriteQueueBytes) &&
          (c.ownerPendingWriteBytes ≥ c.pendingWriteBytes)
        pendingWriteBytes := c.pendingWriteBytes + bytes
        ownerPendingWriteBytes := c.ownerPendingWriteBytes - c.pendingWriteBytes + (c.pendingWriteBytes + bytes) }, true) := by
  rw [tryReserveWriteBytes]
  exact if_neg (Nat.not_lt.mpr hfits)

theorem tryReserveWriteBytes_of_lt {bytes : Nat} (hfull : limits.maxWriteQueueBytes - c.pendingWriteBytes < bytes) :
    c.tryReserveWriteBytes limits bytes = ((c.check (c.pendingWriteBytes ≤ limits.maxWriteQueueBytes)).close, false) := by
  rw [tryReserveWriteBytes]
  exact if_pos hfull

theorem WriteInv.check (h : WriteInv limits others liveOthers c) {condition : Bool} (hcondition : condition = true) :
    WriteInv limits others liveOthers (c.check condition) :=
  { h with asserts := by simp [ConnectionCore.check, h.asserts, hcondition] }

theorem Sound.reserve (h : Sound limits others liveOthers c) {bytes : Nat}
    (hfits : bytes ≤ limits.maxWriteQueueBytes - c.pendingWriteBytes) (hopen : c.state ≠ .closed) :
    Sound limits others liveOthers (c.tryReserveWriteBytes limits bytes).1 := by
  have hle := h.le_max
  have howner := h.owner
  rw [tryReserveWriteBytes_of_le hfits]
  exact { h with
    asserts := by simp [h.asserts, hle, howner]
    closed := fun hclosed => absurd hclosed hopen
    le_max := by dsimp only; omega
    owner := by dsimp only; omega }

/-- 数を足し、列に積み、待っている `WriteLoop` を起こす。 -/
theorem WriteInv.push (h : WriteInv limits others liveOthers c) (refused : Bool) (hrest : c.Resting) {bytes : Bytes}
    (hbytes : bytes ≠ []) (hfits : bytes.length ≤ limits.maxWriteQueueBytes - c.pendingWriteBytes)
    (hopen : c.state ≠ .closed) :
    WriteInv limits others liveOthers ((c.tryReserveWriteBytes limits bytes.length).1.pushWrite refused bytes) ∧
      ((c.tryReserveWriteBytes limits bytes.length).1.pushWrite refused bytes).Resting := by
  have hreserve := h.toSound.reserve hfits hopen
  have hpending := h.pending hopen
  have hwire := h.wire hopen
  have hnot := h.not_drained hopen
  rw [tryReserveWriteBytes_of_le hfits] at hreserve ⊢
  have hnonempty : ∀ b ∈ c.writeQueue ++ [bytes], b ≠ [] := by
    intro b hb
    rcases List.mem_append.mp hb with hb | hb
    · exact h.nonempty b hb
    · rwa [List.mem_singleton.mp hb]
  rw [pushWrite, wakeWriteLoop]
  split
  next hwaiter =>
    have hwaiter : c.writeQueueWaiter = false := by simpa using hwaiter
    have hloop : c.writeLoop ≠ .waiting := fun hloop => by
      rw [h.waiter.mpr hloop] at hwaiter
      cases hwaiter
    refine ⟨{ hreserve with
      closed := fun hclosed => absurd hclosed hopen
      awake := h.awake
      idle := fun hidle => ?_
      pending := fun _ => ?_
      nonempty := hnonempty
      offset := h.offset
      wire := fun _ => ?_
      lost := h.lost
      lost_le := h.lost_le
      drained := fun hdrained => absurd hdrained (by rw [show _ = false from hnot]; nofun) }, hrest⟩
    · rcases hidle with hidle | hidle
      · exact absurd hidle hloop
      · rcases hrest with hrest | ⟨_, _, hrest⟩ | ⟨hrest, _⟩ <;> rw [show c.writeLoop = _ from hidle] at hrest <;> cases hrest
    · show c.pendingWriteBytes + bytes.length = (c.writeQueue ++ [bytes]).flatten.length + c.writeLoop.held +
        c.strandedBytes
      rw [hpending]
      simp only [List.flatten_append, List.flatten_singleton, List.length_append]
      omega
    · show c.sent ++ c.writeLoop.unsent ++ c.lostBytes ++ (c.writeQueue ++ [bytes]).flatten =
        (c.accepted ++ [bytes]).flatten
      rw [List.flatten_append, List.flatten_append, ← hwire]
      simp only [List.append_assoc]
  next hwaiter =>
    have hloop : c.writeLoop = .waiting := h.waiter.mp (by simpa using hwaiter)
    rw [hloop] at hpending hwire
    refine WriteInv.runWriteLoop { hreserve with
      waiter := iff_of_false nofun nofun
      closed := fun hclosed => absurd hclosed hopen
      awake := nofun
      idle := by simp
      pending := fun _ => ?_
      nonempty := hnonempty
      offset := nofun
      wire := fun _ => ?_
      lost := fun hne => absurd (h.lost_eq_nil (by rw [hloop]; nofun)) hne
      lost_le := h.lost_le
      drained := fun hdrained => absurd hdrained (by rw [show _ = false from hnot]; nofun) }
    · show c.pendingWriteBytes + bytes.length = (c.writeQueue ++ [bytes]).flatten.length + 0 + c.strandedBytes
      rw [hpending]
      simp only [List.flatten_append, List.flatten_singleton, List.length_append, WriteLoop.held]
      omega
    · show c.sent ++ [] ++ c.lostBytes ++ (c.writeQueue ++ [bytes]).flatten = (c.accepted ++ [bytes]).flatten
      rw [List.flatten_append, List.flatten_append, ← hwire]
      simp only [WriteLoop.unsent, List.append_assoc]

theorem resting_close (hrest : c.Resting) (hwaiter : c.writeQueueWaiter = true ↔ c.writeLoop = .waiting) :
    c.close.Resting := by
  by_cases hclosed : c.state = .closed
  · rwa [close_of_closed hclosed]
  · rw [close_eq hclosed]
    rcases hrest with hloop | ⟨batch, offset, hloop⟩ | ⟨hloop, _⟩
    · exact .inl (by simp [hloop])
    · refine .inr (.inl ⟨batch, offset, ?_⟩)
      rw [hloop] at hwaiter
      simp [hloop, hwaiter]
    · exact .inl (by simp [hwaiter.mpr hloop])

theorem resting_tryFinishDrain (hrest : c.Resting) (hwaiter : c.writeQueueWaiter = true ↔ c.writeLoop = .waiting) :
    c.tryFinishDrain.Resting := by
  rw [tryFinishDrain]
  split
  next => exact hrest
  next =>
    split
    next => exact resting_close hrest hwaiter
    next => exact hrest

theorem resting_beginDrain (hrest : c.Resting) (hwaiter : c.writeQueueWaiter = true ↔ c.writeLoop = .waiting) :
    c.beginDrain.Resting := by
  rw [beginDrain]
  split
  next => exact hrest
  next =>
    refine resting_tryFinishDrain ?_ hwaiter
    rcases hrest with hloop | hloop | ⟨hloop, _⟩
    · exact .inl hloop
    · exact .inr (.inl hloop)
    · exact .inr (.inr ⟨hloop, nofun⟩)

/-- `push_back` が投げると、予約した数が取り残される。 -/
theorem WriteInv.throwPush (h : WriteInv limits others liveOthers c) (bytes : Bytes)
    (hfits : bytes.length ≤ limits.maxWriteQueueBytes - c.pendingWriteBytes) (hopen : c.state ≠ .closed) :
    WriteInv limits others liveOthers ((c.tryReserveWriteBytes limits bytes.length).1.throwPush bytes) := by
  have hreserve := h.toSound.reserve hfits hopen
  have hpending := h.pending hopen
  have hle := h.lost_le
  rw [tryReserveWriteBytes_of_le hfits] at hreserve ⊢
  exact { hreserve with
    awake := h.awake
    idle := h.idle
    pending := fun _ => by
      simp only [ConnectionCore.throwPush]
      omega
    nonempty := h.nonempty
    offset := h.offset
    wire := fun _ => h.wire hopen
    lost := h.lost
    lost_le := by
      simp only [ConnectionCore.throwPush]
      omega
    drained := fun hdrained => absurd (h.drained hdrained).1 hopen }

theorem WriteInv.enqueueWrite (h : WriteInv limits others liveOthers c) (refused : Bool) (hrest : c.Resting) {bytes : Bytes}
    (hbytes : bytes ≠ []) :
    WriteInv limits others liveOthers (c.enqueueWrite limits refused bytes).1 ∧
      (c.enqueueWrite limits refused bytes).1.Resting := by
  rw [ConnectionCore.enqueueWrite]
  split
  next => exact ⟨h, hrest⟩
  next hopen =>
    by_cases hfits : bytes.length ≤ limits.maxWriteQueueBytes - c.pendingWriteBytes
    · have hpush := h.push refused hrest hbytes hfits hopen
      have hthrow := h.throwPush bytes hfits hopen
      rw [tryReserveWriteBytes_of_le hfits] at hpush hthrow ⊢
      dsimp only
      split
      next => exact ⟨hthrow, hrest⟩
      next => exact hpush
    · have hcheck := h.check (decide_eq_true h.le_max)
      rw [tryReserveWriteBytes_of_lt (Nat.not_le.mp hfits)]
      exact ⟨hcheck.close, resting_close hrest hcheck.waiter⟩

/-- 捕らえた例外の後で閉じる。 -/
theorem WriteInv.isolateBadAlloc (h : WriteInv limits others liveOthers c) (hrest : c.Resting) :
    WriteInv limits others liveOthers c.isolateBadAlloc ∧ c.isolateBadAlloc.Resting := by
  have hcaught : WriteInv limits others liveOthers { c with throwing := none } := { h with }
  rw [ConnectionCore.isolateBadAlloc]
  split
  next => exact ⟨hcaught.close, resting_close hrest hcaught.waiter⟩
  next => exact ⟨h, hrest⟩

/-! ## 処理中の要求の数 -/

theorem WriteInv.releaseInflightRequests (h : WriteInv limits others liveOthers c) {released : Nat}
    (hreleased : released ≤ c.inflightRequests) :
    WriteInv limits others liveOthers (c.releaseInflightRequests released) :=
  { h with
    asserts := by simp [ConnectionCore.releaseInflightRequests, ConnectionCore.check, h.asserts, hreleased]
    drained := fun hdrained => by
      obtain ⟨hclosed, hzero, hsent⟩ := h.drained hdrained
      exact ⟨hclosed, by simp [ConnectionCore.releaseInflightRequests, hzero], hsent⟩ }

theorem WriteInv.onResponsesEncoded (h : WriteInv limits others liveOthers c) (refused : Bool) (hrest : c.Resting)
    {bytes : Bytes} (hbytes : bytes ≠ []) {released : Nat} (hreleased : released ≤ c.inflightRequests) :
    WriteInv limits others liveOthers (c.onResponsesEncoded limits refused bytes released) ∧
      (c.onResponsesEncoded limits refused bytes released).Resting := by
  have hrelease := h.releaseInflightRequests hreleased
  rw [ConnectionCore.onResponsesEncoded]
  split
  next => exact ⟨hrelease, hrest⟩
  next =>
    obtain ⟨henqueue, hresting⟩ := hrelease.enqueueWrite refused hrest hbytes
    obtain ⟨hisolate, hresting⟩ := henqueue.isolateBadAlloc hresting
    exact ⟨hisolate.tryFinishDrain, resting_tryFinishDrain hresting hisolate.waiter⟩

theorem WriteInv.onResponseEncodeFailure (h : WriteInv limits others liveOthers c) (hrest : c.Resting) {released : Nat}
    (hreleased : released ≤ c.inflightRequests) :
    WriteInv limits others liveOthers (c.onResponseEncodeFailure released) ∧
      (c.onResponseEncodeFailure released).Resting :=
  have hrelease := h.releaseInflightRequests hreleased
  ⟨hrelease.close, resting_close hrest hrelease.waiter⟩

/-! ## 任意の書き込みと送信の結果 -/

theorem WriteInv.initial (limits : BackpressureLimits) (others liveOthers : Nat) (faults : Faults) :
    WriteInv limits others liveOthers
      { ownerPendingWriteBytes := others, ownerLiveConnections := liveOthers + 1, faults := faults } where
  asserts := rfl
  waiter := iff_of_false nofun nofun
  closed := nofun
  le_max := Nat.zero_le _
  owner := rfl
  live := rfl
  onClosed := rfl
  threw := nofun
  ending := nofun
  awake := nofun
  idle _ := rfl
  pending _ := rfl
  nonempty := nofun
  offset := nofun
  wire _ := rfl
  lost hne := absurd rfl hne
  lost_le := Nat.le_refl _
  drained := nofun

/-- 動き出す前は何もしておらず、動き出した後は落ち着いた位置にいる。 -/
theorem reachable_writeInv (h : (writeSide limits).Reachable c) :
    WriteInv limits 0 0 c ∧ (c.writeLoop = .unstarted ∧ c.state ≠ .closed ∨ c.Resting) := by
  refine h.invariant
    (I := fun c => WriteInv limits 0 0 c ∧ (c.writeLoop = .unstarted ∧ c.state ≠ .closed ∨ c.Resting)) ?_ ?_
  · rintro _ rfl
    exact ⟨.initial limits 0 0 {}, .inl ⟨rfl, nofun⟩⟩
  intro c a _ ⟨hc, hpos⟩ hb _
  have hresting : c.writeLoop ≠ .unstarted → c.Resting := fun hne => hpos.resolve_left fun hun => hne hun.1
  have hsending : 0 < c.writeLoop.unsent.length → c.Resting := by
    intro hunsent
    refine hresting fun hun => ?_
    rw [hun] at hunsent
    exact absurd hunsent (by decide)
  cases a with
  | start refused =>
      obtain ⟨hinv, hrest⟩ := hc.startWriteLoop refused hb (hpos.elim And.right fun hrest => by
        rcases hrest with hloop | ⟨_, _, hloop⟩ | ⟨hloop, _⟩ <;> rw [show c.writeLoop = _ from hb] at hloop <;> cases hloop)
      exact ⟨hinv, .inr hrest⟩
  | enqueue refused bytes =>
      obtain ⟨hinv, hrest⟩ := hc.enqueueWrite refused (hresting hb.1) hb.2
      exact ⟨hinv, .inr hrest⟩
  | sendCompleted refused n =>
      obtain ⟨hinv, hrest⟩ := hc.sendCompleted refused (hsending hb.1) (some n)
      exact ⟨hinv, .inr hrest⟩
  | sendFailed =>
      obtain ⟨hinv, hrest⟩ := hc.sendCompleted false (hsending hb) none
      exact ⟨hinv, .inr hrest⟩
  | submitRequestBatch requests =>
      have hactive : c.state = .active := hb
      exact ⟨{ hc with drained := fun hdrained => absurd (hc.drained hdrained).1 (by rw [hactive]; nofun) }, hpos⟩
  | release requests => exact ⟨hc.releaseInflightRequests hb, hpos⟩
  | beginDrain => exact ⟨hc.beginDrain, .inr (resting_beginDrain (hresting hb) hc.waiter)⟩
  | tryFinishDrain => exact ⟨hc.tryFinishDrain, .inr (resting_tryFinishDrain (hresting hb) hc.waiter)⟩
  | close => exact ⟨hc.close, .inr (resting_close (hresting hb) hc.waiter)⟩

end Xrpc.Server.ConnectionCore
