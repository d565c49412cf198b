import Xrpc.Server.Lemmas.WriteLoop

/-!
# 書き込み側の歩みが変えないもの
-/

namespace Xrpc.Server.ConnectionCore
open Xrpc.Lib

variable {limits : BackpressureLimits} {others liveOthers : Nat} {c c' c'' : ConnectionCore} {refused : Bool}

theorem rank_le_closed (state : ConnectionState) : state.rank ≤ ConnectionState.closed.rank := by
  cases state <;> decide

theorem closed_of_rank_le {state : ConnectionState} (h : ConnectionState.closed.rank ≤ state.rank) :
    state = .closed := by
  cases state with
  | closed => rfl
  | _ => exact absurd h (by decide)

/-- 例外の記録と、それに関わる欄。 -/
def ledger (c : ConnectionCore) : Nat × Faults × Bool × Nat × Bytes :=
  (c.inflightRequests, c.faults, c.cancelFdThrew, c.strandedBytes, c.lostBytes)

/-- 書き込み側のどの関数も変えないもの。取り残されたバイト数は減らず、例外の記録は、その例外が起こるときにだけ変わる。 -/
structure Carry (c c' : ConnectionCore) : Prop where
  inflight : c'.inflightRequests = c.inflightRequests
  faults : c'.faults = c.faults
  stranded : c.strandedBytes ≤ c'.strandedBytes
  spared : c.faults.spareBytes = true → c'.strandedBytes = c.strandedBytes ∧ c'.lostBytes = c.lostBytes
  cancelled : c.faults.cancelFd = none → c'.cancelFdThrew = c.cancelFdThrew

namespace Carry

theorem of_eq (h : c'.ledger = c.ledger) : Carry c c' := by
  simp only [ledger, Prod.mk.injEq] at h
  obtain ⟨hinflight, hfaults, hcancel, hstranded, hlost⟩ := h
  exact ⟨hinflight, hfaults, hstranded.ge, fun _ => ⟨hstranded, hlost⟩, fun _ => hcancel⟩

theorem trans (h : Carry c c') (h' : Carry c' c'') : Carry c c'' where
  inflight := h'.inflight.trans h.inflight
  faults := h'.faults.trans h.faults
  stranded := h.stranded.trans h'.stranded
  spared hspare := by
    obtain ⟨hstranded, hlost⟩ := h.spared hspare
    obtain ⟨hstranded', hlost'⟩ := h'.spared (by rw [h.faults]; exact hspare)
    exact ⟨hstranded'.trans hstranded, hlost'.trans hlost⟩
  cancelled hcancel := (h'.cancelled (by rw [h.faults]; exact hcancel)).trans (h.cancelled hcancel)

end Carry

theorem carry_close : Carry c c.close := by
  by_cases hclosed : c.state = .closed
  · rw [close_of_closed hclosed]
    exact .of_eq rfl
  · rw [close_eq hclosed]
    exact ⟨rfl, rfl, Nat.le_refl _, fun _ => ⟨rfl, rfl⟩, fun hcancel => by simp [hcancel]⟩

/-- 書き込み側の関数は、受け付けた書き込みを変えず、状態を先へしか移さない。閉じた後は、外へ何も呼び出さず、`WriteLoop` は返る
だけである。 -/
structure Frame (c c' : ConnectionCore) : Prop extends Carry c c' where
  accepted : c'.accepted = c.accepted
  forward : c.state.rank ≤ c'.state.rank
  silent : c.state = .closed →
    c'.effects = c.effects ∧ c'.drained = c.drained ∧ (c'.writeLoop = c.writeLoop ∨ c'.writeLoop = .returned)

namespace Frame

theorem refl : Frame c c := ⟨.of_eq rfl, rfl, Nat.le_refl _, fun _ => ⟨rfl, rfl, .inl rfl⟩⟩

theorem closed (h : Frame c c') (hclosed : c.state = .closed) : c'.state = .closed :=
  closed_of_rank_le (hclosed ▸ h.forward)

theorem trans (h : Frame c c') (h' : Frame c' c'') : Frame c c'' where
  toCarry := h.toCarry.trans h'.toCarry
  accepted := h'.accepted.trans h.accepted
  forward := h.forward.trans h'.forward
  silent hclosed := by
    obtain ⟨heffects, hdrained, hloop⟩ := h.silent hclosed
    obtain ⟨heffects', hdrained', hloop'⟩ := h'.silent (h.closed hclosed)
    refine ⟨heffects'.trans heffects, hdrained'.trans hdrained, ?_⟩
    rcases hloop' with hloop' | hloop'
    · rw [hloop']
      exact hloop
    · exact .inr hloop'

/-- 閉じる前の状態から始まる歩み。 -/
theorem of_open (hopen : c.state ≠ .closed) (hcarry : Carry c c') (haccepted : c'.accepted = c.accepted)
    (hforward : c.state.rank ≤ c'.state.rank) : Frame c c' :=
  ⟨hcarry, haccepted, hforward, fun hclosed => absurd hclosed hopen⟩

/-- 同じ欄を持つ状態から閉じる歩み。 -/
theorem of_close (hopen : c.state ≠ .closed) (hcarry : Carry c c') (haccepted : c'.accepted = c.accepted) :
    Frame c c'.close :=
  .of_open hopen (hcarry.trans carry_close) (close_accepted.trans haccepted) (close_state.symm ▸ rank_le_closed _)

end Frame

theorem frame_close : Frame c c.close := by
  by_cases hclosed : c.state = .closed
  · rw [close_of_closed hclosed]
    exact .refl
  · exact .of_close hclosed Frame.refl.toCarry rfl

theorem frame_tryFinishDrain : Frame c c.tryFinishDrain := by
  rw [tryFinishDrain]
  split
  next => exact .refl
  next hdraining =>
    split
    next =>
      refine .of_close ?_ (.of_eq rfl) rfl
      intro hclosed
      exact hdraining (by rw [hclosed]; rintro ⟨⟩)
    next => exact .refl

theorem frame_beginDrain : Frame c c.beginDrain := by
  rw [beginDrain]
  split
  next => exact .refl
  next hactive =>
    have hactive : c.state = .active := by simpa using hactive
    have h : Frame ({ c with state := .draining }.call [.shutdownRead]) _ := frame_tryFinishDrain
    refine .of_open (by rw [hactive]; rintro ⟨⟩) { h.toCarry with } h.accepted ?_
    rw [hactive]
    exact Nat.zero_le _

theorem frame_failSend {batch : Bytes} (hopen : c.state ≠ .closed) : Frame c (c.failSend batch) :=
  have h : Frame c (c.releaseWriteBytes batch.length).close :=
    .of_close hopen (.of_eq rfl) rfl
  .of_open hopen { h.toCarry with } h.accepted h.forward

theorem frame_startSend (refused : Bool) (batch : Bytes) (offset : Nat) (hopen : c.state ≠ .closed) :
    Frame c (c.startSend refused batch offset) := by
  rw [startSend]
  split
  next hsend =>
    refine .of_open hopen ⟨rfl, rfl, Nat.le_add_right _ _, fun hspare => ?_, fun _ => rfl⟩ rfl (Nat.le_refl _)
    simp [Faults.spareBytes, show c.faults.send = true from hsend] at hspare
  next =>
    have hcall : Frame c ({ c with writeLoop := .sending batch offset }.call [.send (batch.drop offset)]) :=
      .of_open hopen (.of_eq rfl) rfl (Nat.le_refl _)
    split
    next => exact hcall.trans (frame_failSend hopen)
    next => exact hcall

theorem frame_finishWrites : Frame c c.finishWrites := by
  have h : Frame c c.tryFinishDrain := frame_tryFinishDrain
  have hcarry : ∀ {c'}, Carry c.tryFinishDrain c' → Carry c c' := h.toCarry.trans
  rw [finishWrites]
  split
  next =>
    exact ⟨hcarry (.of_eq rfl), h.accepted, h.forward,
      fun hclosed => ⟨(h.silent hclosed).1, (h.silent hclosed).2.1, .inr rfl⟩⟩
  next hopen =>
    exact .of_open (fun hclosed => hopen (h.closed hclosed)) (hcarry (.of_eq rfl)) h.accepted
      h.forward

theorem frame_writeBatches (refused : Bool) (fuel : Nat) : Frame c (c.writeBatches refused fuel) := by
  induction fuel generalizing c with
  | zero => exact frame_finishWrites
  | succ fuel ih =>
      rw [writeBatches]
      split
      next => exact frame_finishWrites
      next hgo =>
        have hopen := (not_or.mp hgo).1
        dsimp only
        split
        next =>
          have h := ih (c := { c with writeQueue := (takeWriteBatch c.writeQueue).2 }.releaseWriteBytes 0)
          exact .of_open hopen { h.toCarry with } h.accepted h.forward
        next =>
          have h := frame_startSend (c := { c with writeQueue := (takeWriteBatch c.writeQueue).2 }) refused
            (takeWriteBatch c.writeQueue).1 0 hopen
          exact .of_open hopen { h.toCarry with } h.accepted h.forward

theorem frame_startWriteLoop (refused : Bool) : Frame c (c.startWriteLoop refused) := by
  rw [startWriteLoop]
  split
  next => exact ⟨.of_eq rfl, rfl, Nat.le_refl _, fun _ => ⟨rfl, rfl, .inr rfl⟩⟩
  next hopen =>
    split
    next => exact .of_open hopen (.of_eq rfl) rfl (Nat.le_refl _)
    next =>
      have h := frame_writeBatches refused c.writeQueue.length (c := { c with writeLoop := .running })
      exact .of_open hopen { h.toCarry with } h.accepted h.forward

theorem frame_sendCompleted (refused : Bool) (result : Option Nat) : Frame c (c.sendCompleted refused result) := by
  rw [sendCompleted]
  split
  next batch offset hloop =>
    split
    next => exact ⟨.of_eq rfl, rfl, Nat.le_refl _, fun _ => ⟨rfl, rfl, .inr rfl⟩⟩
    next hopen =>
      cases result with
      | none => exact frame_failSend hopen
      | some n =>
          dsimp only
          split
          next =>
            have h := frame_startSend (c := { c with sent := c.sent ++ (batch.drop offset).take n }) refused batch
              (offset + n) hopen
            exact .of_open hopen { h.toCarry with } h.accepted h.forward
          next =>
            have h := frame_writeBatches refused c.writeQueue.length
              (c := { { c with sent := c.sent ++ (batch.drop offset).take n }.releaseWriteBytes batch.length with
                writeLoop := .running })
            exact .of_open hopen { h.toCarry with } h.accepted h.forward
  next => exact .refl

/-! ## 書き込みの受け付け -/

/-- 積んだ後に `WriteLoop` を起こしても、閉じるときの記録は付かない。 -/
theorem pushWrite_spec (refused : Bool) {bytes : Bytes} (hbytes : bytes ≠ []) (hopen : c.state ≠ .closed)
    (hidle : c.writeQueueWaiter = true → c.writeQueue = []) :
    Carry c (c.pushWrite refused bytes) ∧ (c.pushWrite refused bytes).drained = c.drained ∧
      c.state.rank ≤ (c.pushWrite refused bytes).state.rank ∧
      (c.pushWrite refused bytes).accepted = c.accepted ++ [bytes] := by
  rw [pushWrite, wakeWriteLoop]
  split
  next => exact ⟨.of_eq rfl, rfl, Nat.le_refl _, rfl⟩
  next hwaiter =>
    -- 待っていた `WriteLoop` は、積んだばかりの一つを送り始める
    have hqueue : c.writeQueue = [] := hidle (by simpa using hwaiter)
    rw [runWriteLoop]
    simp only [hqueue, List.nil_append, List.length_singleton, writeBatches, hopen,
      List.cons_ne_self, false_or, reduceIte, takeWriteBatch, coalesce, List.length_eq_zero_iff, hbytes]
    have hsend := frame_startSend (c := { c with
      writeQueueWaiter := false
      writeLoop := .running
      writeQueue := []
      accepted := c.accepted ++ [bytes] }) refused bytes 0 hopen
    refine ⟨{ hsend.toCarry with }, ?_, hsend.forward, hsend.accepted⟩
    rw [startSend]
    split
    next => rfl
    next =>
      split
      next => exact close_drained.trans rfl
      next => rfl

/-- 受け付けた書き込みは記録の終わりに加わる。受け付けないのは、閉じているか、閉じるときか、`push_back` が投げるときである。 -/
theorem WriteInv.enqueueWrite_cases (h : WriteInv limits others liveOthers c) (refused : Bool) {bytes : Bytes}
    (hbytes : bytes ≠ []) :
    Carry c (c.enqueueWrite limits refused bytes).1 ∧
      (c.enqueueWrite limits refused bytes).1.drained = c.drained ∧
      c.state.rank ≤ (c.enqueueWrite limits refused bytes).1.state.rank ∧
      (((c.enqueueWrite limits refused bytes).2 = true ∧ c.state ≠ .closed ∧
          (c.enqueueWrite limits refused bytes).1.accepted = c.accepted ++ [bytes]) ∨
        ((c.enqueueWrite limits refused bytes).2 = false ∧
          (c.enqueueWrite limits refused bytes).1.accepted = c.accepted ∧
          ((c.enqueueWrite limits refused bytes).1.state = .closed ∨
            c.faults.enqueueWrite = some c.accepted.length ∧
              (c.enqueueWrite limits refused bytes).1.throwing = some .badAlloc ∧
              (c.enqueueWrite limits refused bytes).1.state = c.state ∧
              0 < (c.enqueueWrite limits refused bytes).1.strandedBytes))) := by
  rw [ConnectionCore.enqueueWrite]
  split
  next hclosed => exact ⟨Frame.refl.toCarry, rfl, Nat.le_refl _, .inr ⟨rfl, rfl, .inl hclosed⟩⟩
  next hopen =>
    by_cases hfits : bytes.length ≤ limits.maxWriteQueueBytes - c.pendingWriteBytes
    · rw [tryReserveWriteBytes_of_le hfits]
      dsimp only
      split
      next hthrow =>
        have hpos : 0 < bytes.length := List.length_pos_of_ne_nil hbytes
        refine ⟨⟨rfl, rfl, Nat.le_add_right _ _, fun hspare => ?_, fun _ => rfl⟩, rfl, Nat.le_refl _,
          .inr ⟨rfl, rfl, .inr ⟨hthrow, rfl, rfl, Nat.add_pos_right _ hpos⟩⟩⟩
        simp [Faults.spareBytes, show c.faults.enqueueWrite = _ from hthrow] at hspare
      next =>
        obtain ⟨hcarry, hdrained, hforward, haccepted⟩ := pushWrite_spec (c := { c with
          assertsHold := c.assertsHold && (c.pendingWriteBytes ≤ limits.maxWriteQueueBytes) &&
            (c.ownerPendingWriteBytes ≥ c.pendingWriteBytes)
          pendingWriteBytes := c.pendingWriteBytes + bytes.length
          ownerPendingWriteBytes := c.ownerPendingWriteBytes - c.pendingWriteBytes +
            (c.pendingWriteBytes + bytes.length) }) refused hbytes hopen fun hwaiter => h.idle (.inl (h.waiter.mp hwaiter))
        exact ⟨{ hcarry with }, hdrained, hforward,
          .inl ⟨rfl, hopen, haccepted⟩⟩
    · rw [tryReserveWriteBytes_of_lt (Nat.not_le.mp hfits)]
      have hclose : Frame c (c.check (c.pendingWriteBytes ≤ limits.maxWriteQueueBytes)).close :=
        .of_close hopen (.of_eq rfl) rfl
      exact ⟨hclose.toCarry, close_drained.trans rfl, hclose.forward, .inr ⟨rfl, hclose.accepted, .inl close_state⟩⟩

theorem frame_isolateBadAlloc : Frame c c.isolateBadAlloc := by
  rw [isolateBadAlloc]
  split
  next =>
    by_cases hclosed : c.state = .closed
    · rw [close_of_closed (c := { c with throwing := none }) hclosed]
      exact ⟨.of_eq rfl, rfl, Nat.le_refl _, fun _ => ⟨rfl, rfl, .inl rfl⟩⟩
    · exact .of_close hclosed (.of_eq rfl) rfl
  next => exact .refl

theorem isolateBadAlloc_drained : c.isolateBadAlloc.drained = c.drained := by
  rw [isolateBadAlloc]
  split
  next => exact close_drained.trans rfl
  next => rfl

/-- 応答の受け付け。積まれなかったなら閉じている。 -/
theorem WriteInv.onResponsesEncoded_cases (h : WriteInv limits others liveOthers c) (refused : Bool)
    {bytes : Bytes} (hbytes : bytes ≠ []) {released : Nat} (hreleased : released ≤ c.inflightRequests) :
    Carry (c.releaseInflightRequests released) (c.onResponsesEncoded limits refused bytes released) ∧
      c.state.rank ≤ (c.onResponsesEncoded limits refused bytes released).state.rank ∧
      (((c.releaseInflightRequests released).enqueueWrite limits refused bytes).2 = true ∧
          c.state ≠ .closed ∧
          (c.onResponsesEncoded limits refused bytes released).accepted = c.accepted ++ [bytes] ∨
        ((c.releaseInflightRequests released).enqueueWrite limits refused bytes).2 = false ∧
          (c.onResponsesEncoded limits refused bytes released).state = .closed ∧
          (c.onResponsesEncoded limits refused bytes released).drained = c.drained ∧
          (c.onResponsesEncoded limits refused bytes released).accepted = c.accepted) := by
  have hrelease := h.releaseInflightRequests hreleased
  obtain ⟨hcarry, hdrained, hforward, hcases⟩ := hrelease.enqueueWrite_cases refused hbytes
  rw [ConnectionCore.onResponsesEncoded]
  split
  next hclosed =>
    refine ⟨Frame.refl.toCarry, Nat.le_refl _, .inr ⟨?_, hclosed, rfl, rfl⟩⟩
    rw [ConnectionCore.enqueueWrite, if_pos hclosed]
  next hopen =>
    have hisolate := frame_isolateBadAlloc (c := ((c.releaseInflightRequests released).enqueueWrite limits refused bytes).1)
    have hfinish := hisolate.trans frame_tryFinishDrain
    refine ⟨hcarry.trans hfinish.toCarry, hforward.trans hfinish.forward, ?_⟩
    rcases hcases with ⟨htook, _, haccepted⟩ | ⟨htook, haccepted, hend⟩
    · exact .inl ⟨htook, hopen, hfinish.accepted.trans haccepted⟩
    · -- 投げられた `std::bad_alloc` は捕らえられ、接続は閉じる
      have hclosed : ((c.releaseInflightRequests released).enqueueWrite limits refused bytes).1.isolateBadAlloc.state =
          .closed := by
        rcases hend with hclosed | ⟨_, hthrowing, _⟩
        · exact hisolate.closed hclosed
        · rw [ConnectionCore.isolateBadAlloc, if_pos hthrowing, close_state]
      have hlast := frame_tryFinishDrain.silent hclosed
      exact .inr ⟨htook, frame_tryFinishDrain.closed hclosed, hlast.2.1.trans (isolateBadAlloc_drained.trans hdrained),
        hfinish.accepted.trans haccepted⟩

/-! ## 任意の書き込みと送信の結果 -/

/-- 例外のない書き込み側では、何も失われない。 -/
theorem reachable_lostBytes (h : (writeSide limits).Reachable c) : c.faults = {} ∧ c.lostBytes = [] := by
  refine h.invariant (I := fun c => c.faults = {} ∧ c.lostBytes = []) ?_ ?_
  · rintro _ rfl
    exact ⟨rfl, rfl⟩
  intro c a hreach ⟨hfaults, hlost⟩ hb _
  have hcarry : ∀ {c'}, Carry c c' → c'.faults = {} ∧ c'.lostBytes = [] := fun h =>
    ⟨h.faults.trans hfaults, (h.spared (by rw [hfaults]; rfl)).2.trans hlost⟩
  cases a with
  | start refused => exact hcarry (frame_startWriteLoop refused).toCarry
  | enqueue refused bytes => exact hcarry ((reachable_writeInv hreach).1.enqueueWrite_cases refused hb.2).1
  | sendCompleted refused n => exact hcarry (frame_sendCompleted refused (some n)).toCarry
  | sendFailed => exact hcarry (frame_sendCompleted false none).toCarry
  | submitRequestBatch requests => exact ⟨hfaults, hlost⟩
  | release requests => exact ⟨hfaults, hlost⟩
  | beginDrain => exact hcarry frame_beginDrain.toCarry
  | tryFinishDrain => exact hcarry frame_tryFinishDrain.toCarry
  | close => exact hcarry carry_close

end Xrpc.Server.ConnectionCore
