import Xrpc.Io.Socket

/-!
# 時限のある接続の補題
-/

namespace Xrpc.Io
open Xrpc.Lib Xrpc.Protocol Xrpc.Client

/-! ## 縮めた時限 -/

/-- 2^32 ミリ秒に満たない時限は、`int` に縮めると、負になるか、変わらない。 -/
theorem Socket.pollTimeout_toInt {timeout : Int64} (hpos : 0 < timeout.toInt) (hlt : timeout.toInt < 2 ^ 32)
    (h : 0 ≤ Socket.pollTimeout timeout) : (Socket.pollTimeout timeout).toInt = timeout.toInt := by
  have hnonneg : 0 ≤ (Socket.pollTimeout timeout).toInt := Int32.le_iff_toInt_le.mp h
  rw [Socket.pollTimeout, Int64.toInt_toInt32, Int.bmod_def] at hnonneg ⊢
  split at hnonneg <;> split <;> omega

/-- 2^32 ミリ秒に満たない時限までに接続が成り立つなら、`poll` は時間切れにならない。 -/
theorem Establishes.not_timesOut {timeout : Int64} {established now : Nat} {handshake : Handshake}
    {answers : List ConnectAnswer} (hpos : 0 < timeout.toInt) (hlt : timeout.toInt < 2 ^ 32)
    (hestablished : (established : Int) < timeout.toInt)
    (h : Establishes (Socket.pollTimeout timeout) established now handshake answers) :
    ∀ answer ∈ answers, ¬ answer.TimesOut (Socket.pollTimeout timeout) := by
  induction h with
  | interrupted _ _ ih | already _ _ _ ih =>
      intro answer hmem
      rcases List.mem_cons.mp hmem with rfl | hmem
      · exact not_false
      · exact ih answer hmem
  | pollInterrupted hpoll _ _ ih =>
      intro answer hmem
      rcases List.mem_cons.mp hmem with rfl | hmem
      · simp [ConnectAnswer.TimesOut, hpoll]
      · exact ih answer hmem
  | completed _ _ ih => exact ih
  | polled hpoll _ => simp [ConnectAnswer.TimesOut, hpoll]
  | pollTimedOut _ hlimit helapsed =>
      rw [Socket.pollTimeout_toInt hpos hlt hlimit] at helapsed
      omega
  | connected | zero | isConnected => simp [ConnectAnswer.TimesOut]

/-! ## 繰り返しの結果 -/

namespace Socket

variable {env : Env} {kernel : ConnectKernel} {timeout : Int64} {fd : Fd} {flags : Nat}

/-- 旗を戻すところまで進んだとき、成功するのは旗を戻せるときに限る。 -/
theorem restoreSocketFlags_iff :
    restoreSocketFlags env kernel fd flags = ⟨{}, some (fd, flags)⟩ ↔ kernel.restoreFailure = none := by
  rw [restoreSocketFlags]
  split
  next h => simp [h]
  next errno h => simp [h, makeSocketStatus, SocketErrorCode.toStatusCode]

/-- 接続が成り立つ列では、`EALREADY` も `EISCONN` も時間切れも答えられず、旗を戻せるときに限り、元の旗で成功する。 -/
theorem timedConnect_iff {established now : Nat} {handshake : Handshake} {answers : List ConnectAnswer}
    (h : Establishes (pollTimeout timeout) established now handshake answers) :
    timedConnect env kernel timeout fd flags answers = some ⟨{}, some (fd, flags)⟩ ↔
      kernel.restoreFailure = none ∧ ∀ answer ∈ answers, answer ≠ .failed EALREADY ∧ answer ≠ .failed EISCONN ∧
        ¬ answer.TimesOut (pollTimeout timeout) := by
  induction h with
  | interrupted _ _ ih => simp [timedConnect, ih, ConnectAnswer.TimesOut, EINTR, EALREADY, EISCONN]
  | connected | zero => simp [timedConnect, restoreSocketFlags_iff, ConnectAnswer.TimesOut]
  | polled hpoll _ => simp [timedConnect, hpoll, restoreSocketFlags_iff, ConnectAnswer.TimesOut]
  | pollTimedOut hpoll _ _ => simp [timedConnect, hpoll, ConnectAnswer.TimesOut]
  | pollInterrupted hpoll _ _ ih => simp [timedConnect, hpoll, ih, ConnectAnswer.TimesOut]
  | already _ _ _ _ => simp [timedConnect, closeAndFail, EINTR, EALREADY]
  | completed _ _ ih => exact ih
  | isConnected => simp [timedConnect, closeAndFail, EINTR, EISCONN]

/-- 失敗を返すときの記述子は、閉じているか、旗を戻せずに開いたままである。 -/
def ClosedOrUnrestored (env : Env) (kernel : ConnectKernel) (outcome : ConnectOutcome) : Prop :=
  outcome.descriptor = none ∨ ∃ errno fd flags, kernel.restoreFailure = some errno ∧
    outcome = ⟨makeSocketStatus env .configureFailed (text "fcntl(F_SETFL)") errno, some (fd, flags ||| O_NONBLOCK)⟩

theorem restoreSocketFlags_failed (hfailed : (restoreSocketFlags env kernel fd flags).status.isOk = false) :
    ClosedOrUnrestored env kernel (restoreSocketFlags env kernel fd flags) := by
  rw [restoreSocketFlags] at hfailed ⊢
  split at hfailed
  next => cases hfailed
  next errno h => exact .inr ⟨errno, fd, flags, h, rfl⟩

theorem timedConnect_failed {answers : List ConnectAnswer} {outcome : ConnectOutcome}
    (h : timedConnect env kernel timeout fd flags answers = some outcome) (hfailed : outcome.status.isOk = false) :
    ClosedOrUnrestored env kernel outcome := by
  fun_induction timedConnect env kernel timeout fd flags answers with
  | case1 => cases h
  | case3 _ ih | case6 _ _ _ ih => exact ih h
  | case2 | case9 =>
      cases h
      exact restoreSocketFlags_failed hfailed
  | _ =>
      cases h
      exact .inl rfl

theorem connectOpened_failed (htimeout : 0 < timeout) {outcome : ConnectOutcome}
    (h : connectOpened env kernel timeout fd flags = some outcome) (hfailed : outcome.status.isOk = false) :
    ClosedOrUnrestored env kernel outcome := by
  rw [connectOpened, if_neg (show ¬ timeout ≤ 0 from Int64.not_le.mpr htimeout)] at h
  split at h
  · cases h
    exact .inl rfl
  · split at h
    · cases h
      exact .inl rfl
    · cases h
      exact .inl rfl
    · exact timedConnect_failed h hfailed

end Socket

end Xrpc.Io
