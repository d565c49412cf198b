import Xrpc.Server.Admission
import Xrpc.Server.Lemmas.ConnectionLater
import Xrpc.Server.Lemmas.PoolCounters

/-!
# 要求の受け付けの補題
-/

namespace Xrpc.Server
open Xrpc.Lib Xrpc.Protocol

/-! ## 解析に渡す長さ -/

/-- 32 ビットに収まる長さが `int` でも同じ値になるのは、`int` の上限までに限る。 -/
theorem parseLength_toInt {payload : Bytes} (h : payload.length ≤ uint32Max) :
    (parseLength payload).toInt = payload.length ↔ payload.length ≤ intMax := by
  simp only [uint32Max, intMax] at h ⊢
  rw [parseLength, Int32.toInt_ofNat', Int.bmod_def]
  simp only [Int32.size]
  split <;> omega

/-! ## 集まりの答え -/

namespace SubmitAnswer

variable {ι ω κ : Type} {pool : WorkerPool.State ι ω κ} {i : ι} {answer : SubmitAnswer}

end SubmitAnswer

/-! ## 終わり方の違い -/

section
variable {cfg : ServerConnectionConfig} {requests : List Request} {c c' : ServerConnection}

end

/-! ## 書き込み側の状態 -/

namespace ConnectionCore

variable {c : ConnectionCore}

end ConnectionCore

/-! ## 断り -/

namespace ServerConnection
open ConnectionCore

variable {cfg : ServerConnectionConfig} {c : ServerConnection}

/-- 断られたか、捨てられたか、例外で抜けた。 -/
def Refusal (cfg : ServerConnectionConfig) (answer : SubmitAnswer) (requests : List Request) (threw : Prop)
    (c c' : ServerConnection) : Prop :=
  BatchRejected cfg requests c c' ∨ BatchDropped answer c c' ∨ BatchInterrupted requests c c' ∧ threw

/-- 記録だけの違う接続から見ても、終わり方は変わらない。 -/
theorem Refusal.congr {answer : SubmitAnswer} {requests : List Request} {threw threw' : Prop} {c₀ c' : ServerConnection}
    (h : Refusal cfg answer requests threw c c') (hjobs : c.jobs = c₀.jobs) (hadmitted : c.admitted = c₀.admitted)
    (hinflight : c.core.inflightRequests = c₀.core.inflightRequests) (haccepted : c.core.accepted = c₀.core.accepted)
    (hthrew : threw → threw') : Refusal cfg answer requests threw' c₀ c' := by
  rcases h with h | h | ⟨h, hcause⟩
  · exact .inl ⟨h.active, h.jobs.trans hjobs, h.admitted.trans hadmitted, h.inflight.trans hinflight,
      haccepted ▸ h.responses⟩
  · exact .inr (.inl ⟨h.left, h.jobs.trans hjobs, h.admitted.trans hadmitted⟩)
  · exact .inr (.inr ⟨⟨h.active, h.threw, h.jobs.trans hjobs, h.admitted.trans hadmitted, h.inflight.trans hinflight,
      haccepted ▸ h.short⟩, hthrew hcause⟩)

theorem rejectForBackpressure_setReadLoop (cfg : ServerConnectionConfig) (refused : Bool) (message : Bytes)
    (request : Request) (readLoop : ReadLoop) :
    { c with readLoop }.rejectForBackpressure cfg refused message request =
      ({ (c.rejectForBackpressure cfg refused message request).1 with readLoop },
        (c.rejectForBackpressure cfg refused message request).2) := by
  simp only [rejectForBackpressure]
  split
  · rfl
  · split <;> rfl

theorem rejectAll_setReadLoop (cfg : ServerConnectionConfig) (refused : Bool) (message : Bytes) (requests : List Request)
    (readLoop : ReadLoop) :
    { c with readLoop }.rejectAll cfg refused message requests =
      ({ (c.rejectAll cfg refused message requests).1 with readLoop }, (c.rejectAll cfg refused message requests).2) := by
  induction requests generalizing c with
  | nil => rfl
  | cons request rest ih =>
      rw [rejectAll, rejectAll, rejectForBackpressure_setReadLoop]
      generalize c.rejectForBackpressure cfg refused message request = outcome
      obtain ⟨c', took⟩ := outcome
      cases took with
      | true => exact ih
      | false => rfl

theorem resumeRead_setReadLoop (refused : Bool) (outcome : ServerConnection × Bool) (readLoop : ReadLoop) :
    resumeRead refused ({ outcome.1 with readLoop }, outcome.2) = resumeRead refused outcome := by
  obtain ⟨c, took⟩ := outcome
  cases took with
  | true =>
      simp only [resumeRead, continueRead]
      repeat' split
      all_goals rfl
  | false => rfl

/-- 集まりに渡さない終わり方は、受信の歩みの中で終わる。渡すときは、`TrySubmitBatch` の中に入る。 -/
theorem handleFeedResult_eq (cfg : ServerConnectionConfig) (sendRefused recvRefused : Bool) (answer : SubmitAnswer)
    (feed : FrameStreamFeedResult) :
    c.handleFeedResult cfg sendRefused recvRefused feed =
      if feed.closed = false ∧ feed.requests.size ≠ 0 ∧ c.overLimit cfg feed = false then
        { c with
          decoded := c.decoded ++ feed.requests.toList
          core := c.core.check (c.core.inflightRequests ≤ cfg.limits.maxInflight)
          readLoop := .submitting (c.number feed.requests.toList) }
      else resumeRead recvRefused (c.feedOutcome cfg sendRefused answer feed) := by
  rw [handleFeedResult, feedOutcome]
  dsimp only
  cases hclosed : feed.closed with
  | true => simp [resumeRead]
  | false =>
      by_cases hsize : feed.requests.size = 0
      · simp [hsize, resumeRead]
      · have hover : ∀ c' : ServerConnection, c'.core.inflightRequests = c.core.inflightRequests →
            (c'.overLimit cfg feed = true ↔ feed.requests.size > cfg.limits.maxInflight - c.core.inflightRequests) := by
          intro c' hinflight
          rw [overLimit, hinflight, decide_eq_true_iff]
        have hcheck : ∀ condition, (c.core.check condition).inflightRequests = c.core.inflightRequests := fun _ => rfl
        by_cases hlimit : feed.requests.size > cfg.limits.maxInflight - c.core.inflightRequests
        · have hnot : ¬ (false = false ∧ feed.requests.size ≠ 0 ∧ c.overLimit cfg feed = false) := by
            rintro ⟨-, -, hfalse⟩
            rw [(hover c rfl).mpr hlimit] at hfalse
            cases hfalse
          rw [if_neg Bool.false_ne_true, if_neg hsize, hcheck, if_pos hlimit, if_neg hnot, if_neg Bool.false_ne_true,
            if_neg hsize]
          refine congrArg (resumeRead recvRefused) (if_pos ?_).symm
          exact (hover _ rfl).mpr hlimit
        · have hfits : c.overLimit cfg feed = false := by
            rw [← Bool.not_eq_true, hover c rfl]
            exact hlimit
          rw [if_neg Bool.false_ne_true, if_neg hsize, hcheck, if_neg hlimit, if_pos ⟨rfl, hsize, hfits⟩]

/-- `TrySubmitBatch` が終わった後の歩みは、答えに応じた `SubmitRequestBatch` の続きである。 -/
theorem submit_steps_eq (cfg : ServerConnectionConfig) (sendRefused recvRefused : Bool) (requests : List Request) :
    ({ c with readLoop := .submitting requests }.submitAccepted requests).countAdmitted recvRefused requests.length =
        resumeRead recvRefused (c.submitRequestBatch cfg sendRefused .accepted requests) ∧
      { c with readLoop := .submitting requests }.submitFull cfg sendRefused recvRefused requests =
        resumeRead recvRefused (c.submitRequestBatch cfg sendRefused .full requests) ∧
      { c with readLoop := .submitting requests }.submitClosed =
        resumeRead recvRefused (c.submitRequestBatch cfg sendRefused .closed requests) ∧
      { c with readLoop := .submitting requests }.submitThrew =
        resumeRead recvRefused (c.submitRequestBatch cfg sendRefused .threw requests) := by
  refine ⟨rfl, ?_, rfl, rfl⟩
  have h := rejectAll_setReadLoop (c := { c with submissions := c.submissions + 1 }) cfg sendRefused
    (text "server global pending job limit exceeded") requests (.submitting requests)
  exact (congrArg (resumeRead recvRefused) h).trans (resumeRead_setReadLoop recvRefused _ _)

end ServerConnection

end Xrpc.Server
