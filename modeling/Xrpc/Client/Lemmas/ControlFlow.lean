import Xrpc.Client.Lemmas.Pending
import Xrpc.Lib.Mutex

/-!
# `Call` の制御の流れ
-/

namespace Xrpc.Client
open Xrpc.Lib Xrpc.Protocol Function

variable {cfg : Config} {s : State} {c : CallId}

/-! ## 位置の移り方 -/

/-- 位置の移動に伴う、ミューテックスの操作。 -/
inductive Lock where
  | keep
  | lockState
  | unlockState
  | lockWrite
  | unlockWrite

namespace Lock

def state (c : CallId) (t : TransportId) (owner : TransportId → Option CallId) : Lock → TransportId → Option CallId
  | .lockState => update owner t (some c)
  | .unlockState => update owner t none
  | _ => owner

def write (c : CallId) (t : TransportId) (owner : TransportId → Option CallId) : Lock → TransportId → Option CallId
  | .lockWrite => update owner t (some c)
  | .unlockWrite => update owner t none
  | _ => owner

/-- 取るミューテックスは空いている。 -/
def free (s : State) (t : TransportId) : Lock → Prop
  | .lockState => s.stateMutex t = none
  | .lockWrite => s.writeMutex t = none
  | _ => True

end Lock

/-- 一つの動作で、呼び出しの位置がどう移りうるか。`result` はその呼び出しに書かれた結果、`closer` はその呼び出しが行う
`Close` の位置、`expired` は期限が過ぎたかである。 -/
inductive CallPc.Moves (result : Option Completion) (closer : CloserPc) (expired : Bool) :
    CallPc → Lock → CallPc → Prop where
  | refuseStart {status} : Moves result closer expired .idle .keep (.returned (makeCallFailure status .notSent))
  | start : Moves result closer expired .idle .keep .ensureConnected
  | connected : Moves result closer expired .ensureConnected .keep .register
  | reconnected : Moves result closer expired .reconnect .keep .register
  | join {g} : Moves result closer expired .ensureConnected .keep (.joinReader g)
  | joined {g} : Moves result closer expired (.joinReader g) .keep .reconnect
  | refuseConnect {status} : Moves result closer expired .ensureConnected .keep (.returned (makeCallFailure status .notSent))
  | refuseReconnect {status} : Moves result closer expired .reconnect .keep (.returned (makeCallFailure status .notSent))
  | connect {fd g} : Moves result closer expired .ensureConnected .lockState (.connecting fd g)
  | reconnect {fd g} : Moves result closer expired .reconnect .lockState (.connecting fd g)
  | connectFailed {fd g status} :
      Moves result closer expired (.connecting fd g) .unlockState (.returned (makeCallFailure status .notSent))
  | connectOk {fd g} : Moves result closer expired (.connecting fd g) .keep (.assigning g)
  | assigned {g} : Moves result closer expired (.assigning g) .unlockState .register
  | refuseRegister {status} : Moves result closer expired .register .keep (.returned (makeCallFailure status .notSent))
  | register : Moves result closer expired .register .keep .lockWrite
  | lock : Moves result closer expired .lockWrite .lockWrite .connectedFd
  | refuseLocked {status} : Moves result closer expired .lockWrite .lockWrite (.unregister ⟨status, .notSent⟩)
  | refuseConnected {status} : Moves result closer expired .connectedFd .keep (.unregister ⟨status, .notSent⟩)
  | refuseTimeout {fd g status} : Moves result closer expired (.setSendTimeout fd g) .keep (.unregister ⟨status, .notSent⟩)
  | takeFd {fd g} : Moves result closer expired .connectedFd .keep (.setSendTimeout fd g)
  | configure {fd g} : Moves result closer expired (.setSendTimeout fd g) .keep (.send fd g 0)
  | sendPart {fd g written n} : Moves result closer expired (.send fd g written) .keep (.retry fd g (written + n))
  | sendLast {fd g written} : Moves result closer expired (.send fd g written) .unlockWrite .wait
  | retry {fd g written} : Moves result closer expired (.retry fd g written) .keep (.send fd g written)
  | failSend {fd g written status} : Moves result closer expired (.send fd g written) .keep (.sendFailed status)
  | failRetry {fd g written status} : Moves result closer expired (.retry fd g written) .keep (.sendFailed status)
  | unregister {failure} : Moves result closer expired (.unregister failure) .unlockWrite (.returned (.failure failure))
  | abandon {status} : Moves result closer expired (.sendFailed status) .keep (.closing status)
  | writeFailed {status} :
      closer = .done → Moves result closer expired (.closing status) .unlockWrite (.returned (makeCallFailure status .maybeSent))
  | ready {completion} : result = some completion → Moves result closer expired .wait .keep (.returned completion.result)
  | readyTaken {completion} : result = some completion → Moves result closer expired .waitTaken .keep (.returned completion.result)
  | expire :
      expired → Moves result closer expired .wait .keep (.returned (makeCallFailure deadlineExceededStatus .maybeSent))
  | lose : Moves result closer expired .wait .keep .waitTaken

/-- 番号を写し取る位置に移るとき、写した世代が記録に残る。 -/
def CallPc.obtains (obtained : Option ConnId) : CallPc → Option ConnId
  | .setSendTimeout _ g => some g
  | _ => obtained

/-- 始めようとする呼び出し。 -/
def Action.starts : Action → Option CallId
  | .encodeFailed c _ | .startExpired c | .start c => some c
  | _ => none

/-- 動作 `a` で、呼び出し `c` が `pc` から `pc'` へ移る。 -/
structure Moved (cfg : Config) (s : State) (a : Action) (c : CallId) (pc pc' : CallPc) (lock : Lock) : Prop where
  pc_eq : s.pc c = pc
  moves : pc.Moves (s.result c) (s.closerPc (.caller c)) (cfg.expired s.now c) lock pc'
  free : lock.free s (cfg.transport c)
  starts : pc = .idle → a.starts = some c
  next_eq : (a.next cfg s).pc = update s.pc c pc'
  state_eq : (a.next cfg s).stateMutex = lock.state c (cfg.transport c) s.stateMutex
  write_eq : (a.next cfg s).writeMutex = lock.write c (cfg.transport c) s.writeMutex
  obtained_eq : (a.next cfg s).obtained = update s.obtained c (pc'.obtains (s.obtained c))

/-- どの動作も、高々一つの呼び出しの位置を、制御の流れに沿って動かす。 -/
theorem pc_step {a : Action} (h : a.enabled cfg s) :
    ((a.next cfg s).pc = s.pc ∧ (a.next cfg s).stateMutex = s.stateMutex ∧
        (a.next cfg s).writeMutex = s.writeMutex ∧ (a.next cfg s).obtained = s.obtained) ∨
      ∃ c pc pc' lock, Moved cfg s a c pc pc' lock := by
  have hkeep : ∀ c, s.obtained = update s.obtained c (s.obtained c) := fun c => (update_eq_self c s.obtained).symm
  cases a with
  | encodeFailed c status => exact .inr ⟨c, _, _, _, h.1, .refuseStart, trivial, fun _ => rfl, rfl, rfl, rfl, hkeep c⟩
  | startExpired c => exact .inr ⟨c, _, _, _, h.1, .refuseStart, trivial, fun _ => rfl, rfl, rfl, rfl, hkeep c⟩
  | start c => exact .inr ⟨c, _, _, _, h.1, .start, trivial, fun _ => rfl, rfl, rfl, rfl, hkeep c⟩
  | connected c =>
      rcases h.1 with hpc | hpc
      · exact .inr ⟨c, _, _, _, hpc, .connected, trivial, nofun, rfl, rfl, rfl, hkeep c⟩
      · exact .inr ⟨c, _, _, _, hpc, .reconnected, trivial, nofun, rfl, rfl, rfl, hkeep c⟩
  | takeReader c g => exact .inr ⟨c, _, _, _, h.1, .join, trivial, nofun, rfl, rfl, rfl, hkeep c⟩
  | joined c g => exact .inr ⟨c, _, _, _, h.1, .joined, trivial, nofun, rfl, rfl, rfl, hkeep c⟩
  | socketFailed c status =>
      rcases h.1.2.2 with hpc | ⟨hpc, _⟩
      · exact .inr ⟨c, _, _, _, hpc, .refuseReconnect, trivial, nofun, rfl, rfl, rfl, hkeep c⟩
      · exact .inr ⟨c, _, _, _, hpc, .refuseConnect, trivial, nofun, rfl, rfl, rfl, hkeep c⟩
  | openSocket c fd =>
      rcases h.1.2.2 with hpc | ⟨hpc, _⟩
      · exact .inr ⟨c, _, _, _, hpc, .reconnect, h.1.1, nofun, rfl, rfl, rfl, hkeep c⟩
      · exact .inr ⟨c, _, _, _, hpc, .connect, h.1.1, nofun, rfl, rfl, rfl, hkeep c⟩
  | connectFailed c fd g status => exact .inr ⟨c, _, _, _, h.1, .connectFailed, trivial, nofun, rfl, rfl, rfl, hkeep c⟩
  | connectOk c fd g => exact .inr ⟨c, _, _, _, h, .connectOk, trivial, nofun, rfl, rfl, rfl, hkeep c⟩
  | assignReader c g => exact .inr ⟨c, _, _, _, h.1, .assigned, trivial, nofun, rfl, rfl, rfl, hkeep c⟩
  | registerFull c => exact .inr ⟨c, _, _, _, h.1, .refuseRegister, trivial, nofun, rfl, rfl, rfl, hkeep c⟩
  | register c => exact .inr ⟨c, _, _, _, h.1, .register, trivial, nofun, rfl, rfl, rfl, hkeep c⟩
  | writeExpired c => exact .inr ⟨c, _, _, _, h.1, .refuseLocked, h.2.1, nofun, rfl, rfl, rfl, hkeep c⟩
  | lockWrite c => exact .inr ⟨c, _, _, _, h.1, .lock, h.2.1, nofun, rfl, rfl, rfl, hkeep c⟩
  | notConnected c => exact .inr ⟨c, _, _, _, h.1, .refuseConnected, trivial, nofun, rfl, rfl, rfl, hkeep c⟩
  | connectedFd c fd g => exact .inr ⟨c, _, _, _, h.1, .takeFd, trivial, nofun, rfl, rfl, rfl, rfl⟩
  | setSendTimeoutFailed c fd g errno => exact .inr ⟨c, _, _, _, h, .refuseTimeout, trivial, nofun, rfl, rfl, rfl, hkeep c⟩
  | setSendTimeout c fd g => exact .inr ⟨c, _, _, _, h.1, .configure, trivial, nofun, rfl, rfl, rfl, hkeep c⟩
  | sendPart c fd g written n actual => exact .inr ⟨c, _, _, _, h.1, .sendPart, trivial, nofun, rfl, rfl, rfl, hkeep c⟩
  | sendLast c fd g written actual => exact .inr ⟨c, _, _, _, h.1, .sendLast, trivial, nofun, rfl, rfl, rfl, hkeep c⟩
  | sendInterrupted c fd g written => exact .inr ⟨c, _, _, _, h, .sendPart (n := 0), trivial, nofun, rfl, rfl, rfl, hkeep c⟩
  | sendRetry c fd g written => exact .inr ⟨c, _, _, _, h.1, .retry, trivial, nofun, rfl, rfl, rfl, hkeep c⟩
  | sendFails c fd g written failure =>
      cases failure with
      | timedOut => exact .inr ⟨c, _, _, _, h.1, .failRetry, trivial, nofun, rfl, rfl, rfl, hkeep c⟩
      | setTimeout errno => exact .inr ⟨c, _, _, _, h.1, .failRetry, trivial, nofun, rfl, rfl, rfl, hkeep c⟩
      | peerClosed => exact .inr ⟨c, _, _, _, h, .failSend, trivial, nofun, rfl, rfl, rfl, hkeep c⟩
      | error errno => exact .inr ⟨c, _, _, _, h.1, .failSend, trivial, nofun, rfl, rfl, rfl, hkeep c⟩
  | unregister c failure => exact .inr ⟨c, _, _, _, h, .unregister, trivial, nofun, rfl, rfl, rfl, hkeep c⟩
  | abandonWrite c status => exact .inr ⟨c, _, _, _, h, .abandon, trivial, nofun, rfl, rfl, rfl, hkeep c⟩
  | writeFailed c status => exact .inr ⟨c, _, _, _, h.1, .writeFailed h.2, trivial, nofun, rfl, rfl, rfl, hkeep c⟩
  | resultReady c completion =>
      rcases h.1 with hpc | hpc
      · exact .inr ⟨c, _, _, _, hpc, .ready h.2, trivial, nofun, rfl, rfl, rfl, hkeep c⟩
      · exact .inr ⟨c, _, _, _, hpc, .readyTaken h.2, trivial, nofun, rfl, rfl, rfl, hkeep c⟩
  | waitExpired c => exact .inr ⟨c, _, _, _, h.1, .expire h.2.1, trivial, nofun, rfl, rfl, rfl, hkeep c⟩
  | waitLost c => exact .inr ⟨c, _, _, _, h.1, .lose, trivial, nofun, rfl, rfl, rfl, hkeep c⟩
  | _ => exact .inl ⟨rfl, rfl, rfl, rfl⟩

/-- 返った呼び出しは、二度と動かない。 -/
theorem pc_returned {a : Action} (h : a.enabled cfg s) {r : CallAttemptResult} (hpc : s.pc c = .returned r) :
    (a.next cfg s).pc c = .returned r := by
  rcases pc_step h with ⟨heq, _⟩ | ⟨c', pc, pc', lock, hmoved⟩
  · rw [heq, hpc]
  · have hne : c ≠ c' := by
      rintro rfl
      have hmoves := hmoved.pc_eq.symm.trans hpc ▸ hmoved.moves
      cases hmoves
    rw [hmoved.next_eq, update_of_ne hne, hpc]

/-- 始めなければ、呼び出しは始まらない。 -/
theorem pc_idle {a : Action} (h : a.enabled cfg s) (hc : a.starts ≠ some c) (hpc : s.pc c = .idle) :
    (a.next cfg s).pc c = .idle := by
  rcases pc_step h with ⟨heq, _⟩ | ⟨c', pc, pc', lock, hmoved⟩
  · rw [heq, hpc]
  · have hne : c ≠ c' := by
      rintro rfl
      exact hc (hmoved.starts (hmoved.pc_eq.symm.trans hpc))
    rw [hmoved.next_eq, update_of_ne hne, hpc]

/-! ## ミューテックス -/

/-- `state_mutex_` を握ったまま複数の動作にわたる位置。 -/
def CallPc.inConnect : CallPc → Bool
  | .connecting _ _ | .assigning _ => true
  | _ => false

/-- `write_mutex_` を握っている位置。 -/
def CallPc.inWrite : CallPc → Bool
  | .connectedFd | .setSendTimeout _ _ | .retry _ _ _ | .send _ _ _ | .unregister _ | .sendFailed _ | .closing _ => true
  | _ => false

theorem reachable_stateMutex (h : (client cfg).Reachable s) :
    Guarded (CallPc.inConnect ∘ s.pc) cfg.transport s.stateMutex := by
  refine h.invariant (I := fun s => Guarded (CallPc.inConnect ∘ s.pc) cfg.transport s.stateMutex) ?_ ?_
  · rintro s ⟨rfl⟩
    exact ⟨nofun, nofun⟩
  · intro s a _ hs ha _
    show Guarded (CallPc.inConnect ∘ (a.next cfg s).pc) cfg.transport (a.next cfg s).stateMutex
    rcases pc_step ha with ⟨hpc, hstate, _⟩ | ⟨c, pc, pc', lock, hmoved⟩
    · rw [hpc, hstate]
      exact hs
    · rw [hmoved.next_eq, hmoved.state_eq, comp_update]
      have hold : (CallPc.inConnect ∘ s.pc) c = pc.inConnect := congrArg CallPc.inConnect hmoved.pc_eq
      have hfree := hmoved.free
      cases hmoved.moves with
      | connect => exact hs.acquire hfree
      | reconnect => exact hs.acquire hfree
      | connectFailed => exact hs.release hold
      | assigned => exact hs.release hold
      | _ => exact hs.keep hold

theorem reachable_writeMutex (h : (client cfg).Reachable s) :
    Guarded (CallPc.inWrite ∘ s.pc) cfg.transport s.writeMutex := by
  refine h.invariant (I := fun s => Guarded (CallPc.inWrite ∘ s.pc) cfg.transport s.writeMutex) ?_ ?_
  · rintro s ⟨rfl⟩
    exact ⟨nofun, nofun⟩
  · intro s a _ hs ha _
    show Guarded (CallPc.inWrite ∘ (a.next cfg s).pc) cfg.transport (a.next cfg s).writeMutex
    rcases pc_step ha with ⟨hpc, _, hwrite, _⟩ | ⟨c, pc, pc', lock, hmoved⟩
    · rw [hpc, hwrite]
      exact hs
    · rw [hmoved.next_eq, hmoved.write_eq, comp_update]
      have hold : (CallPc.inWrite ∘ s.pc) c = pc.inWrite := congrArg CallPc.inWrite hmoved.pc_eq
      have hfree := hmoved.free
      cases hmoved.moves with
      | lock => exact hs.acquire hfree
      | refuseLocked => exact hs.acquire hfree
      | sendLast => exact hs.release hold
      | unregister => exact hs.release hold
      | writeFailed => exact hs.release hold
      | _ => exact hs.keep hold

/-! ## 写し取った世代 -/

/-- 位置ごとの、写し取った世代の記録。 -/
def CallPc.holds (obtained : Option ConnId) : CallPc → Prop
  | .setSendTimeout _ g | .retry _ g _ | .send _ g _ => obtained = some g
  | .sendFailed _ | .closing _ | .wait | .waitTaken => obtained ≠ none
  | .unregister _ | .returned _ => True
  | _ => obtained = none

theorem CallPc.Moves.holds {result : Option Completion} {closer : CloserPc} {expired : Bool} {pc pc' : CallPc} {lock : Lock}
    (h : pc.Moves result closer expired lock pc') {obtained : Option ConnId} (hpc : pc.holds obtained) :
    pc'.holds (pc'.obtains obtained) := by
  have hsome : ∀ {g}, obtained = some g → obtained ≠ none := by rintro g rfl; exact nofun
  cases h with
  | takeFd => rfl
  | sendLast => exact hsome hpc
  | failSend => exact hsome hpc
  | failRetry => exact hsome hpc
  | refuseStart | refuseConnect | refuseReconnect | connectFailed | refuseRegister | refuseLocked | refuseConnected
  | refuseTimeout | unregister | writeFailed | ready | readyTaken | expire => trivial
  | _ => exact hpc

theorem reachable_holds (h : (client cfg).Reachable s) (c : CallId) : (s.pc c).holds (s.obtained c) := by
  refine h.invariant (I := fun s => ∀ c, (s.pc c).holds (s.obtained c)) ?_ ?_ c
  · rintro s ⟨rfl⟩ c
    rfl
  · intro s a _ hs ha _ c
    show ((a.next cfg s).pc c).holds ((a.next cfg s).obtained c)
    rcases pc_step ha with ⟨hpc, _, _, hobtained⟩ | ⟨c', pc, pc', lock, hmoved⟩
    · rw [hpc, hobtained]
      exact hs c
    · rw [hmoved.next_eq, hmoved.obtained_eq]
      by_cases hc : c = c'
      · subst hc
        rw [update_self, update_self]
        exact hmoved.moves.holds (hmoved.pc_eq ▸ hs c)
      · rw [update_of_ne hc, update_of_ne hc]
        exact hs c

/-! ## 書かれた結果と返る結果 -/

/-- 書かれた結果は変わらない。 -/
theorem result_step {a : Action} (hreach : (client cfg).Reachable s) (h : a.enabled cfg s) {completion : Completion}
    (hres : s.result c = some completion) : (a.next cfg s).result c = some completion := by
  cases a with
  | publish a c' completion' =>
      have hne : c ≠ c' := by
        rintro rfl
        have := (reachable_pending_wf hreach).hand_result a c completion' h
        exact absurd (this.symm.trans hres) (by simp)
      exact (update_of_ne hne _ _).trans hres
  | _ => exact hres

/-- 応答を返した呼び出しの結果は、その応答である。 -/
theorem returned_response (hreach : (client cfg).Reachable s) {r : ResponseEnvelope}
    (hpc : s.pc c = .returned (.response r)) :
    ∃ completion, s.result c = some completion ∧ completion.result = .response r := by
  refine hreach.invariant (I := fun s => s.pc c = .returned (.response r) →
    ∃ completion, s.result c = some completion ∧ completion.result = .response r) ?_ ?_ hpc
  · rintro s ⟨rfl⟩ hpc
    cases hpc
  · intro s a hreach ih h _ hpc
    suffices ∃ completion, s.result c = some completion ∧ completion.result = .response r by
      obtain ⟨completion, hres, heq⟩ := this
      exact ⟨completion, result_step hreach h hres, heq⟩
    rcases pc_step h with ⟨heq, _⟩ | ⟨c', pc, pc', lock, hmoved⟩
    · exact ih (by rw [← heq]; exact hpc)
    · have hpc' : update s.pc c' pc' c = .returned (.response r) := by rw [← hmoved.next_eq]; exact hpc
      by_cases hc : c = c'
      · subst hc
        rw [update_self] at hpc'
        -- 応答を返すのは、書かれた結果を受け取る動作だけである
        cases hmoved.moves with
        | ready hres => exact ⟨_, hres, CallPc.returned.inj hpc'⟩
        | readyTaken hres => exact ⟨_, hres, CallPc.returned.inj hpc'⟩
        | _ => cases hpc'
      · rw [update_of_ne hc] at hpc'
        exact ih hpc'

/-! ## 送信と返る結果 -/

/-- 応答であるか、送ったかもしれないと告げる失敗である。 -/
def CallAttemptResult.committed (r : CallAttemptResult) : Bool :=
  r.hasResponse || r.mustStopRetryToAvoidDuplicateRequest

/-- フレームの一部を送り出していてよい位置。 -/
def CallPc.maySend : CallPc → Prop
  | .retry _ _ _ | .send _ _ _ | .sendFailed _ | .closing _ | .wait | .waitTaken => True
  | .returned r => r.committed
  | _ => False

theorem CallPc.Moves.maySend {result : Option Completion} {closer : CloserPc} {expired : Bool} {pc pc' : CallPc} {lock : Lock}
    (h : pc.Moves result closer expired lock pc')
    (hres : ∀ completion, result = some completion → completion.result.committed) (hpc : pc.maySend) : pc'.maySend := by
  cases h with
  | ready hr => exact hres _ hr
  | readyTaken hr => exact hres _ hr
  | _ => trivial

/-- `send` がフレームの一部を受け付けた呼び出しは、応答か、送ったかもしれないと告げる失敗だけを返す。 -/
theorem reachable_maySend (hreach : (client cfg).Reachable s) :
    ∀ g c b, (c, b) ∈ s.sent g → (s.pc c).maySend := by
  refine hreach.invariant (I := fun s => ∀ g c b, (c, b) ∈ s.sent g → (s.pc c).maySend) ?_ ?_
  · rintro s ⟨rfl⟩ g c b hmem
    cases hmem
  · intro s a hreach ih h _
    have hcommitted : ∀ c completion, s.result c = some completion → completion.result.committed := by
      intro c completion hres
      have hheld : Held s.hands s.result c completion := .inr hres
      cases hr : completion.result with
      | response r => rfl
      | failure f =>
          simp only [CallAttemptResult.committed, CallAttemptResult.mustStopRetryToAvoidDuplicateRequest,
            (reachable_sourced hreach).maybeSent c completion hheld f hr, decide_true, Bool.or_true]
    -- 位置の移動は、送ってよい位置から送ってはならない位置へは進まない
    have hmove : ∀ c, (s.pc c).maySend → ((a.next cfg s).pc c).maySend := by
      intro c hc
      rcases pc_step h with ⟨heq, _⟩ | ⟨c', pc, pc', lock, hmoved⟩
      · rw [heq]; exact hc
      · rw [hmoved.next_eq, update_apply]
        split
        next hcc => subst hcc; exact hmoved.moves.maySend (hcommitted c) (hmoved.pc_eq ▸ hc)
        next => exact hc
    have hsend : ∀ actual c (bytes : Bytes), (s.pc c).maySend →
        ∀ g c' b, (c', b) ∈ update s.sent actual (s.sent actual ++ bytes.map fun b => (c, b)) g →
          ((a.next cfg s).pc c').maySend := by
      intro actual c bytes hc g c' b hmem
      rw [update_apply] at hmem
      split at hmem
      next =>
        rcases List.mem_append.mp hmem with hmem | hmem
        · exact hmove c' (ih actual c' b hmem)
        · obtain ⟨b', _, heq⟩ := List.mem_map.mp hmem
          exact (Prod.mk.inj heq).1 ▸ hmove c hc
      next => exact hmove c' (ih g c' b hmem)
    cases a with
    | sendPart c fd g written n actual => exact hsend actual c _ (by rw [h.1]; trivial)
    | sendLast c fd g written actual => exact hsend actual c _ (by rw [h.1]; trivial)
    | _ => exact fun g c b hmem => hmove c (ih g c b hmem)

end Xrpc.Client
