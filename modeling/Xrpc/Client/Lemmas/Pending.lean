import Xrpc.Client.TcpTransport
import Xrpc.Lib.CompletionTable

/-!
# 保留中の呼び出しの表

クライアントの実行は、完了を待つ者の表の実行として見える。
-/

namespace Xrpc.Client
open Xrpc.Lib Xrpc.Protocol Function

variable {cfg : Config} {s : State}

/-! ## 表としての見え方 -/

open CompletionTable in
def CallPc.stage : CallPc → Stage
  | .idle | .ensureConnected | .joinReader _ | .reconnect | .connecting _ _ | .assigning _ | .register => .new
  | .lockWrite | .connectedFd | .setSendTimeout _ _ | .retry _ _ _ | .send _ _ _ | .unregister _ | .sendFailed _ => .active
  | .closing _ => .detached
  | .wait => .waiting
  | .waitTaken => .handed
  | .returned _ => .finished

abbrev PendingState := CompletionTable.State TransportId UInt64 CallId Agent Completion

abbrev PendingAct := CompletionTable.Act TransportId UInt64 CallId Agent Completion

def Config.layout (cfg : Config) : CompletionTable.Layout TransportId UInt64 CallId where
  home := cfg.transport
  key := cfg.requestId
  capacity t := (cfg.transports t).maxInflightPerEndpoint

namespace State

def pending (s : State) : PendingState where
  table := s.pendingCalls
  hands := s.hands
  result := s.result
  sets := s.resultSets
  stage := CallPc.stage ∘ s.pc

theorem pending_setPc (s : State) (c : CallId) (pc : CallPc) :
    (s.setPc c pc).pending = { s.pending with stage := update s.pending.stage c pc.stage } := by
  simp only [pending, setPc, comp_update]

/-- 段階の変わらない移動は、表からは見えない。 -/
theorem pending_setPc_silent {c : CallId} {old : CallPc} (pc : CallPc) (hpc : s.pc c = old) (h : pc.stage = old.stage) :
    (s.setPc c pc).pending = s.pending := by
  rw [pending_setPc, h, ← hpc, show (s.pc c).stage = s.pending.stage c from rfl, update_eq_self]

end State

/-- 表から見える動作。 -/
def Action.pendingAct (s : State) : Action → Option PendingAct
  | .encodeFailed c _ | .startExpired c | .socketFailed c _ | .connectFailed c _ _ _ | .registerFull c =>
      some (.refuse c)
  | .register c => some (.register c)
  | .unregister c _ => some (.giveUp c)
  | .abandonWrite c _ => some (.detach c)
  | .writeFailed c _ => some (.finish c)
  | .sendLast c _ _ _ _ => some (.await c)
  | .waitExpired c => some (.expire c)
  | .waitLost c => some (.lose c)
  | .resultReady c completion => some (.collect c completion)
  | .complete g _ response c =>
      some (.take (.reader g) (s.connTransport g) response.requestId c
        ⟨.response response, .reader g, some (s.decoded g).length⟩)
  | .failAll g status =>
      some (.sweep (.reader g) (s.connTransport g) ⟨.failure ⟨status, .maybeSent⟩, .reader g, none⟩)
  | .closeFailAll i t _ =>
      some (.sweep (.closer i) t
        ⟨.failure ⟨⟨.unavailable, text "transport closed"⟩, .maybeSent⟩, .closer i, none⟩)
  | .publish a c completion => some (.publish a c completion)
  | _ => none

theorem pending_silent {a : Action} (h : a.enabled cfg s) (hact : a.pendingAct s = none) :
    (a.next cfg s).pending = s.pending := by
  cases a with
  | start c => exact State.pending_setPc_silent .ensureConnected h.1 rfl
  | connected c =>
      rcases h.1 with hpc | hpc
      · exact State.pending_setPc_silent .register hpc rfl
      · exact State.pending_setPc_silent .register hpc rfl
  | takeReader c g => exact State.pending_setPc_silent (.joinReader g) h.1 rfl
  | joined c g => exact State.pending_setPc_silent .reconnect h.1 rfl
  | openSocket c fd =>
      rcases h.1.2.2 with hpc | ⟨hpc, _⟩
      · exact State.pending_setPc_silent (.connecting fd s.nextConn) hpc rfl
      · exact State.pending_setPc_silent (.connecting fd s.nextConn) hpc rfl
  | connectOk c fd g => exact State.pending_setPc_silent (.assigning g) h rfl
  | assignReader c g => exact State.pending_setPc_silent .register h.1 rfl
  | writeExpired c => exact State.pending_setPc_silent (.unregister ⟨deadlineExceededStatus, .notSent⟩) h.1 rfl
  | lockWrite c => exact State.pending_setPc_silent .connectedFd h.1 rfl
  | notConnected c => exact State.pending_setPc_silent _ h.1 rfl
  | connectedFd c fd g => exact State.pending_setPc_silent (.setSendTimeout fd g) h.1 rfl
  | setSendTimeoutFailed c fd g errno => exact State.pending_setPc_silent _ h rfl
  | setSendTimeout c fd g => exact State.pending_setPc_silent (.send fd g 0) h.1 rfl
  | sendPart c fd g written n actual => exact State.pending_setPc_silent (.retry fd g (written + n)) h.1 rfl
  | sendInterrupted c fd g written => exact State.pending_setPc_silent (.retry fd g written) h rfl
  | sendRetry c fd g written => exact State.pending_setPc_silent (.send fd g written) h.1 rfl
  | sendFails c fd g written failure =>
      cases failure with
      | timedOut => exact State.pending_setPc_silent _ h.1 rfl
      | setTimeout errno => exact State.pending_setPc_silent _ h.1 rfl
      | peerClosed => exact State.pending_setPc_silent _ h rfl
      | error errno => exact State.pending_setPc_silent _ h.1 rfl
  | tick | close | closeOpen | closeClosed | closeJoin | decodeMore | completeUnknown | completed | recv | readerFails
  | closeFromReader | closeFromReaderSkip | readerDone => rfl
  | _ => cases hact

theorem pending_step {a : Action} {b : PendingAct} (h : a.enabled cfg s) (hact : a.pendingAct s = some b) :
    CompletionTable.enabled cfg.layout s.pending b ∧ (a.next cfg s).pending = CompletionTable.next cfg.layout s.pending b := by
  have hstage : ∀ c pc, s.pc c = pc → s.pending.stage c = pc.stage := fun c pc hpc => congrArg CallPc.stage hpc
  cases a with
  | encodeFailed c status =>
      obtain rfl := Option.some.inj hact
      exact ⟨hstage c _ h.1, State.pending_setPc s c _⟩
  | startExpired c =>
      obtain rfl := Option.some.inj hact
      exact ⟨hstage c _ h.1, State.pending_setPc s c _⟩
  | socketFailed c status =>
      obtain rfl := Option.some.inj hact
      refine ⟨?_, State.pending_setPc s c _⟩
      rcases h.1.2.2 with hpc | ⟨hpc, _⟩
      · exact hstage c _ hpc
      · exact hstage c _ hpc
  | connectFailed c fd g status =>
      obtain rfl := Option.some.inj hact
      exact ⟨hstage c _ h.1, State.pending_setPc s c _⟩
  | registerFull c =>
      obtain rfl := Option.some.inj hact
      exact ⟨hstage c _ h.1, State.pending_setPc s c _⟩
  | register c =>
      obtain rfl := Option.some.inj hact
      exact ⟨⟨hstage c _ h.1, h.2⟩, State.pending_setPc (s.registerPending _ _ c) c _⟩
  | unregister c failure =>
      obtain rfl := Option.some.inj hact
      exact ⟨hstage c _ h, State.pending_setPc (s.unregisterPending _ _) c _⟩
  | abandonWrite c status =>
      obtain rfl := Option.some.inj hact
      exact ⟨hstage c _ h, State.pending_setPc (s.unregisterPending _ _) c _⟩
  | writeFailed c status =>
      obtain rfl := Option.some.inj hact
      exact ⟨hstage c _ h.1, State.pending_setPc s c _⟩
  | sendLast c fd g written actual =>
      obtain rfl := Option.some.inj hact
      exact ⟨hstage c _ h.1, State.pending_setPc s c .wait⟩
  | waitExpired c =>
      obtain rfl := Option.some.inj hact
      exact ⟨⟨hstage c _ h.1, h.2.2⟩, State.pending_setPc (s.unregisterPending _ _) c _⟩
  | waitLost c =>
      obtain rfl := Option.some.inj hact
      exact ⟨⟨hstage c _ h.1, h.2.2⟩, State.pending_setPc s c _⟩
  | resultReady c completion =>
      obtain rfl := Option.some.inj hact
      exact ⟨⟨h.1.imp (hstage c _) (hstage c _), h.2⟩, State.pending_setPc s c _⟩
  | complete g consumed response c =>
      obtain rfl := Option.some.inj hact
      exact ⟨h.2, rfl⟩
  | failAll g status =>
      obtain rfl := Option.some.inj hact
      exact ⟨trivial, rfl⟩
  | closeFailAll i t reader =>
      obtain rfl := Option.some.inj hact
      exact ⟨trivial, rfl⟩
  | publish a c completion =>
      obtain rfl := Option.some.inj hact
      exact ⟨h, rfl⟩
  | _ => cases hact

/-- クライアントの実行は、完了を待つ者の表の実行として見える。 -/
def pendingSimulation (cfg : Config) :
    Machine.Simulation (client cfg) (fun _ _ => True) (CompletionTable.machine Agent Completion cfg.layout)
      (fun _ _ => True) where
  view := State.pending
  act s a := a.pendingAct s
  init s hs := by
    obtain rfl : s = .initial := hs
    exact ⟨fun _ => rfl, fun _ => rfl, fun _ => rfl, fun _ => rfl, fun _ => rfl⟩
  silent s a _ h _ hact := pending_silent h hact
  step s a b _ h _ hact := ⟨(pending_step h hact).1, trivial, (pending_step h hact).2⟩

theorem reachable_pending_wf (h : (client cfg).Reachable s) : CompletionTable.Wf cfg.layout s.pending :=
  CompletionTable.reachable_wf ((pendingSimulation cfg).reach h)

theorem reachable_attended (hL : cfg.layout.Distinct) (h : (client cfg).Reachable s) :
    CompletionTable.Attended cfg.layout s.pending :=
  CompletionTable.reachable_attended hL ((pendingSimulation cfg).reach h)

/-! ## 結果の出どころ -/

/-- 手元にあるか、もう書かれた結果。 -/
def Held (hands : Agent → List (CallId × Completion)) (result : CallId → Option Completion) (c : CallId)
    (completion : Completion) : Prop :=
  (∃ a, (c, completion) ∈ hands a) ∨ result c = some completion

section Held

variable {hands : Agent → List (CallId × Completion)} {result : CallId → Option Completion} {a : Agent} {c c' : CallId}
  {completion completion' : Completion}

theorem Held.append {entries : List (CallId × Completion)}
    (h : Held (update hands a (hands a ++ entries)) result c completion) :
    Held hands result c completion ∨ (c, completion) ∈ entries := by
  rcases h with ⟨b, hmem⟩ | hres
  · rw [update_apply] at hmem
    split at hmem
    next hb => exact (List.mem_append.mp hmem).imp (fun hmem => .inl ⟨a, hmem⟩) id
    next => exact .inl (.inl ⟨b, hmem⟩)
  · exact .inl (.inr hres)

theorem mem_of_mem_erase_hand {b : Agent} {e e' : CallId × Completion} (h : e ∈ update hands a ((hands a).erase e') b) :
    e ∈ hands b := by
  rw [update_apply] at h
  split at h
  next hb => subst hb; exact List.mem_of_mem_erase h
  next => exact h

theorem Held.publish (hmem : (c, completion) ∈ hands a)
    (h : Held (update hands a ((hands a).erase (c, completion))) (update result c (some completion)) c' completion') :
    Held hands result c' completion' := by
  rcases h with ⟨b, he⟩ | hres
  · exact .inl ⟨b, mem_of_mem_erase_hand he⟩
  · rw [update_apply] at hres
    split at hres
    next hc => subst hc; cases hres; exact .inl ⟨a, hmem⟩
    next => exact .inr hres

end Held

/-- 応答の結果は、自分の番号の付いた、受信した一つのフレームから来る。失敗の結果は、送ったかもしれないと告げる。 -/
structure Sourced (cfg : Config) (hands : Agent → List (CallId × Completion)) (result : CallId → Option Completion)
    (decoded : ConnId → List ResponseEnvelope) : Prop where
  agent_eq : ∀ a c completion, (c, completion) ∈ hands a → completion.agent = a
  response : ∀ c completion, Held hands result c completion → ∀ r, completion.result = .response r →
    ∃ g i, completion.agent = .reader g ∧ completion.frame = some i ∧ (decoded g)[i]? = some r ∧
      r.requestId = cfg.requestId c
  frame_lt : ∀ c completion, Held hands result c completion → ∀ g i, completion.agent = .reader g →
    completion.frame = some i → i < (decoded g).length
  unique : ∀ c c' completion completion', Held hands result c completion → Held hands result c' completion' →
    completion.agent = completion'.agent → completion.frame = completion'.frame → completion.frame ≠ none → c = c'
  maybeSent : ∀ c completion, Held hands result c completion → ∀ f, completion.result = .failure f →
    f.commitState = .maybeSent

namespace Sourced

variable {hands : Agent → List (CallId × Completion)} {result : CallId → Option Completion}
  {decoded : ConnId → List ResponseEnvelope}

/-- 復号したフレームの記録が伸びても、これまでの結果の出どころは変わらない。 -/
theorem decode (h : Sourced cfg hands result decoded) (g : ConnId) (r : ResponseEnvelope) :
    Sourced cfg hands result (update decoded g (decoded g ++ [r])) := by
  have hlen : ∀ g', (decoded g').length ≤ (update decoded g (decoded g ++ [r]) g').length := by
    intro g'
    rw [update_apply]
    split
    next hg => subst hg; simp
    next => exact Nat.le_refl _
  refine { h with response := ?_, frame_lt := ?_ }
  · intro c completion hheld r' hr'
    obtain ⟨g', i, hagent, hframe, hget, hid⟩ := h.response c completion hheld r' hr'
    refine ⟨g', i, hagent, hframe, ?_, hid⟩
    rw [update_apply]
    split
    next hg =>
      subst hg
      rw [List.getElem?_append_left (h.frame_lt c completion hheld g' i hagent hframe), hget]
    next => exact hget
  · intro c completion hheld g' i hagent hframe
    exact (h.frame_lt c completion hheld g' i hagent hframe).trans_le (hlen g')

theorem agent_append (h : Sourced cfg hands result decoded) {a : Agent} {entries : List (CallId × Completion)}
    (hentries : ∀ e ∈ entries, e.2.agent = a) :
    ∀ b c completion, (c, completion) ∈ update hands a (hands a ++ entries) b → completion.agent = b := by
  intro b c completion hmem
  rw [update_apply] at hmem
  split at hmem
  next hb =>
    subst hb
    rcases List.mem_append.mp hmem with hmem | hmem
    · exact h.agent_eq b c completion hmem
    · exact hentries _ hmem
  next => exact h.agent_eq b c completion hmem

/-- 失敗を手元に加える。 -/
theorem sweep (h : Sourced cfg hands result decoded) (a : Agent) (calls : List CallId) (status : Status) :
    Sourced cfg (update hands a (hands a ++ calls.map fun c => (c, ⟨.failure ⟨status, .maybeSent⟩, a, none⟩))) result
      decoded := by
  have hold : ∀ c completion, Held (update hands a
      (hands a ++ calls.map fun c => (c, ⟨.failure ⟨status, .maybeSent⟩, a, none⟩))) result c completion →
      Held hands result c completion ∨ completion = ⟨.failure ⟨status, .maybeSent⟩, a, none⟩ := by
    intro c completion hheld
    refine hheld.append.imp id fun hmem => ?_
    obtain ⟨c', _, heq⟩ := List.mem_map.mp hmem
    exact (Prod.mk.inj heq).2.symm
  refine ⟨h.agent_append ?_, ?_, ?_, ?_, ?_⟩
  · intro e hmem
    obtain ⟨c, _, rfl⟩ := List.mem_map.mp hmem
    rfl
  · intro c completion hheld r hr
    rcases hold c completion hheld with hheld | rfl
    · exact h.response c completion hheld r hr
    · cases hr
  · intro c completion hheld g i hagent hframe
    rcases hold c completion hheld with hheld | rfl
    · exact h.frame_lt c completion hheld g i hagent hframe
    · cases hframe
  · intro c c' completion completion' hheld hheld' hagent hframe hne
    rcases hold c completion hheld with hheld | rfl
    · rcases hold c' completion' hheld' with hheld' | rfl
      · exact h.unique c c' completion completion' hheld hheld' hagent hframe hne
      · exact absurd hframe hne
    · exact absurd rfl hne
  · intro c completion hheld f hf
    rcases hold c completion hheld with hheld | rfl
    · exact h.maybeSent c completion hheld f hf
    · cases hf; rfl

/-- 復号したばかりの応答を手元に加える。 -/
theorem complete (h : Sourced cfg hands result decoded) (g : ConnId) (c : CallId) (r : ResponseEnvelope)
    (hid : r.requestId = cfg.requestId c) :
    Sourced cfg
      (update hands (.reader g) (hands (.reader g) ++ [(c, ⟨.response r, .reader g, some (decoded g).length⟩)])) result
      (update decoded g (decoded g ++ [r])) := by
  have hnext := h.decode g r
  -- 新しいフレームの番号は、これまでのどの結果の番号よりも大きい
  have hfresh : ∀ c' completion', Held hands result c' completion' → completion'.agent = .reader g →
      completion'.frame ≠ some (decoded g).length := by
    intro c' completion' hheld hagent hframe
    exact Nat.lt_irrefl _ (h.frame_lt c' completion' hheld g _ hagent hframe)
  refine ⟨hnext.agent_append (by simp), ?_, ?_, ?_, ?_⟩
  · intro c' completion hheld r' hr'
    rcases hheld.append with hheld | hmem
    · exact hnext.response c' completion hheld r' hr'
    · obtain ⟨rfl, rfl⟩ := Prod.mk.inj (List.mem_singleton.mp hmem)
      cases hr'
      exact ⟨g, _, rfl, rfl, by simp, hid⟩
  · intro c' completion hheld g' i hagent hframe
    rcases hheld.append with hheld | hmem
    · exact hnext.frame_lt c' completion hheld g' i hagent hframe
    · obtain ⟨rfl, rfl⟩ := Prod.mk.inj (List.mem_singleton.mp hmem)
      cases hagent
      cases hframe
      simp
  · intro c₁ c₂ completion₁ completion₂ hheld₁ hheld₂ hagent hframe hne
    rcases hheld₁.append with hold₁ | hmem₁ <;> rcases hheld₂.append with hold₂ | hmem₂
    · exact h.unique c₁ c₂ completion₁ completion₂ hold₁ hold₂ hagent hframe hne
    · obtain ⟨rfl, rfl⟩ := Prod.mk.inj (List.mem_singleton.mp hmem₂)
      exact absurd hframe (hfresh c₁ completion₁ hold₁ hagent)
    · obtain ⟨rfl, rfl⟩ := Prod.mk.inj (List.mem_singleton.mp hmem₁)
      exact absurd hframe.symm (hfresh c₂ completion₂ hold₂ hagent.symm)
    · rw [(Prod.mk.inj (List.mem_singleton.mp hmem₁)).1, (Prod.mk.inj (List.mem_singleton.mp hmem₂)).1]
  · intro c' completion hheld f hf
    rcases hheld.append with hheld | hmem
    · exact hnext.maybeSent c' completion hheld f hf
    · obtain ⟨rfl, rfl⟩ := Prod.mk.inj (List.mem_singleton.mp hmem)
      cases hf

/-- 手元の結果を書く。 -/
theorem publish (h : Sourced cfg hands result decoded) {a : Agent} {c : CallId} {completion : Completion}
    (hmem : (c, completion) ∈ hands a) :
    Sourced cfg (update hands a ((hands a).erase (c, completion))) (update result c (some completion)) decoded := by
  exact ⟨fun b c' completion' he => h.agent_eq b c' completion' (mem_of_mem_erase_hand he),
    fun c' completion' hheld => h.response c' completion' (hheld.publish hmem),
    fun c' completion' hheld => h.frame_lt c' completion' (hheld.publish hmem),
    fun c₁ c₂ _ _ hheld₁ hheld₂ => h.unique c₁ c₂ _ _ (hheld₁.publish hmem) (hheld₂.publish hmem),
    fun c' completion' hheld => h.maybeSent c' completion' (hheld.publish hmem)⟩

end Sourced

theorem reachable_sourced (h : (client cfg).Reachable s) : Sourced cfg s.hands s.result s.decoded := by
  refine h.invariant (I := fun s => Sourced cfg s.hands s.result s.decoded) ?_ ?_
  · rintro s ⟨rfl⟩
    constructor <;> simp [State.initial, Held]
  · intro s a hreach hs ha _
    cases a with
    | complete g consumed response c =>
        obtain ⟨_, hkey⟩ := (reachable_pending_wf hreach).home_eq _ _ _ ha.2
        exact hs.complete g c response hkey.symm
    | completeUnknown g consumed response => exact hs.decode g response
    | failAll g status =>
        have := hs.sweep (.reader g) ((s.pendingCalls (s.connTransport g)).map Prod.snd) status
        rwa [List.map_map] at this
    | closeFailAll i t reader =>
        have := hs.sweep (.closer i) ((s.pendingCalls t).map Prod.snd) ⟨.unavailable, text "transport closed"⟩
        rwa [List.map_map] at this
    | publish a c completion => exact hs.publish ha
    | _ => exact hs

end Xrpc.Client
