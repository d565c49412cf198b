import Xrpc.Client.Lemmas.Readers
import Xrpc.Lib.Progress
import Xrpc.Protocol.Lemmas.Codec

/-!
# 呼び出しが返りうること

番号の使い回しのない実行では、どの状態からも、どの呼び出しも返りうる。書きかけの結果、`state_mutex_`、受信スレッド、
`write_mutex_` の順に片付ける。
-/

namespace Xrpc.Client
open Xrpc.Lib Xrpc.Protocol Function

/-! ## スレッドごとの動作 -/

inductive Thread where
  | call (c : CallId)
  | reader (g : ConnId)
  | closer (k : Nat)
  deriving DecidableEq

def CloserId.thread : CloserId → Thread
  | .caller c => .call c
  | .external k => .closer k

def Agent.thread : Agent → Thread
  | .reader g => .reader g
  | .closer i => i.thread

/-- 始まったものを片付ける動作を行うスレッド。接続を開く動作と、`Close` を始める動作は含まない。 -/
def Action.thread : Action → Option Thread
  | .tick | .openSocket _ _ | .connectOk _ _ _ | .close _ _ => none
  | .encodeFailed c _ | .startExpired c | .start c | .connected c | .takeReader c _ | .joined c _ | .socketFailed c _
  | .connectFailed c _ _ _ | .assignReader c _ | .registerFull c | .register c | .writeExpired c | .lockWrite c
  | .notConnected c | .connectedFd c _ _ | .setSendTimeoutFailed c _ _ _ | .setSendTimeout c _ _ | .sendPart c _ _ _ _ _
  | .sendLast c _ _ _ _ | .sendInterrupted c _ _ _ | .sendRetry c _ _ _ | .sendFails c _ _ _ _ | .unregister c _
  | .abandonWrite c _ | .writeFailed c _ | .resultReady c _ | .waitExpired c | .waitLost c => some (.call c)
  | .closeOpen i _ _ _ | .closeClosed i _ | .closeFailAll i _ _ | .closeJoin i _ => some i.thread
  | .decodeMore g | .complete g _ _ _ | .completeUnknown g _ _ | .completed g | .recv g _ _ | .readerFails g _
  | .closeFromReader g _ _ | .closeFromReaderSkip g _ | .failAll g _ | .readerDone g => some (.reader g)
  | .publish a _ _ => some a.thread

/-- `Θ` のスレッドのほかが、始まったものを片付ける。 -/
def Beside (Θ : Set Thread) (_ : State) (a : Action) : Prop := ∃ θ, a.thread = some θ ∧ θ ∉ Θ

variable {cfg : Config} {s s' : State} {c d : CallId} {g : ConnId} {t : TransportId} {Θ : Set Thread} {P : State → Prop}

theorem Beside.fresh {a : Action} (h : Beside Θ s a) : FreshDescriptor s a := by
  obtain ⟨θ, hθ, -⟩ := h
  cases a with
  | openSocket => cases hθ
  | _ => trivial

/-- 呼び出しの位置は、ほかのスレッドの動作では変わらない。 -/
theorem call_frame (cfg : Config) {a : Action} (hΘ : .call c ∈ Θ) (h : Beside Θ s a) :
    (a.next cfg s).pc c = s.pc c ∧ (a.next cfg s).closerPc (.caller c) = s.closerPc (.caller c) ∧
      (a.next cfg s).obtained c = s.obtained c := by
  obtain ⟨θ, hθ, hnot⟩ := h
  have hne : θ ≠ .call c := fun heq => hnot (heq ▸ hΘ)
  have hpc : ∀ {c' : CallId} {p : CallPc}, θ = .call c' → update s.pc c' p c = s.pc c := by
    rintro c' p rfl
    exact update_of_ne (fun heq => hne (by rw [heq])) _ _
  have hcloser : ∀ {i : CloserId} {p : CloserPc}, θ = i.thread →
      update s.closerPc i p (.caller c) = s.closerPc (.caller c) := by
    rintro i p rfl
    exact update_of_ne (fun heq => hne (by rw [← heq]; rfl)) _ _
  cases a with
  | tick | openSocket | connectOk | close => cases hθ
  | abandonWrite c' status => exact ⟨hpc (Option.some.inj hθ).symm, hcloser (i := .caller c') (Option.some.inj hθ).symm, rfl⟩
  | connectedFd c' fd g =>
      refine ⟨hpc (Option.some.inj hθ).symm, rfl, update_of_ne (fun heq => hne ?_) _ _⟩
      rw [← Option.some.inj hθ, heq]
  | closeOpen | closeClosed | closeFailAll | closeJoin => exact ⟨rfl, hcloser (Option.some.inj hθ).symm, rfl⟩
  | decodeMore | complete | completeUnknown | completed | recv | readerFails | closeFromReader | closeFromReaderSkip
  | failAll | readerDone | publish => exact ⟨rfl, rfl, rfl⟩
  | _ => exact ⟨hpc (Option.some.inj hθ).symm, rfl, rfl⟩

/-- 受信スレッドの位置は、ほかのスレッドの動作では変わらない。 -/
theorem reader_frame {a : Action} (hΘ : .reader g ∈ Θ) (h : Beside Θ s a) : (a.next cfg s).readerPc g = s.readerPc g := by
  obtain ⟨θ, hθ, hnot⟩ := h
  have hne : θ ≠ .reader g := fun heq => hnot (heq ▸ hΘ)
  have hpc : ∀ {g' : ConnId} {p : ReaderPc}, θ = .reader g' → update s.readerPc g' p g = s.readerPc g := by
    rintro g' p rfl
    exact update_of_ne (fun heq => hne (by rw [heq])) _ _
  cases a with
  | connectOk => cases hθ
  | decodeMore | complete | completed | recv | readerFails | closeFromReader | closeFromReaderSkip | failAll
  | readerDone => exact hpc (Option.some.inj hθ).symm
  | _ => rfl

theorem call_unmoved (hΘ : .call c ∈ Θ) (hsteps : (client cfg).Steps (Beside Θ) s s') :
    s'.pc c = s.pc c ∧ s'.closerPc (.caller c) = s.closerPc (.caller c) ∧ s'.obtained c = s.obtained c := by
  induction hsteps with
  | refl => exact ⟨rfl, rfl, rfl⟩
  | step _ _ hbeside ih =>
      obtain ⟨hpc, hcloser, hobtained⟩ := call_frame cfg hΘ hbeside
      exact ⟨hpc.trans ih.1, hcloser.trans ih.2.1, hobtained.trans ih.2.2⟩

theorem reader_unmoved (hΘ : .reader g ∈ Θ) (hsteps : (client cfg).Steps (Beside Θ) s s') : s'.readerPc g = s.readerPc g := by
  induction hsteps with
  | refl => rfl
  | step _ _ hbeside ih => exact (reader_frame hΘ hbeside).trans ih

theorem connTransport_unmoved (hsteps : (client cfg).Steps (Beside Θ) s s') : s'.connTransport g = s.connTransport g := by
  induction hsteps with
  | refl => rfl
  | @step s' a _ _ hbeside ih =>
      obtain ⟨θ, hθ, -⟩ := hbeside
      cases a with
      | openSocket => cases hθ
      | _ => exact ih

/-! ## 書きかけの結果 -/

/-- 取り出した者は、手元の `PendingCall` のすべてに結果を書き終えうる。 -/
theorem hands_published (a : Agent) (ha : a.thread ∉ Θ) :
    (client cfg).Leads (Beside Θ) s fun s' =>
      s'.hands a = [] ∧ ∃ hands result resultSets, s' = { s with hands, result, resultSets } := by
  induction hlength : (s.hands a).length generalizing s with
  | zero => exact .here ⟨List.eq_nil_of_length_eq_zero hlength, _, _, _, rfl⟩
  | succ n ih =>
      obtain ⟨⟨c, completion⟩, rest, hhands⟩ := List.exists_cons_of_length_eq_add_one hlength
      have hmem : (c, completion) ∈ s.hands a := by rw [hhands]; exact List.mem_cons_self
      refine .step (a := .publish a c completion) hmem ⟨_, rfl, ha⟩ ?_
      have hshorter : ((s.publish a c completion).hands a).length = n := by
        have hhands : (s.publish a c completion).hands a = (s.hands a).erase (c, completion) := update_self _ _ _
        rw [hhands, List.length_erase_of_mem hmem, hlength]
        rfl
      obtain ⟨s', hsteps, hnil, hands, result, resultSets, rfl⟩ := ih hshorter
      exact ⟨_, hsteps, hnil, hands, result, resultSets, rfl⟩

/-! ## 受信スレッドの終わり -/

/-- `state_mutex_` の区間を終えた受信スレッドは、ほかを待たずに終わりうる。 -/
theorem gone_reader_finishes (hg : .reader g ∉ Θ) (hgone : (s.readerPc g).stage = .gone) :
    (client cfg).Leads (Beside Θ) s fun s' =>
      s'.readerPc g = .done ∧ s'.pc = s.pc ∧ s'.readerThread = s.readerThread := by
  have hfailing : ∀ {s : State}, s.readerPc g = .failing → (client cfg).Leads (Beside Θ) s fun s' =>
      s'.readerPc g = .done ∧ s'.pc = s.pc ∧ s'.readerThread = s.readerThread := by
    intro s hpc
    refine (hands_published (.reader g) hg).bind ?_
    rintro _ - ⟨hnil, hands, result, resultSets, rfl⟩
    exact .last (a := .readerDone g) ⟨hpc, hnil⟩ ⟨_, rfl, hg⟩ ⟨update_self _ _ _, rfl, rfl⟩
  cases hpc : s.readerPc g with
  | failAll status =>
      refine .step (a := .failAll g status) hpc ⟨_, rfl, hg⟩ ?_
      exact hfailing (s := Action.next cfg s (.failAll g status)) (update_self _ _ _)
  | failing => exact hfailing hpc
  | done => exact .here ⟨hpc, rfl, rfl⟩
  | _ => rw [hpc] at hgone; cases hgone

/-! ## `state_mutex_` -/

/-- `state_mutex_` の解放に要らないスレッド。接続の途中の呼び出しと、`state_mutex_` の区間を終えた受信スレッドのほかである。 -/
def State.Aside (s : State) : Thread → Prop
  | .call c => (s.pc c).inConnect = false
  | .reader g => (s.readerPc g).stage = .live
  | .closer _ => True

/-- 番号の使い回しのない実行の状態で、`Θ` のスレッドは `state_mutex_` の解放に要らない。 -/
structure Clear (cfg : Config) (Θ : Set Thread) (s : State) : Prop where
  reach : (client cfg).Reach FreshDescriptor s
  aside : ∀ θ ∈ Θ, s.Aside θ

namespace Clear

theorem steps (h : Clear cfg Θ s) (hsteps : (client cfg).Steps (Beside Θ) s s') : Clear cfg Θ s' := by
  refine ⟨h.reach.steps (hsteps.mono fun _ _ => Beside.fresh), fun θ hθ => ?_⟩
  have haside := h.aside θ hθ
  cases θ with
  | call c => rwa [State.Aside, (call_unmoved hθ hsteps).1]
  | reader g => rwa [State.Aside, reader_unmoved hθ hsteps]
  | closer k => trivial

/-- `Θ` の外のスレッドが一歩進む。 -/
theorem step (h : Clear cfg Θ s) {a : Action} {θ : Thread} (ha : a.enabled cfg s) (hθ : a.thread = some θ) (hnot : θ ∉ Θ)
    (hnext : Clear cfg Θ (a.next cfg s) → (client cfg).Leads (Beside Θ) (a.next cfg s) P) :
    (client cfg).Leads (Beside Θ) s P :=
  have hbeside : Beside Θ s a := ⟨θ, hθ, hnot⟩
  .step ha hbeside (hnext (h.steps (.step .refl ha hbeside)))

theorem insert (h : Clear cfg Θ s) {θ : Thread} (hθ : s.Aside θ) : Clear cfg (insert θ Θ) s := by
  refine ⟨h.reach, ?_⟩
  rintro θ' (rfl | hmem)
  · exact hθ
  · exact h.aside θ' hmem

/-- 接続した呼び出しは、前の受信スレッドと合流して登録に進みうる。 -/
theorem assigning_finishes (h : Clear cfg Θ s) (hd : .call d ∉ Θ) (hpc : s.pc d = .assigning g) :
    (client cfg).Leads (Beside Θ) s fun s' => s'.pc d = .register ∧ s'.stateMutex (cfg.transport d) = none := by
  have hassign : ∀ {s : State}, s.pc d = .assigning g → s.joinable (s.readerThread (cfg.transport d)) →
      (client cfg).Leads (Beside Θ) s fun s' => s'.pc d = .register ∧ s'.stateMutex (cfg.transport d) = none := by
    intro s hpc hjoin
    exact .last (a := .assignReader d g) ⟨hpc, hjoin⟩ ⟨_, rfl, hd⟩ ⟨update_self _ _ _, update_self _ _ _⟩
  cases hthread : s.readerThread (cfg.transport d) with
  | none => exact hassign hpc (by rw [hthread]; rintro _ ⟨⟩)
  | some g' =>
      have hheld : s.stateMutex (cfg.transport d) = some d :=
        (reachable_stateMutex h.reach.reachable).owned d (by rw [comp_apply, hpc]; rfl)
      have hgone : (s.readerPc g').stage = .gone :=
        (reach_tended h.reach).gone hthread (.inr (by rw [hheld]; rintro ⟨⟩))
      have hbeside : .reader g' ∉ Θ := by
        intro hmem
        have hlive : (s.readerPc g').stage = .live := h.aside _ hmem
        rw [hgone] at hlive
        cases hlive
      refine (gone_reader_finishes hbeside hgone).bind ?_
      rintro s' - ⟨hdone, hpc', hthread'⟩
      refine hassign (by rw [hpc', hpc]) ?_
      rw [hthread', hthread]
      rintro _ ⟨⟩
      exact hdone

/-- `state_mutex_` は、握っている呼び出しが接続を諦めるか終えるかして、空きうる。 -/
theorem stateMutex_freed (h : Clear cfg Θ s) (t : TransportId) :
    (client cfg).Leads (Beside Θ) s fun s' => s'.stateMutex t = none := by
  cases hheld : s.stateMutex t with
  | none => exact .here hheld
  | some d =>
      obtain ⟨hin, rfl⟩ := (reachable_stateMutex h.reach.reachable).inside t d hheld
      replace hin : (s.pc d).inConnect = true := hin
      have hd : .call d ∉ Θ := by
        intro hmem
        have haside : (s.pc d).inConnect = false := h.aside _ hmem
        rw [hin] at haside
        cases haside
      cases hpc : s.pc d with
      | connecting fd g =>
          have hstatus : (⟨.unavailable, []⟩ : Status).code ≠ .ok := by rintro ⟨⟩
          exact .last (a := .connectFailed d fd g ⟨.unavailable, []⟩) ⟨hpc, hstatus⟩ ⟨_, rfl, hd⟩ (update_self _ _ _)
      | assigning g => exact (h.assigning_finishes hd hpc).mono (fun _ _ h => h) fun _ h => h.2
      | _ => rw [hpc] at hin; cases hin

/-- スレッド `θ` が、動かずに待つ。 -/
theorem wait (h : Clear cfg Θ s) {θ : Thread} (hlead : (client cfg).Leads (Beside (Insert.insert θ Θ)) s P) {Q : State → Prop}
    (hnext : ∀ s', Clear cfg Θ s' → (client cfg).Steps (Beside (Insert.insert θ Θ)) s s' → P s' →
      (client cfg).Leads (Beside Θ) s' Q) : (client cfg).Leads (Beside Θ) s Q := by
  obtain ⟨s', hsteps, hp⟩ := hlead
  have hsub : (client cfg).Steps (Beside Θ) s s' := by
    refine hsteps.mono ?_
    rintro _ _ ⟨θ', hthread, hnot⟩
    exact ⟨θ', hthread, fun hmem => hnot (Set.mem_insert_of_mem θ hmem)⟩
  obtain ⟨s'', hrest, hq⟩ := hnext s' (h.steps hsub) hsteps hp
  exact ⟨s'', hsub.trans hrest, hq⟩

/-! ## 受信スレッド -/

/-- 閉じようとする受信スレッドは、`state_mutex_` が空くのを待って閉じ、終わりうる。 -/
theorem closing_reader_finishes (h : Clear cfg Θ s) (hg : .reader g ∉ Θ) {status : Status}
    (hpc : s.readerPc g = .closing status) : (client cfg).Leads (Beside Θ) s fun s' => s'.readerPc g = .done := by
  have hend : ∀ {s}, (s.readerPc g).stage = .gone → (client cfg).Leads (Beside Θ) s fun s' => s'.readerPc g = .done :=
    fun hgone => (gone_reader_finishes hg hgone).mono (fun _ _ h => h) fun _ h => h.1
  have hlive : s.Aside (.reader g) := congrArg ReaderPc.stage hpc
  refine h.wait ((h.insert hlive).stateMutex_freed (s.connTransport g)) fun s' h' hsteps hfree => ?_
  rw [← connTransport_unmoved hsteps] at hfree
  replace hpc : s'.readerPc g = .closing status := (reader_unmoved (Set.mem_insert _ _) hsteps).trans hpc
  by_cases hfd : (s'.socket (s'.connTransport g)).map Prod.fst = some (s'.connFd g)
  · obtain ⟨⟨fd, actual⟩, hsocket, rfl⟩ := Option.map_eq_some_iff.mp hfd
    refine h'.step (a := .closeFromReader g status actual) ⟨hpc, hfree, hsocket⟩ rfl hg fun _ => hend ?_
    exact congrArg ReaderPc.stage (update_self g (.failAll status) s'.readerPc)
  · refine h'.step (a := .closeFromReaderSkip g status) ⟨hpc, hfree, hfd⟩ rfl hg fun _ => hend ?_
    exact congrArg ReaderPc.stage (update_self g (.failAll status) s'.readerPc)

theorem reader_fails (h : Clear cfg Θ s) (hg : .reader g ∉ Θ) (failure : ReaderFailure) (hoccurs : failure.occurs cfg s g) :
    (client cfg).Leads (Beside Θ) s fun s' => s'.readerPc g = .done :=
  h.step (a := .readerFails g failure) hoccurs rfl hg fun h' => h'.closing_reader_finishes hg (update_self _ _ _)

/-- 復号した応答を渡し終え、次の復号に進みうる。 -/
theorem completing_finishes (h : Clear cfg Θ s) (hg : .reader g ∉ Θ) (hpc : s.readerPc g = .completing)
    (hnext : ∀ {s'}, Clear cfg Θ s' → s'.readerPc g = .decoding → s'.readerBuffer g = s.readerBuffer g →
      (client cfg).Leads (Beside Θ) s' P) : (client cfg).Leads (Beside Θ) s P := by
  refine (hands_published (.reader g) hg).bind ?_
  rintro _ hsteps ⟨hnil, hands, result, resultSets, rfl⟩
  exact (h.steps hsteps).step (a := .completed g) ⟨hpc, hnil⟩ rfl hg fun h' => hnext h' (update_self _ _ _) rfl

/-- 復号に成功するたびに手元の入力は短くなり、やがて続きを待つか、閉じる。 -/
theorem decoding_finishes (h : Clear cfg Θ s) (hg : .reader g ∉ Θ) (hpc : s.readerPc g = .decoding) :
    (client cfg).Leads (Beside Θ) s fun s' => s'.readerPc g = .done := by
  induction hlength : (s.readerBuffer g).length using Nat.strong_induction_on generalizing s with
  | h n ih =>
      subst hlength
      by_cases hmore : (s.decodeBuffer cfg g).error = .needMoreData
      · exact h.step (a := .decodeMore g) ⟨hpc, hmore⟩ rfl hg fun h' =>
          h'.reader_fails hg .peerClosed (update_self _ _ _)
      by_cases hok : (s.decodeBuffer cfg g).error = .ok
      · cases hresponse : (s.decodeBuffer cfg g).response with
        | none => exact h.reader_fails hg .notResponse ⟨hpc, hok, hresponse⟩
        | some response =>
            have hdecodes : s.decodes cfg g (s.decodeBuffer cfg g).consumed response := ⟨hpc, hok, hresponse, rfl⟩
            have hshorter : ∀ {buffer}, buffer = (s.readerBuffer g).drop (s.decodeBuffer cfg g).consumed →
                buffer.length < (s.readerBuffer g).length := by
              rintro _ rfl
              obtain ⟨header, hat, hconsumed, -⟩ := decode_ok hok
              have htotal := hat.total_le
              have hsize : FrameHeader.SIZE = 24 := rfl
              rw [List.length_drop, State.decodeBuffer, hconsumed]
              omega
            by_cases hmem : response.requestId ∈ s.ids (s.connTransport g)
            · obtain ⟨⟨id, c⟩, hentry, rfl⟩ := List.mem_map.mp hmem
              refine h.step (a := .complete g _ response c) ⟨hdecodes, hentry⟩ rfl hg fun h' => ?_
              refine h'.completing_finishes hg (update_self _ _ _) fun h'' hpc'' hbuffer => ?_
              exact ih _ (hshorter (hbuffer.trans (update_self _ _ _))) h'' hpc'' rfl
            · refine h.step (a := .completeUnknown g _ response) ⟨hdecodes, hmem⟩ rfl hg fun h' => ?_
              exact ih _ (hshorter (update_self g _ s.readerBuffer)) h' hpc rfl
      · exact h.reader_fails hg .undecodable ⟨hpc, hok, hmore⟩

/-- 走り始めた受信スレッドは、接続が切れて終わりうる。 -/
theorem reader_finishes (h : Clear cfg Θ s) (hg : .reader g ∉ Θ) (hborn : s.readerPc g ≠ .unborn) :
    (client cfg).Leads (Beside Θ) s fun s' => s'.readerPc g = .done := by
  cases hpc : s.readerPc g with
  | unborn => exact absurd hpc hborn
  | decoding => exact h.decoding_finishes hg hpc
  | completing => exact h.completing_finishes hg hpc fun h' hpc' _ => h'.decoding_finishes hg hpc'
  | receiving => exact h.reader_fails hg .peerClosed hpc
  | closing status => exact h.closing_reader_finishes hg hpc
  | failAll | failing | done =>
      exact (gone_reader_finishes hg (congrArg ReaderPc.stage hpc)).mono (fun _ _ h => h) fun _ h => h.1

/-! ## `write_mutex_` -/

/-- 呼び出し `d` は返り、その `write_mutex_` は空いている。 -/
def Released (cfg : Config) (d : CallId) (s : State) : Prop :=
  (∃ r, s.pc d = .returned r) ∧ s.writeMutex (cfg.transport d) = none

section Closing

variable {status : Status} {reader : Option ConnId}

theorem aside_closing (hpc : s.pc d = .closing status) : s.Aside (.call d) := congrArg CallPc.inConnect hpc

theorem done_returns (h : Clear cfg Θ s) (hd : .call d ∉ Θ) (hpc : s.pc d = .closing status)
    (hcloser : s.closerPc (.caller d) = .done) : (client cfg).Leads (Beside Θ) s (Released cfg d) :=
  h.step (a := .writeFailed d status) ⟨hpc, hcloser⟩ rfl hd fun _ => .here ⟨⟨_, update_self _ _ _⟩, update_self _ _ _⟩

/-- 引き取った受信スレッドが終わっていれば、手元の結果を書き終えて返りうる。 -/
theorem joinable_returns (h : Clear cfg Θ s) (hd : .call d ∉ Θ) (hpc : s.pc d = .closing status)
    (hcloser : s.closerPc (.caller d) = .publishing reader) (hjoin : s.joinable reader) :
    (client cfg).Leads (Beside Θ) s (Released cfg d) := by
  refine (hands_published (.closer (.caller d)) hd).bind ?_
  rintro _ hsteps ⟨hnil, hands, result, resultSets, rfl⟩
  exact (h.steps hsteps).step (a := .closeJoin (.caller d) reader) ⟨hcloser, hnil, hjoin⟩ rfl hd fun h' =>
    h'.done_returns hd hpc (update_self _ _ _)

/-- 引き取った受信スレッドが終わるのを待って返りうる。 -/
theorem publishing_returns (h : Clear cfg Θ s) (hd : .call d ∉ Θ) (hreaders : ∀ g, .reader g ∉ Θ)
    (hpc : s.pc d = .closing status) (hcloser : s.closerPc (.caller d) = .publishing reader) :
    (client cfg).Leads (Beside Θ) s (Released cfg d) := by
  cases reader with
  | none => exact h.joinable_returns hd hpc hcloser (by rintro _ ⟨⟩)
  | some g =>
      have hborn := reachable_joins_born h.reach.reachable (.inr (.inr ⟨.caller d, .inr hcloser⟩))
      have hg : .reader g ∉ Insert.insert (Thread.call d) Θ := by
        rintro (⟨⟨⟩⟩ | hmem)
        exact hreaders g hmem
      refine h.wait ((h.insert (aside_closing hpc)).reader_finishes hg hborn) fun s' h' hsteps hdone => ?_
      obtain ⟨hpc', hcloser', -⟩ := call_unmoved (Set.mem_insert _ _) hsteps
      refine h'.joinable_returns hd (hpc'.trans hpc) (hcloser'.trans hcloser) ?_
      rintro _ ⟨⟩
      exact hdone

theorem failAll_returns (h : Clear cfg Θ s) (hd : .call d ∉ Θ) (hreaders : ∀ g, .reader g ∉ Θ)
    (hpc : s.pc d = .closing status) (hcloser : s.closerPc (.caller d) = .failAll t reader) :
    (client cfg).Leads (Beside Θ) s (Released cfg d) :=
  h.step (a := .closeFailAll (.caller d) t reader) hcloser rfl hd fun h' =>
    h'.publishing_returns hd hreaders hpc (update_self _ _ _)

/-- 書き込みに失敗した呼び出しは、自分の `Close` を終えて返り、`write_mutex_` を放しうる。 -/
theorem closing_returns (h : Clear cfg Θ s) (hd : .call d ∉ Θ) (hreaders : ∀ g, .reader g ∉ Θ)
    (hpc : s.pc d = .closing status) : (client cfg).Leads (Beside Θ) s (Released cfg d) := by
  cases hcloser : s.closerPc (.caller d) with
  | idle => exact absurd hcloser (reachable_closing h.reach.reachable hpc)
  | closing t =>
      refine h.wait ((h.insert (aside_closing hpc)).stateMutex_freed t) fun s' h' hsteps hfree => ?_
      obtain ⟨hpc', hcloser', -⟩ := call_unmoved (Set.mem_insert _ _) hsteps
      replace hcloser := hcloser'.trans hcloser
      cases hsocket : s'.socket t with
      | none =>
          exact h'.step (a := .closeClosed (.caller d) t) ⟨hcloser, hfree, hsocket⟩ rfl hd fun h'' =>
            h''.failAll_returns hd hreaders (hpc'.trans hpc) (update_self _ _ _)
      | some entry =>
          exact h'.step (a := .closeOpen (.caller d) t entry.1 entry.2) ⟨hcloser, hfree, hsocket⟩ rfl hd fun h'' =>
            h''.failAll_returns hd hreaders (hpc'.trans hpc) (update_self _ _ _)
  | failAll t reader => exact h.failAll_returns hd hreaders hpc hcloser
  | publishing reader => exact h.publishing_returns hd hreaders hpc hcloser
  | done => exact h.done_returns hd hpc hcloser

end Closing

/-- `write_mutex_` を握る呼び出しは、返ってそれを放しうる。 -/
theorem writer_returns (h : Clear cfg Θ s) (hd : .call d ∉ Θ) (hreaders : ∀ g, .reader g ∉ Θ) (hin : (s.pc d).inWrite) :
    (client cfg).Leads (Beside Θ) s (Released cfg d) := by
  have hunregister : ∀ {s failure}, Clear cfg Θ s → s.pc d = .unregister failure →
      (client cfg).Leads (Beside Θ) s (Released cfg d) :=
    fun h hpc => h.step (a := .unregister d _) hpc rfl hd fun _ => .here ⟨⟨_, update_self _ _ _⟩, update_self _ _ _⟩
  have htimeout : ∀ {s fd g}, Clear cfg Θ s → s.pc d = .setSendTimeout fd g →
      (client cfg).Leads (Beside Θ) s (Released cfg d) :=
    fun h hpc => h.step (a := .setSendTimeoutFailed d _ _ EAGAIN) hpc rfl hd fun h' => hunregister h' (update_self _ _ _)
  have hfailed : ∀ {s status}, Clear cfg Θ s → s.pc d = .sendFailed status →
      (client cfg).Leads (Beside Θ) s (Released cfg d) :=
    fun h hpc => h.step (a := .abandonWrite d _) hpc rfl hd fun h' =>
      h'.closing_returns hd hreaders (update_self _ _ _)
  have hfails : ∀ {s} fd g written (failure : SendFailure), Clear cfg Θ s → failure.occurs cfg s d fd g written →
      (client cfg).Leads (Beside Θ) s (Released cfg d) :=
    fun _ _ _ _ h hoccurs => h.step (a := .sendFails d _ _ _ _) hoccurs rfl hd fun h' => hfailed h' (update_self _ _ _)
  cases hpc : s.pc d with
  | connectedFd =>
      have haside : s.Aside (.call d) := congrArg CallPc.inConnect hpc
      refine h.wait ((h.insert haside).stateMutex_freed (cfg.transport d)) fun s' h' hsteps hfree => ?_
      replace hpc := (call_unmoved (Set.mem_insert _ _) hsteps).1.trans hpc
      cases hsocket : s'.socket (cfg.transport d) with
      | none =>
          exact h'.step (a := .notConnected d) ⟨hpc, hfree, hsocket⟩ rfl hd fun h'' => hunregister h'' (update_self _ _ _)
      | some entry =>
          exact h'.step (a := .connectedFd d entry.1 entry.2) ⟨hpc, hfree, hsocket⟩ rfl hd fun h'' =>
            htimeout h'' (update_self _ _ _)
  | setSendTimeout fd g => exact htimeout h hpc
  | retry fd g written =>
      by_cases hexpired : cfg.expired s.now d
      · exact hfails fd g written .timedOut h ⟨hpc, hexpired⟩
      · by_cases hdeadline : (cfg.calls d).deadline = none
        · exact h.step (a := .sendRetry d fd g written) ⟨hpc, .inl hdeadline⟩ rfl hd fun h' =>
            hfails fd g written .peerClosed h' (update_self _ _ _)
        · exact hfails fd g written (.setTimeout EAGAIN) h ⟨hpc, hdeadline, hexpired⟩
  | send fd g written => exact hfails fd g written .peerClosed h hpc
  | unregister failure => exact hunregister h hpc
  | sendFailed status => exact hfailed h hpc
  | closing status => exact h.closing_returns hd hreaders hpc
  | _ => rw [hpc] at hin; cases hin

end Clear

/-! ## 呼び出し -/

/-- 結果を待つ呼び出しには、表から取り出した者か、書かれた結果か、まだ表を片付けていない受信スレッドがある。 -/
theorem waiting_attended (hL : cfg.layout.Distinct) (h : (client cfg).Reachable s)
    (hpc : s.pc c = .wait ∨ s.pc c = .waitTaken) :
    (∃ a completion, (c, completion) ∈ s.hands a) ∨ s.result c ≠ none ∨
      (cfg.requestId c, c) ∈ s.pendingCalls (cfg.transport c) ∧
        ∃ g, s.obtained c = some g ∧ (s.readerPc g).settled = false := by
  have hstage : s.pending.stage c = .waiting ∨ s.pending.stage c = .handed :=
    hpc.imp (congrArg CallPc.stage) (congrArg CallPc.stage)
  rcases reachable_attended hL h c (.inr hstage) with hmem | hhand | hres
  · obtain ⟨g, hg⟩ : ∃ g, s.obtained c = some g := by
      refine Option.ne_none_iff_exists'.mp ?_
      have hholds := reachable_holds h c
      rcases hpc with hpc | hpc
      · rw [hpc] at hholds; exact hholds
      · rw [hpc] at hholds; exact hholds
    exact .inr (.inr ⟨hmem, g, hg, (reachable_attached h).table_open _ _ c g hmem hg⟩)
  · exact .inl hhand
  · exact .inr (.inl hres)

/-- 呼び出しは、番号の使い回しのないある続きで返る。 -/
def Returns (cfg : Config) (c : CallId) (s : State) : Prop :=
  (client cfg).Leads FreshDescriptor s fun s' => ∃ r, s'.pc c = .returned r

namespace Returns

theorem step (h : (client cfg).Reach FreshDescriptor s) {a : Action} (ha : a.enabled cfg s) (hfresh : FreshDescriptor s a)
    (hnext : (client cfg).Reach FreshDescriptor (a.next cfg s) → Returns cfg c (a.next cfg s)) : Returns cfg c s :=
  Machine.Leads.step ha hfresh (hnext (.step h ha hfresh))

/-- 呼び出しが、動かずに待つ。 -/
theorem wait (h : (client cfg).Reach FreshDescriptor s)
    (hlead : (client cfg).Leads (Beside {.call c}) s P)
    (hnext : ∀ s', (client cfg).Reach FreshDescriptor s' → s'.pc c = s.pc c → s'.obtained c = s.obtained c → P s' →
      Returns cfg c s') : Returns cfg c s := by
  obtain ⟨s', hsteps, hp⟩ := hlead
  have hfresh : (client cfg).Steps FreshDescriptor s s' := hsteps.mono fun _ _ => Beside.fresh
  obtain ⟨hpc, -, hobtained⟩ := call_unmoved (Set.mem_singleton _) hsteps
  obtain ⟨s'', hrest, hr⟩ := hnext s' (h.steps hfresh) hpc hobtained hp
  exact ⟨s'', hfresh.trans hrest, hr⟩

theorem clear_call (h : (client cfg).Reach FreshDescriptor s) (hin : (s.pc c).inConnect = false) :
    Clear cfg {.call c} s := by
  refine ⟨h, ?_⟩
  rintro _ rfl
  exact hin

theorem reader_notMem_call : Thread.reader g ∉ ({.call c} : Set Thread) := by
  rintro ⟨⟩

theorem of_inWrite (h : (client cfg).Reach FreshDescriptor s) (hin : (s.pc c).inWrite) : Returns cfg c s := by
  have hclear : Clear cfg ∅ s := ⟨h, by rintro _ ⟨⟩⟩
  exact (hclear.writer_returns (Set.notMem_empty _) (fun _ => Set.notMem_empty _) hin).mono
    (fun _ _ => Beside.fresh) fun _ h => h.1

/-- `write_mutex_` を待つ呼び出し。 -/
theorem of_lockWrite (h : (client cfg).Reach FreshDescriptor s) (hpc : s.pc c = .lockWrite) : Returns cfg c s := by
  have hfree : (client cfg).Leads (Beside {.call c}) s fun s' => s'.writeMutex (cfg.transport c) = none := by
    cases hheld : s.writeMutex (cfg.transport c) with
    | none => exact .here hheld
    | some d =>
        obtain ⟨hin, hhome⟩ := (reachable_writeMutex h.reachable).inside _ d hheld
        replace hin : (s.pc d).inWrite = true := hin
        have hd : Thread.call d ∉ ({.call c} : Set Thread) := by
          rintro ⟨⟩
          rw [hpc] at hin
          cases hin
        rw [← hhome]
        exact ((clear_call h (by rw [hpc]; rfl)).writer_returns hd (fun _ => reader_notMem_call) hin).mono
          (fun _ _ h => h) fun _ h => h.2
  refine wait h hfree fun s' h' hpc' _ hfree' => ?_
  replace hpc := hpc'.trans hpc
  by_cases hexpired : cfg.expired s'.now c
  · refine step h' (a := .writeExpired c) ⟨hpc, hfree', hexpired⟩ trivial fun h'' => of_inWrite h'' ?_
    exact congrArg CallPc.inWrite (update_self c _ s'.pc)
  · refine step h' (a := .lockWrite c) ⟨hpc, hfree', hexpired⟩ trivial fun h'' => of_inWrite h'' ?_
    exact congrArg CallPc.inWrite (update_self c _ s'.pc)

theorem of_register (h : (client cfg).Reach FreshDescriptor s) (hpc : s.pc c = .register) : Returns cfg c s := by
  rcases Nat.lt_or_ge (s.pendingCalls (cfg.transport c)).length
    (cfg.transports (cfg.transport c)).maxInflightPerEndpoint with hroom | hfull
  · exact step h (a := .register c) ⟨hpc, hroom⟩ trivial fun h' => of_lockWrite h' (update_self _ _ _)
  · exact step h (a := .registerFull c) ⟨hpc, hfull⟩ trivial fun _ => .here ⟨_, update_self _ _ _⟩

/-- 接続の有無を見る呼び出し。`state_mutex_` は空いている。 -/
theorem of_mayConnect (h : (client cfg).Reach FreshDescriptor s) (hfree : s.stateMutex (cfg.transport c) = none)
    (hpc : s.pc c = .reconnect ∨ s.pc c = .ensureConnected ∧ s.readerThread (cfg.transport c) = none) :
    Returns cfg c s := by
  cases hsocket : s.socket (cfg.transport c) with
  | none =>
      have hstatus : (⟨.unavailable, []⟩ : Status).code ≠ .ok := by rintro ⟨⟩
      exact step h (a := .socketFailed c ⟨.unavailable, []⟩) ⟨⟨hfree, hsocket, hpc⟩, hstatus⟩ trivial fun _ =>
        .here ⟨_, update_self _ _ _⟩
  | some entry =>
      have hsome : s.socket (cfg.transport c) ≠ none := by rw [hsocket]; rintro ⟨⟩
      exact step h (a := .connected c) ⟨hpc.symm.imp_left And.left, hfree, hsome⟩ trivial fun h' =>
        of_register h' (update_self _ _ _)

theorem of_reconnect (h : (client cfg).Reach FreshDescriptor s) (hpc : s.pc c = .reconnect) : Returns cfg c s :=
  wait h ((clear_call h (by rw [hpc]; rfl)).stateMutex_freed (cfg.transport c)) fun _ h' hpc' _ hfree =>
    of_mayConnect h' hfree (.inl (hpc'.trans hpc))

theorem of_joinReader (h : (client cfg).Reach FreshDescriptor s) (hpc : s.pc c = .joinReader g) : Returns cfg c s := by
  have hborn := reachable_joins_born h.reachable (.inr (.inl ⟨c, .inl hpc⟩))
  refine wait h ((clear_call h (by rw [hpc]; rfl)).reader_finishes reader_notMem_call hborn) fun s' h' hpc' _ hdone => ?_
  exact step h' (a := .joined c g) ⟨hpc'.trans hpc, hdone⟩ trivial fun h'' => of_reconnect h'' (update_self _ _ _)

theorem of_ensureConnected (h : (client cfg).Reach FreshDescriptor s) (hpc : s.pc c = .ensureConnected) :
    Returns cfg c s := by
  refine wait h ((clear_call h (by rw [hpc]; rfl)).stateMutex_freed (cfg.transport c)) fun s' h' hpc' _ hfree => ?_
  replace hpc := hpc'.trans hpc
  cases hthread : s'.readerThread (cfg.transport c) with
  | none => exact of_mayConnect h' hfree (.inr ⟨hpc, hthread⟩)
  | some g =>
      by_cases hsocket : s'.socket (cfg.transport c) = none
      · exact step h' (a := .takeReader c g) ⟨hpc, hfree, hsocket, hthread⟩ trivial fun h'' =>
          of_joinReader h'' (update_self _ _ _)
      · exact step h' (a := .connected c) ⟨.inl hpc, hfree, hsocket⟩ trivial fun h'' => of_register h'' (update_self _ _ _)

/-- 結果を待つ呼び出し。表に残っていれば、写し取った世代の受信スレッドが、終わる前に取り出す。 -/
theorem of_wait (hL : cfg.layout.Distinct) (h : (client cfg).Reach FreshDescriptor s)
    (hpc : s.pc c = .wait ∨ s.pc c = .waitTaken) : Returns cfg c s := by
  have hready : ∀ {s}, (client cfg).Reach FreshDescriptor s → s.pc c = .wait ∨ s.pc c = .waitTaken → s.result c ≠ none →
      Returns cfg c s := by
    intro s h hpc hresult
    obtain ⟨completion, hsome⟩ := Option.ne_none_iff_exists'.mp hresult
    exact step h (a := .resultReady c completion) ⟨hpc, hsome⟩ trivial fun _ => .here ⟨_, update_self _ _ _⟩
  have hpublish : ∀ {s a completion}, (client cfg).Reach FreshDescriptor s → s.pc c = .wait ∨ s.pc c = .waitTaken →
      (c, completion) ∈ s.hands a → Returns cfg c s := by
    intro s a completion h hpc hmem
    refine step h (a := .publish a c completion) hmem trivial fun h' => hready h' hpc ?_
    rw [show (Action.next cfg s (.publish a c completion)).result c = some completion from update_self _ _ _]
    rintro ⟨⟩
  rcases waiting_attended hL h.reachable hpc with ⟨a, completion, hmem⟩ | hresult | ⟨-, g, hobtained, hopen⟩
  · exact hpublish h hpc hmem
  · exact hready h hpc hresult
  · have hin : (s.pc c).inConnect = false := by rcases hpc with hpc | hpc <;> rw [hpc] <;> rfl
    have hborn := ReaderPc.ne_unborn_of_not_settled hopen
    refine wait h ((clear_call h hin).reader_finishes reader_notMem_call hborn) fun s' h' hpc' hobtained' hdone => ?_
    rw [← hpc'] at hpc
    rcases waiting_attended hL h'.reachable hpc with ⟨a, completion, hmem⟩ | hresult | ⟨-, g', hg', hopen'⟩
    · exact hpublish h' hpc hmem
    · exact hready h' hpc hresult
    · -- 終わった受信スレッドの世代を写した呼び出しは、表に残っていない
      obtain rfl : g = g' := Option.some.inj (hobtained.symm.trans (hobtained'.symm.trans hg'))
      rw [hdone] at hopen'
      cases hopen'

end Returns

/-- 番号の使い回しのない実行では、どの状態からも、どの呼び出しも返りうる。 -/
theorem call_returns (hL : cfg.layout.Distinct) (h : (client cfg).Reach FreshDescriptor s) (c : CallId) :
    Returns cfg c s := by
  cases hpc : s.pc c with
  | idle =>
      cases hencoded : cfg.encoded c with
      | error status =>
          exact .step h (a := .encodeFailed c status) ⟨hpc, hencoded⟩ trivial fun _ => .here ⟨_, update_self _ _ _⟩
      | ok frame =>
          have hframe : cfg.encoded c = .ok (cfg.requestFrame c) := by rw [Config.requestFrame, hencoded]
          by_cases hexpired : cfg.expired s.now c
          · exact .step h (a := .startExpired c) ⟨hpc, hframe, hexpired⟩ trivial fun _ => .here ⟨_, update_self _ _ _⟩
          · exact .step h (a := .start c) ⟨hpc, hframe, hexpired⟩ trivial fun h' =>
              .of_ensureConnected h' (update_self _ _ _)
  | ensureConnected => exact .of_ensureConnected h hpc
  | joinReader g => exact .of_joinReader h hpc
  | reconnect => exact .of_reconnect h hpc
  | connecting fd g =>
      have hstatus : (⟨.unavailable, []⟩ : Status).code ≠ .ok := by rintro ⟨⟩
      exact .step h (a := .connectFailed c fd g ⟨.unavailable, []⟩) ⟨hpc, hstatus⟩ trivial fun _ =>
        .here ⟨_, update_self _ _ _⟩
  | assigning g =>
      have hclear : Clear cfg ∅ s := ⟨h, by rintro _ ⟨⟩⟩
      obtain ⟨s', hsteps, hregister, -⟩ := hclear.assigning_finishes (Set.notMem_empty _) hpc
      have hfresh : (client cfg).Steps FreshDescriptor s s' := hsteps.mono fun _ _ => Beside.fresh
      obtain ⟨s'', hrest, hr⟩ := Returns.of_register (h.steps hfresh) hregister
      exact ⟨s'', hfresh.trans hrest, hr⟩
  | register => exact .of_register h hpc
  | lockWrite => exact .of_lockWrite h hpc
  | connectedFd | setSendTimeout | retry | send | unregister | sendFailed | closing =>
      exact .of_inWrite h (congrArg CallPc.inWrite hpc)
  | wait => exact .of_wait hL h (.inl hpc)
  | waitTaken => exact .of_wait hL h (.inr hpc)
  | returned r => exact .here ⟨r, hpc⟩

end Xrpc.Client
