import Xrpc.Client.Lemmas.ControlFlow
import Xrpc.Lib.SharedSocket

/-!
# ソケットと記述子

クライアントの実行は、共有するソケットの実行として見える。
-/

namespace Xrpc.Client
open Xrpc.Lib Xrpc.Protocol Function

variable {cfg : Config} {s : State} {c : CallId}

/-! ## 書き込みに失敗した呼び出しの `Close` -/

/-- 呼び出しの `Close` は書き込みの失敗から始まり、ソケットを閉じるまでは、呼び出しはその終わりを待っている。 -/
structure OwnClose (cfg : Config) (pc : CallId → CallPc) (closerPc : CloserId → CloserPc) : Prop where
  started : ∀ c, closerPc (.caller c) ≠ .idle → (∃ status, pc c = .closing status) ∨ ∃ r, pc c = .returned r
  waiting : ∀ c t, closerPc (.caller c) = .closing t → t = cfg.transport c ∧ ∃ status, pc c = .closing status

namespace OwnClose

variable {pc : CallId → CallPc} {closerPc : CloserId → CloserPc}

theorem setCloser (h : OwnClose cfg pc closerPc) {i : CloserId} {p : CloserPc}
    (hi : ∀ c, i = .caller c → closerPc i ≠ .idle ∧ ∀ t, p ≠ .closing t) : OwnClose cfg pc (update closerPc i p) := by
  constructor
  · intro c hc
    by_cases heq : CloserId.caller c = i
    · exact h.started c (heq ▸ (hi c heq.symm).1)
    · rw [update_of_ne heq] at hc
      exact h.started c hc
  · intro c t hc
    by_cases heq : CloserId.caller c = i
    · subst heq
      rw [update_self] at hc
      exact absurd hc ((hi c rfl).2 t)
    · rw [update_of_ne heq] at hc
      exact h.waiting c t hc

theorem moves (h : OwnClose cfg pc closerPc) {p p' : CallPc} {result : Option Completion} {expired : Bool}
    {lock : Lock} (hpc : pc c = p) (hm : p.Moves result (closerPc (.caller c)) expired lock p') :
    OwnClose cfg (update pc c p') closerPc := by
  subst hpc
  constructor
  · intro c' hc
    by_cases hcc : c' = c
    · subst hcc
      rw [update_self]
      rcases h.started c' hc with ⟨status, hpc⟩ | ⟨r, hpc⟩
      · rw [hpc] at hm
        cases hm with
        | writeFailed => exact .inr ⟨_, rfl⟩
      · rw [hpc] at hm
        cases hm
    · rw [update_of_ne hcc]
      exact h.started c' hc
  · intro c' t hc
    obtain ⟨ht, status, hpc⟩ := h.waiting c' t hc
    refine ⟨ht, status, ?_⟩
    by_cases hcc : c' = c
    · subst hcc
      rw [hpc] at hm
      -- 閉じ終わるまで、位置は移らない
      cases hm with
      | writeFailed hdone => rw [hdone] at hc; cases hc
    · rw [update_of_ne hcc]
      exact hpc

end OwnClose

theorem reachable_ownClose (h : (client cfg).Reachable s) : OwnClose cfg s.pc s.closerPc := by
  refine h.invariant (I := fun s => OwnClose cfg s.pc s.closerPc) ?_ ?_
  · rintro s ⟨rfl⟩
    exact ⟨fun c hc => absurd rfl hc, nofun⟩
  · intro s a _ hs h _
    have hmoved : OwnClose cfg (a.next cfg s).pc s.closerPc := by
      rcases pc_step h with ⟨heq, _⟩ | ⟨c, pc, pc', lock, hmoved⟩
      · rw [heq]; exact hs
      · rw [hmoved.next_eq]; exact hs.moves hmoved.pc_eq hmoved.moves
    have hbusy : ∀ {i pc}, s.closerPc i = pc → pc ≠ .idle → s.closerPc i ≠ .idle := fun heq hne => heq ▸ hne
    cases a with
    | abandonWrite c status =>
        have hpc : (update s.pc c (.closing status)) c = .closing status := update_self _ _ _
        constructor
        · intro c' hc
          by_cases hcc : CloserId.caller c' = .caller c
          · obtain rfl := CloserId.caller.inj hcc
            exact .inl ⟨status, hpc⟩
          · exact hmoved.started c' (by rwa [← update_of_ne hcc (.closing (cfg.transport c)) s.closerPc])
        · intro c' t hc
          by_cases hcc : CloserId.caller c' = .caller c
          · obtain rfl := CloserId.caller.inj hcc
            have heq := (update_self _ _ _).symm.trans hc
            exact ⟨(CloserPc.closing.inj heq).symm, status, hpc⟩
          · exact hmoved.waiting c' t ((update_of_ne hcc _ _).symm.trans hc)
    | close k t => exact hmoved.setCloser nofun
    | closeOpen i t fd g => exact hmoved.setCloser fun _ _ => ⟨hbusy h.1 nofun, nofun⟩
    | closeClosed i t => exact hmoved.setCloser fun _ _ => ⟨hbusy h.1 nofun, nofun⟩
    | closeFailAll i t reader => exact hmoved.setCloser fun _ _ => ⟨hbusy h nofun, nofun⟩
    | closeJoin i reader => exact hmoved.setCloser fun _ _ => ⟨hbusy h.1 nofun, nofun⟩
    | _ => exact hmoved

/-! ## 共有するソケットとしての見え方 -/

open SharedSocket in
/-- 書き込みに失敗した呼び出しは、自分の `Close` がソケットを閉じるまでは、閉じていない。 -/
def CallPc.writer (closer : CloserPc) : CallPc → Writer
  | .connecting fd g => .opening fd g
  | .connectedFd | .unregister _ => .locked
  | .setSendTimeout fd g => .holding fd g 0
  | .retry fd g written | .send fd g written => .holding fd g written
  | .sendFailed _ => .broken
  | .closing _ =>
      match closer with
      | .closing _ => .broken
      | _ => .shut
  | _ => .idle

open SharedSocket in
def ReaderPc.stage : ReaderPc → Reader
  | .unborn => .unborn
  | .decoding | .completing | .receiving | .closing _ => .live
  | .failAll _ | .failing | .done => .gone

def Config.sockets (cfg : Config) : SharedSocket.Layout TransportId CallId UInt8 where
  home := cfg.transport
  frame := cfg.requestFrame

abbrev SocketState := SharedSocket.State TransportId CallId UInt8

abbrev SocketAct := SharedSocket.Act TransportId CallId

def State.sockets (s : State) : SocketState where
  fds := s.fds
  nextConn := s.nextConn
  connHome := s.connTransport
  connFd := s.connFd
  socket := s.socket
  writer c := (s.pc c).writer (s.closerPc (.caller c))
  reader := ReaderPc.stage ∘ s.readerPc
  sent := s.sent
  log := s.log.map fun e => (e.obtained, e.actual)

namespace State

theorem sockets_setPc (s : State) (c : CallId) (pc : CallPc) :
    (s.setPc c pc).sockets = SharedSocket.setWriter s.sockets c (pc.writer (s.closerPc (.caller c))) := by
  have hwriter : (fun c' => (update s.pc c pc c').writer (s.closerPc (.caller c'))) =
      update s.sockets.writer c (pc.writer (s.closerPc (.caller c))) := by
    funext c'
    by_cases hc : c' = c
    · subst hc; rw [update_self, update_self]
    · rw [update_of_ne hc, update_of_ne hc]; rfl
  simp only [sockets, setPc, SharedSocket.setWriter, hwriter]

/-- 書き手の段階の変わらない移動は、ソケットからは見えない。 -/
theorem sockets_setPc_silent {old : CallPc} (pc : CallPc) (hpc : s.pc c = old)
    (h : ∀ closer, pc.writer closer = old.writer closer) : (s.setPc c pc).sockets = s.sockets := by
  rw [sockets_setPc, h, ← hpc, SharedSocket.setWriter]
  exact congrArg (fun w => { s.sockets with writer := w }) (update_eq_self c s.sockets.writer)

theorem sockets_setCloserPc (s : State) (c : CallId) (pc : CloserPc) :
    (s.setCloserPc (.caller c) pc).sockets = SharedSocket.setWriter s.sockets c ((s.pc c).writer pc) := by
  have hwriter : (fun c' => (s.pc c').writer (update s.closerPc (.caller c) pc (.caller c'))) =
      update s.sockets.writer c ((s.pc c).writer pc) := by
    funext c'
    by_cases hc : c' = c
    · subst hc; rw [update_self, update_self]
    · rw [update_of_ne hc, update_of_ne (by simpa using hc)]; rfl
  simp only [sockets, setCloserPc, SharedSocket.setWriter, hwriter]

theorem sockets_setCloserPc_external (s : State) (k : Nat) (pc : CloserPc) :
    (s.setCloserPc (.external k) pc).sockets = s.sockets := by
  have hcloser : ∀ c, update s.closerPc (.external k) pc (.caller c) = s.closerPc (.caller c) :=
    fun c => update_of_ne (by simp) _ _
  simp only [sockets, setCloserPc, hcloser]

/-- ソケットを閉じた後の `Close` の進みは、ソケットからは見えない。 -/
theorem sockets_setCloserPc_silent {i : CloserId} {old : CloserPc} (pc : CloserPc) (hi : s.closerPc i = old)
    (h : ∀ p : CallPc, p.writer pc = p.writer old) : (s.setCloserPc i pc).sockets = s.sockets := by
  cases i with
  | caller c =>
      rw [sockets_setCloserPc, h, ← hi, SharedSocket.setWriter]
      exact congrArg (fun w => { s.sockets with writer := w }) (update_eq_self c s.sockets.writer)
  | external k => exact sockets_setCloserPc_external s k pc

theorem sockets_setReaderPc (s : State) (g : ConnId) (pc : ReaderPc) :
    (s.setReaderPc g pc).sockets = { s.sockets with reader := update s.sockets.reader g pc.stage } := by
  simp only [sockets, setReaderPc, comp_update]

theorem sockets_setReaderPc_silent {g : ConnId} {old : ReaderPc} (pc : ReaderPc) (hg : s.readerPc g = old)
    (h : pc.stage = old.stage) : (s.setReaderPc g pc).sockets = s.sockets := by
  rw [sockets_setReaderPc, h, ← hg, show (s.readerPc g).stage = s.sockets.reader g from rfl, update_eq_self]

theorem sockets_record (s : State) (kind : IoKind) (obtained actual : ConnId) :
    (s.record kind obtained actual).sockets = { s.sockets with log := s.sockets.log ++ [(obtained, actual)] } := by
  simp only [sockets, record, List.map_append, List.map_cons, List.map_nil]

end State

/-- ソケットから見える動作。 -/
def Action.socketAct : Action → Option SocketAct
  | .openSocket c fd => some (.openSocket c fd)
  | .connectFailed c fd g _ => some (.discard c fd g)
  | .connectOk c fd g => some (.establish c fd g)
  | .writeExpired c | .lockWrite c => some (.lock c)
  | .unregister c _ => some (.unlock c)
  | .connectedFd c fd g => some (.copy c fd g)
  | .setSendTimeoutFailed c fd g _ => some (.drop c fd g)
  | .sendPart c fd g written n actual => some (.send c fd g written n actual)
  | .sendLast c fd g written actual => some (.finish c fd g written actual)
  | .sendFails c fd g written _ => some (.failSend c fd g written)
  | .writeFailed c _ => some (.leave c)
  | .closeOpen (.caller c) _ fd g => some (.shutOpen c fd g)
  | .closeClosed (.caller c) _ => some (.shutClosed c)
  | .closeOpen (.external _) t fd g => some (.close t fd g)
  | .closeFromReader g _ actual => some (.readerClose g actual)
  | .closeFromReaderSkip g _ => some (.readerSkip g)
  | .recv g _ actual => some (.recv g actual)
  | _ => none

/-! ## 記述子の番号の使い回し -/

/-- 書き込みのために写し取った番号。 -/
def CallPc.heldFd : CallPc → Option Fd
  | .setSendTimeout fd _ | .retry fd _ _ | .send fd _ _ => some fd
  | _ => none

/-- 受信スレッドが、接続したときの番号をまだ使うか。 -/
def ReaderPc.usesFd : ReaderPc → Bool
  | .decoding | .completing | .receiving | .closing _ => true
  | _ => false

/-- `socket()` が返すのは、どの呼び出しも受信スレッドも写し持っていない番号である。 -/
def FreshDescriptor (s : State) : Action → Prop
  | .openSocket _ fd => (∀ c, (s.pc c).heldFd ≠ some fd) ∧ ∀ g, (s.readerPc g).usesFd → s.connFd g ≠ fd
  | _ => True

/-! ## 模倣 -/

theorem sockets_silent {a : Action} (h : a.enabled cfg s) (hact : a.socketAct = none) :
    (a.next cfg s).sockets = s.sockets := by
  cases a with
  | encodeFailed c status => exact State.sockets_setPc_silent _ h.1 fun _ => rfl
  | startExpired c => exact State.sockets_setPc_silent _ h.1 fun _ => rfl
  | start c => exact State.sockets_setPc_silent .ensureConnected h.1 fun _ => rfl
  | connected c =>
      rcases h.1 with hpc | hpc
      · exact State.sockets_setPc_silent .register hpc fun _ => rfl
      · exact State.sockets_setPc_silent .register hpc fun _ => rfl
  | takeReader c g => exact State.sockets_setPc_silent (.joinReader g) h.1 fun _ => rfl
  | joined c g => exact State.sockets_setPc_silent .reconnect h.1 fun _ => rfl
  | socketFailed c status =>
      rcases h.1.2.2 with hpc | ⟨hpc, _⟩
      · exact State.sockets_setPc_silent _ hpc fun _ => rfl
      · exact State.sockets_setPc_silent _ hpc fun _ => rfl
  | assignReader c g => exact State.sockets_setPc_silent .register h.1 fun _ => rfl
  | registerFull c => exact State.sockets_setPc_silent _ h.1 fun _ => rfl
  | register c => exact State.sockets_setPc_silent .lockWrite h.1 fun _ => rfl
  | notConnected c => exact State.sockets_setPc_silent _ h.1 fun _ => rfl
  | setSendTimeout c fd g => exact State.sockets_setPc_silent (.send fd g 0) h.1 fun _ => rfl
  | sendInterrupted c fd g written => exact State.sockets_setPc_silent (.retry fd g written) h fun _ => rfl
  | sendRetry c fd g written => exact State.sockets_setPc_silent (.send fd g written) h.1 fun _ => rfl
  | abandonWrite c status =>
      -- 位置と `Close` が同時に移り、書き手は閉じていないままである
      have hpc : s.pc c = .sendFailed status := h
      refine (State.sockets_setCloserPc (s.setPc c (.closing status)) c _).trans ?_
      rw [State.sockets_setPc, show (s.setPc c (.closing status)).pc c = .closing status from update_self _ _ _,
        SharedSocket.setWriter, SharedSocket.setWriter, update_idem]
      refine congrArg (fun w => { s.sockets with writer := w }) ?_
      rw [show CallPc.writer (.closing (cfg.transport c)) (.closing status) = s.sockets.writer c by
        simp only [State.sockets, hpc, CallPc.writer], update_eq_self]
      rfl
  | resultReady c completion =>
      rcases h.1 with hpc | hpc
      · exact State.sockets_setPc_silent _ hpc fun _ => rfl
      · exact State.sockets_setPc_silent _ hpc fun _ => rfl
  | waitExpired c => exact State.sockets_setPc_silent _ h.1 fun _ => rfl
  | waitLost c => exact State.sockets_setPc_silent .waitTaken h.1 fun _ => rfl
  | close k t => exact State.sockets_setCloserPc_external s k _
  | closeOpen i t fd g =>
      cases i with
      | caller c => cases hact
      | external k => cases hact
  | closeClosed i t =>
      cases i with
      | caller c => cases hact
      | external k => exact State.sockets_setCloserPc_external s k (.failAll t (s.readerThread t))
  | closeFailAll i t reader => exact State.sockets_setCloserPc_silent (.publishing reader) h fun p => by cases p <;> rfl
  | closeJoin i reader => exact State.sockets_setCloserPc_silent .done h.1 fun p => by cases p <;> rfl
  | decodeMore g => exact State.sockets_setReaderPc_silent .receiving h.1 rfl
  | complete g consumed response c => exact State.sockets_setReaderPc_silent .completing h.1.1 rfl
  | completed g => exact State.sockets_setReaderPc_silent .decoding h.1 rfl
  | readerFails g failure =>
      cases failure with
      | undecodable => exact State.sockets_setReaderPc_silent _ h.1 rfl
      | notResponse => exact State.sockets_setReaderPc_silent _ h.1 rfl
      | peerClosed => exact State.sockets_setReaderPc_silent _ h rfl
      | error errno => exact State.sockets_setReaderPc_silent _ h.1 rfl
  | failAll g status => exact State.sockets_setReaderPc_silent .failing h rfl
  | readerDone g => exact State.sockets_setReaderPc_silent .done h.1 rfl
  | tick | completeUnknown | publish => rfl
  | _ => cases hact

theorem writer_of_pc {pc : CallPc} (hpc : s.pc c = pc) : s.sockets.writer c = pc.writer (s.closerPc (.caller c)) :=
  congrArg (CallPc.writer (s.closerPc (.caller c))) hpc

theorem pc_of_holding {fd g n : Nat} (h : s.sockets.writer c = .holding fd g n) (hn : 0 < n) :
    s.pc c = .retry fd g n ∨ s.pc c = .send fd g n := by
  have hwriter : (s.pc c).writer (s.closerPc (.caller c)) = .holding fd g n := h
  cases hpc : s.pc c with
  | setSendTimeout fd' g' =>
      rw [hpc] at hwriter
      cases hwriter
      exact absurd hn (Nat.lt_irrefl 0)
  | retry fd' g' written => rw [hpc] at hwriter; cases hwriter; exact .inl rfl
  | send fd' g' written => rw [hpc] at hwriter; cases hwriter; exact .inr rfl
  | closing status =>
      rw [hpc] at hwriter
      cases hcloser : s.closerPc (.caller c) <;> rw [hcloser] at hwriter <;> cases hwriter
  | _ => rw [hpc] at hwriter; cases hwriter

theorem sockets_step {a : Action} {b : SocketAct} (hreach : (client cfg).Reachable s) (h : a.enabled cfg s)
    (hact : a.socketAct = some b) :
    SharedSocket.enabled cfg.sockets s.sockets b ∧ (a.next cfg s).sockets = SharedSocket.next cfg.sockets s.sockets b := by
  -- `Close` を行う呼び出しの輸送路は、その呼び出しのものである
  have hown : ∀ c t, s.closerPc (.caller c) = .closing t → t = cfg.transport c ∧ s.sockets.writer c = .broken ∧
      ∀ t' reader, (s.pc c).writer (.failAll t' reader) = .shut := by
    intro c t hcloser
    obtain ⟨ht, status, hpc⟩ := (reachable_ownClose hreach).waiting c t hcloser
    refine ⟨ht, ?_, fun t' reader => by rw [hpc]; rfl⟩
    rw [writer_of_pc hpc, hcloser]
    rfl
  have hlock : ∀ c, s.pc c = .lockWrite → s.writeMutex (cfg.transport c) = none →
      SharedSocket.enabled cfg.sockets s.sockets (.lock c) := by
    intro c hpc hfree
    refine ⟨writer_of_pc hpc, fun j hj hwriting => ?_⟩
    have hin : (s.pc j).inWrite := by
      revert hwriting
      show ((s.pc j).writer _).writing → _
      cases s.pc j <;> simp [CallPc.writer, SharedSocket.Writer.writing, CallPc.inWrite]
    have howner := (reachable_writeMutex hreach).owned j hin
    rw [show cfg.transport j = cfg.transport c from hj, hfree] at howner
    cases howner
  cases a with
  | openSocket c fd =>
      obtain rfl := Option.some.inj hact
      obtain ⟨⟨hfree, hsocket, hpc⟩, hfds⟩ := h
      have hidle : s.sockets.writer c = .idle := by
        rcases hpc with hpc | ⟨hpc, _⟩
        · exact writer_of_pc hpc
        · exact writer_of_pc hpc
      refine ⟨⟨hidle, hfds, hsocket, fun j fd' g hj hopening => ?_⟩, ?_⟩
      · have hin : (s.pc j).inConnect := by
          revert hopening
          show (s.pc j).writer _ = _ → _
          cases s.pc j <;> simp [CallPc.writer, CallPc.inConnect]
          split <;> simp
        have howner := (reachable_stateMutex hreach).owned j hin
        rw [show cfg.transport j = cfg.transport c from hj, hfree] at howner
        cases howner
      · exact congrArg (fun t : SocketState => { t with
          fds := update s.fds fd (some s.nextConn)
          nextConn := s.nextConn + 1
          connHome := update s.connTransport s.nextConn (cfg.transport c)
          connFd := update s.connFd s.nextConn fd }) (State.sockets_setPc s c (.connecting fd s.nextConn))
  | connectFailed c fd g status =>
      obtain rfl := Option.some.inj hact
      exact ⟨writer_of_pc h.1, congrArg (fun t : SocketState => { t with fds := update s.fds fd none })
        (State.sockets_setPc s c _)⟩
  | connectOk c fd g =>
      obtain rfl := Option.some.inj hact
      refine ⟨writer_of_pc h, ?_⟩
      have hview := State.sockets_setReaderPc (s.setPc c (.assigning g)) g .decoding
      rw [State.sockets_setPc] at hview
      exact congrArg (fun t : SocketState => { t with socket := update s.socket (cfg.transport c) (some (fd, g)) }) hview
  | writeExpired c =>
      obtain rfl := Option.some.inj hact
      exact ⟨hlock c h.1 h.2.1, State.sockets_setPc s c _⟩
  | lockWrite c =>
      obtain rfl := Option.some.inj hact
      exact ⟨hlock c h.1 h.2.1, State.sockets_setPc s c _⟩
  | unregister c failure =>
      obtain rfl := Option.some.inj hact
      exact ⟨writer_of_pc h, State.sockets_setPc s c _⟩
  | connectedFd c fd g =>
      obtain rfl := Option.some.inj hact
      exact ⟨⟨writer_of_pc h.1, h.2.2⟩, State.sockets_setPc s c _⟩
  | setSendTimeoutFailed c fd g errno =>
      obtain rfl := Option.some.inj hact
      exact ⟨writer_of_pc h, State.sockets_setPc s c _⟩
  | sendPart c fd g written n actual =>
      obtain rfl := Option.some.inj hact
      refine ⟨⟨writer_of_pc h.1, h.2⟩, ?_⟩
      have hview := State.sockets_record (s.setPc c (.retry fd g (written + n))) .send g actual
      rw [State.sockets_setPc] at hview
      exact congrArg (fun t : SocketState => { t with
        sent := update s.sent actual
          (s.sent actual ++ (((cfg.requestFrame c).drop written).take n).map fun b => (c, b)) }) hview
  | sendLast c fd g written actual =>
      obtain rfl := Option.some.inj hact
      refine ⟨⟨writer_of_pc h.1, h.2⟩, ?_⟩
      have hview := State.sockets_record (s.setPc c .wait) .send g actual
      rw [State.sockets_setPc] at hview
      exact congrArg (fun t : SocketState => { t with
        sent := update s.sent actual (s.sent actual ++ ((cfg.requestFrame c).drop written).map fun b => (c, b)) }) hview
  | sendFails c fd g written failure =>
      obtain rfl := Option.some.inj hact
      refine ⟨?_, State.sockets_setPc s c _⟩
      cases failure with
      | timedOut => exact writer_of_pc h.1
      | setTimeout errno => exact writer_of_pc h.1
      | peerClosed => exact writer_of_pc h
      | error errno => exact writer_of_pc h.1
  | writeFailed c status =>
      obtain rfl := Option.some.inj hact
      refine ⟨?_, State.sockets_setPc s c _⟩
      show s.sockets.writer c = .shut
      rw [writer_of_pc h.1, h.2]
      rfl
  | closeOpen i t fd g =>
      obtain ⟨hcloser, _, hsocket⟩ := h
      cases i with
      | caller c =>
          obtain rfl := Option.some.inj hact
          obtain ⟨rfl, hbroken, hshut⟩ := hown c t hcloser
          refine ⟨⟨hbroken, hsocket⟩, ?_⟩
          refine (State.sockets_setCloserPc (s.closeSocket (cfg.transport c) fd) c (.failAll _ _)).trans ?_
          rw [show (s.closeSocket (cfg.transport c) fd).pc c = s.pc c from rfl, hshut]
          rfl
      | external k =>
          obtain rfl := Option.some.inj hact
          exact ⟨hsocket, State.sockets_setCloserPc_external (s.closeSocket t fd) k (.failAll t (s.readerThread t))⟩
  | closeClosed i t =>
      obtain ⟨hcloser, _, hsocket⟩ := h
      cases i with
      | caller c =>
          obtain rfl := Option.some.inj hact
          obtain ⟨rfl, hbroken, hshut⟩ := hown c t hcloser
          refine ⟨⟨hbroken, hsocket⟩, ?_⟩
          refine (State.sockets_setCloserPc s c (.failAll _ _)).trans ?_
          rw [hshut]
          rfl
      | external k => cases hact
  | closeFromReader g status actual =>
      obtain rfl := Option.some.inj hact
      refine ⟨⟨congrArg ReaderPc.stage h.1, h.2.2⟩, ?_⟩
      refine (State.sockets_record _ .close g actual).trans ?_
      rw [State.sockets_setReaderPc]
      rfl
  | closeFromReaderSkip g status =>
      obtain rfl := Option.some.inj hact
      exact ⟨congrArg ReaderPc.stage h.1, State.sockets_setReaderPc s g _⟩
  | recv g bytes actual =>
      obtain rfl := Option.some.inj hact
      refine ⟨⟨congrArg ReaderPc.stage h.1, h.2.1⟩, ?_⟩
      refine (State.sockets_record (s.setReaderPc g .decoding) .recv g actual).trans ?_
      rw [State.sockets_setReaderPc_silent .decoding h.1 rfl]
      rfl
  | _ => cases hact

theorem fresh_sockets {a : Action} {b : SocketAct} (hfresh : FreshDescriptor s a) (hact : a.socketAct = some b) :
    SharedSocket.FreshFd s.sockets b := by
  cases a with
  | openSocket c fd =>
      obtain rfl := Option.some.inj hact
      refine ⟨fun j g written hj => hfresh.1 j ?_, fun g hg => hfresh.2 g ?_⟩
      · revert hj
        show (s.pc j).writer _ = _ → _
        cases s.pc j <;> simp +contextual [CallPc.writer, CallPc.heldFd]
        split <;> simp
      · revert hg
        show (s.readerPc g).stage = _ → _
        cases s.readerPc g <;> simp [ReaderPc.stage, ReaderPc.usesFd]
  | closeOpen i t fd g =>
      cases i with
      | caller c => obtain rfl := Option.some.inj hact; trivial
      | external k => obtain rfl := Option.some.inj hact; trivial
  | closeClosed i t =>
      cases i with
      | caller c => obtain rfl := Option.some.inj hact; trivial
      | external k => cases hact
  | _ => cases hact <;> trivial

/-- クライアントの実行は、共有するソケットの実行として見える。動作の条件は、見た側の条件を保証するものを取る。 -/
def socketSimulation (cfg : Config) {C : State → Action → Prop} {E : SocketState → SocketAct → Prop}
    (hCE : ∀ s a b, C s a → a.socketAct = some b → E s.sockets b) :
    Machine.Simulation (client cfg) C (SharedSocket.machine cfg.sockets) E where
  view := State.sockets
  act _ a := a.socketAct
  init s hs := by
    obtain rfl : s = .initial := hs
    exact ⟨fun _ => rfl, fun _ => rfl, fun _ => rfl, fun _ => rfl, fun _ => rfl, rfl⟩
  silent s a _ h _ hact := sockets_silent h hact
  step s a b hreach h hc hact :=
    ⟨(sockets_step hreach.reachable h hact).1, hCE s a b hc hact, (sockets_step hreach.reachable h hact).2⟩

theorem reachable_kernel (h : (client cfg).Reachable s) : SharedSocket.Kernel cfg.sockets s.sockets :=
  SharedSocket.reach_kernel ((socketSimulation cfg (E := fun _ _ => True) fun _ _ _ _ _ => trivial).reach h)

/-- 番号の使い回しのない実行。 -/
theorem reach_sockets (h : (client cfg).Reach FreshDescriptor s) :
    (SharedSocket.machine cfg.sockets).Reach SharedSocket.FreshFd s.sockets :=
  (socketSimulation cfg fun _ _ _ => fresh_sockets).reach h

theorem steps_sockets {s' : State} (h : (client cfg).Reach FreshDescriptor s)
    (hsteps : (client cfg).Steps FreshDescriptor s s') :
    (SharedSocket.machine cfg.sockets).Steps SharedSocket.FreshFd s.sockets s'.sockets :=
  (socketSimulation cfg fun _ _ _ => fresh_sockets).steps h hsteps

theorem reach_sound (h : (client cfg).Reach FreshDescriptor s) : SharedSocket.Sound cfg.sockets s.sockets :=
  SharedSocket.reach_sound (reach_sockets h)

end Xrpc.Client
