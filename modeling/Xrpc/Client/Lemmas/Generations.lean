import Xrpc.Client.Lemmas.Descriptors

/-!
# 接続の世代と保留中の呼び出し
-/

namespace Xrpc.Client
open Xrpc.Lib Xrpc.Protocol Function

variable {cfg : Config} {s : State} {c : CallId}

/-- 受信スレッドが、これから保留中の呼び出しを失敗させることはない。 -/
def ReaderPc.settled : ReaderPc → Bool
  | .unborn | .failing | .done => true
  | _ => false

theorem ReaderPc.not_settled_of_usesFd {pc : ReaderPc} (h : pc.usesFd) : pc.settled = false := by
  cases pc with
  | unborn | failAll | failing | done => cases h
  | _ => rfl

theorem ReaderPc.ne_unborn_of_not_settled {pc : ReaderPc} (h : pc.settled = false) : pc ≠ .unborn := by
  rintro rfl
  cases h

/-- まだ作っていない接続に、受信スレッドはない。 -/
theorem reachable_unborn (h : (client cfg).Reachable s) {g : ConnId} (hg : s.nextConn ≤ g) : s.readerPc g = .unborn := by
  have hstage : (s.readerPc g).stage = .unborn := (reachable_kernel h).fresh g hg
  cases hpc : s.readerPc g with
  | unborn => rfl
  | _ => rw [hpc] at hstage; cases hstage

/-! ## 置き去りにされる呼び出しがないこと -/

/-- 閉じていないソケットの受信スレッドは走っており、写し取った世代の受信スレッドは、表にいる呼び出しをまだ片付けていない。 -/
structure Attached (socket : TransportId → Option (Fd × ConnId)) (readerPc : ConnId → ReaderPc)
    (connTransport : ConnId → TransportId) (pendingCalls : TransportId → List (UInt64 × CallId))
    (obtained : CallId → Option ConnId) : Prop where
  socket_open : ∀ t fd h, socket t = some (fd, h) → (readerPc h).usesFd
  table_open : ∀ t id c h, (id, c) ∈ pendingCalls t → obtained c = some h → (readerPc h).settled = false
  table_home : ∀ t id c h, (id, c) ∈ pendingCalls t → obtained c = some h → connTransport h = t

namespace Attached

variable {socket : TransportId → Option (Fd × ConnId)} {readerPc : ConnId → ReaderPc}
  {connTransport : ConnId → TransportId} {pendingCalls : TransportId → List (UInt64 × CallId)}
  {obtained : CallId → Option ConnId}

theorem closeSocket (h : Attached socket readerPc connTransport pendingCalls obtained) (t : TransportId) :
    Attached (update socket t none) readerPc connTransport pendingCalls obtained := by
  refine { h with socket_open := ?_ }
  intro t' fd g hs
  rw [update_apply] at hs
  split at hs
  next => cases hs
  next => exact h.socket_open t' fd g hs

/-- 受信スレッドの移動。ソケットがまだ開いているか、表に自分の世代の呼び出しが残っている間は、片付け終わらない。 -/
theorem setReader (h : Attached socket readerPc connTransport pendingCalls obtained) {g : ConnId} {pc : ReaderPc}
    (hopen : ∀ t fd, socket t = some (fd, g) → pc.usesFd)
    (htable : ∀ t id c, (id, c) ∈ pendingCalls t → obtained c = some g → pc.settled = false) :
    Attached socket (update readerPc g pc) connTransport pendingCalls obtained := by
  refine { h with socket_open := ?_, table_open := ?_ }
  · intro t fd g' hs
    rw [update_apply]
    split
    next hg => subst hg; exact hopen t fd hs
    next => exact h.socket_open t fd g' hs
  · intro t id c g' hmem hc
    rw [update_apply]
    split
    next hg => subst hg; exact htable t id c hmem hc
    next => exact h.table_open t id c g' hmem hc

/-- 受信を続ける移動。 -/
theorem setReaderOpen (h : Attached socket readerPc connTransport pendingCalls obtained) {g : ConnId} {pc : ReaderPc}
    (hpc : pc.usesFd) : Attached socket (update readerPc g pc) connTransport pendingCalls obtained :=
  h.setReader (fun _ _ _ => hpc) fun _ _ _ _ _ => ReaderPc.not_settled_of_usesFd hpc

theorem subTable (h : Attached socket readerPc connTransport pendingCalls obtained) {t : TransportId}
    {entries : List (UInt64 × CallId)} (hsub : ∀ e ∈ entries, e ∈ pendingCalls t) :
    Attached socket readerPc connTransport (update pendingCalls t entries) obtained := by
  have hold : ∀ t' e, e ∈ update pendingCalls t entries t' → e ∈ pendingCalls t' := by
    intro t' e he
    rw [update_apply] at he
    split at he
    next ht => subst ht; exact hsub e he
    next => exact he
  exact { h with
    table_open := fun t' id c g hmem => h.table_open t' id c g (hold t' _ hmem)
    table_home := fun t' id c g hmem => h.table_home t' id c g (hold t' _ hmem) }

theorem register (h : Attached socket readerPc connTransport pendingCalls obtained) {t : TransportId} {id : UInt64}
    (hc : obtained c = none) :
    Attached socket readerPc connTransport
      (update pendingCalls t ((id, c) :: (pendingCalls t).filter (·.1 ≠ id))) obtained := by
  have hold : ∀ t' id' c' g, (id', c') ∈ update pendingCalls t ((id, c) :: (pendingCalls t).filter (·.1 ≠ id)) t' →
      obtained c' = some g → (id', c') ∈ pendingCalls t' := by
    intro t' id' c' g hmem hg
    rw [update_apply] at hmem
    split at hmem
    next ht =>
      subst ht
      rcases List.mem_cons.mp hmem with heq | hmem
      · obtain ⟨rfl, rfl⟩ := Prod.mk.inj heq
        rw [hc] at hg
        cases hg
      · exact List.mem_of_mem_filter hmem
    next => exact hmem
  exact { h with
    table_open := fun t' id' c' g hmem hg => h.table_open t' id' c' g (hold t' id' c' g hmem hg) hg
    table_home := fun t' id' c' g hmem hg => h.table_home t' id' c' g (hold t' id' c' g hmem hg) hg }

/-- ソケットから番号を写し取る。 -/
theorem takeFd (h : Attached socket readerPc connTransport pendingCalls obtained) {t : TransportId} {fd : Fd} {g : ConnId}
    (hs : socket t = some (fd, g)) (hhome : connTransport g = t) (htable : ∀ t' id, (id, c) ∈ pendingCalls t' → t' = t) :
    Attached socket readerPc connTransport pendingCalls (update obtained c (some g)) := by
  refine { h with table_open := ?_, table_home := ?_ }
  · intro t' id c' g' hmem hg
    rw [update_apply] at hg
    split at hg
    next => cases hg; exact ReaderPc.not_settled_of_usesFd (h.socket_open t fd g hs)
    next => exact h.table_open t' id c' g' hmem hg
  · intro t' id c' g' hmem hg
    rw [update_apply] at hg
    split at hg
    next hc => subst hc; cases hg; exact hhome.trans (htable t' id hmem).symm
    next => exact h.table_home t' id c' g' hmem hg

end Attached

/-- 輸送路の状態としての `Attached`。 -/
abbrev State.Attached (s : State) : Prop :=
  Client.Attached s.socket s.readerPc s.connTransport s.pendingCalls s.obtained

theorem reachable_attached (h : (client cfg).Reachable s) : s.Attached := by
  refine h.invariant (I := State.Attached) ?_ ?_
  · rintro s ⟨rfl⟩
    constructor <;> simp [State.initial]
  · intro s a hreach hs ha _
    have hkernel := reachable_kernel hreach
    have hwf := reachable_pending_wf hreach
    have hholds := reachable_holds hreach
    cases a with
    | openSocket c fd =>
        -- 新しい接続の番号は、まだどの呼び出しも写し取っていない
        refine { hs with table_home := ?_ }
        intro t id c' h hmem hc
        have hne : h ≠ s.nextConn := by
          rintro rfl
          exact ReaderPc.ne_unborn_of_not_settled (hs.table_open t id c' _ hmem hc) (reachable_unborn hreach (Nat.le_refl _))
        exact (update_of_ne hne _ _).trans (hs.table_home t id c' h hmem hc)
    | connectOk c fd g =>
        have hreader : Client.Attached s.socket (update s.readerPc g .decoding) s.connTransport s.pendingCalls s.obtained :=
          hs.setReaderOpen rfl
        refine { hreader with socket_open := ?_ }
        intro t fd' h hsocket
        replace hsocket : update s.socket (cfg.transport c) (some (fd, g)) t = some (fd', h) := hsocket
        rw [update_apply] at hsocket
        split at hsocket
        next => cases hsocket; exact congrArg ReaderPc.usesFd (update_self g ReaderPc.decoding s.readerPc)
        next => exact hreader.socket_open t fd' h hsocket
    | register c =>
        have hnone : s.obtained c = none := by
          have := hholds c
          rwa [ha.1] at this
        exact hs.register hnone
    | connectedFd c fd g =>
        exact hs.takeFd ha.2.2 (hkernel.socket_home _ _ _ ha.2.2) fun t id hmem => (hwf.home_eq t id c hmem).1.symm
    | unregister c failure => exact hs.subTable fun e he => List.mem_of_mem_filter he
    | abandonWrite c status => exact hs.subTable fun e he => List.mem_of_mem_filter he
    | waitExpired c => exact hs.subTable fun e he => List.mem_of_mem_filter he
    | closeOpen i t fd g => exact hs.closeSocket t
    | closeFailAll i t reader => exact hs.subTable fun e he => absurd he List.not_mem_nil
    | decodeMore g => exact hs.setReaderOpen rfl
    | complete g consumed response c =>
        exact (hs.subTable fun e he => List.mem_of_mem_filter he).setReaderOpen rfl
    | completed g => exact hs.setReaderOpen rfl
    | recv g bytes actual => exact hs.setReaderOpen rfl
    | readerFails g failure => exact hs.setReaderOpen rfl
    | closeFromReader g status actual =>
        refine (hs.closeSocket (s.connTransport g)).setReader ?_ fun _ _ _ _ _ => rfl
        intro t fd hsocket
        rw [update_apply] at hsocket
        split at hsocket
        next => cases hsocket
        next ht => exact absurd (hkernel.socket_home t fd g hsocket).symm ht
    | closeFromReaderSkip g status =>
        refine hs.setReader ?_ fun _ _ _ _ _ => rfl
        intro t fd hsocket
        obtain rfl : s.connTransport g = t := hkernel.socket_home t fd g hsocket
        have hfd : s.connFd g = fd := hkernel.fds_fd fd g (hkernel.socket_fds _ fd g hsocket)
        exact absurd (by rw [hsocket, hfd]; rfl) ha.2.2
    | failAll g status =>
        refine (hs.subTable (t := s.connTransport g) (fun e (he : e ∈ []) => absurd he List.not_mem_nil)).setReader ?_ ?_
        · intro t fd hsocket
          have := hs.socket_open t fd g hsocket
          rw [show s.readerPc g = .failAll status from ha] at this
          cases this
        · intro t id c hmem hc
          rw [update_apply] at hmem
          split at hmem
          next => cases hmem
          next ht => exact absurd (hs.table_home t id c g hmem hc).symm ht
    | readerDone g =>
        refine hs.setReader ?_ ?_
        · intro t fd hsocket
          have := hs.socket_open t fd g hsocket
          rw [ha.1] at this
          cases this
        · intro t id c hmem hc
          have := hs.table_open t id c g hmem hc
          rw [ha.1] at this
          cases this
    | _ => exact hs

/-! ## 世代の交代 -/

/-- 輸送路の受信スレッドは、どれももう保留中の呼び出しを失敗させない。 -/
def State.settled (s : State) (t : TransportId) : Prop := ∀ g, s.connTransport g = t → (s.readerPc g).settled

/-- 世代が整然と交代する動作。新しい接続は、前の世代の後始末が終わってから生きる。ソケットが閉じた後の `Close` は、受信スレッドの
後始末が終わってから行う。番号を写し取る呼び出しは、まだ表にいる。 -/
def Orderly (cfg : Config) (s : State) (a : Action) : Prop :=
  FreshDescriptor s a ∧
    match a with
    | .connectOk c _ _ => s.settled (cfg.transport c) ∧ ∀ i reader, s.closerPc i ≠ .failAll (cfg.transport c) reader
    | .closeClosed _ t => s.settled t
    | .connectedFd c _ _ => (cfg.requestId c, c) ∈ s.pendingCalls (cfg.transport c)
    | _ => True

/-- `current` は、後始末の終わっていない唯一の世代である。 -/
structure Current (socket : TransportId → Option (Fd × ConnId)) (current : TransportId → Option ConnId)
    (connTransport : ConnId → TransportId) (readerPc : ConnId → ReaderPc) : Prop where
  socket_current : ∀ t fd h, socket t = some (fd, h) → current t = some h
  current_home : ∀ t h, current t = some h → connTransport h = t
  current_born : ∀ t h, current t = some h → readerPc h ≠ .unborn
  reader_current : ∀ g, (readerPc g).settled = false → current (connTransport g) = some g

namespace Current

variable {socket : TransportId → Option (Fd × ConnId)} {current : TransportId → Option ConnId}
  {connTransport : ConnId → TransportId} {readerPc : ConnId → ReaderPc}

theorem closeSocket (h : Current socket current connTransport readerPc) (t : TransportId) :
    Current (update socket t none) current connTransport readerPc := by
  refine { h with socket_current := ?_ }
  intro t' fd g hs
  rw [update_apply] at hs
  split at hs
  next => cases hs
  next => exact h.socket_current t' fd g hs

theorem setReader (h : Current socket current connTransport readerPc) {g : ConnId} {pc : ReaderPc} (hborn : pc ≠ .unborn)
    (hopen : pc.settled = false → (readerPc g).settled = false) :
    Current socket current connTransport (update readerPc g pc) := by
  refine { h with current_born := ?_, reader_current := ?_ }
  · intro t g' ht
    rw [update_apply]
    split
    next => exact hborn
    next => exact h.current_born t g' ht
  · intro g' hg
    rw [update_apply] at hg
    split at hg
    next heq => subst heq; exact h.reader_current g' (hopen hg)
    next => exact h.reader_current g' hg

theorem newConn (h : Current socket current connTransport readerPc) {g : ConnId} (hg : readerPc g = .unborn)
    (t : TransportId) : Current socket current (update connTransport g t) readerPc := by
  refine { h with current_home := ?_, reader_current := ?_ }
  · intro t' g' ht
    have hne : g' ≠ g := by
      rintro rfl
      exact h.current_born t' g' ht hg
    rw [update_of_ne hne]
    exact h.current_home t' g' ht
  · intro g' hopen
    have hne : g' ≠ g := by
      rintro rfl
      exact ReaderPc.ne_unborn_of_not_settled hopen hg
    rw [update_of_ne hne]
    exact h.reader_current g' hopen

/-- 前の世代の後始末が終わってから、新しい接続が生きる。 -/
theorem connect (h : Current socket current connTransport readerPc) {t : TransportId} {fd : Fd} {g : ConnId}
    (hhome : connTransport g = t) (hsettled : ∀ g', connTransport g' = t → (readerPc g').settled) :
    Current (update socket t (some (fd, g))) (update current t (some g)) connTransport (update readerPc g .decoding) := by
  constructor
  · intro t' fd' g' hs
    by_cases ht : t' = t
    · subst ht
      rw [update_self] at hs ⊢
      cases hs
      rfl
    · rw [update_of_ne ht] at hs ⊢
      exact h.socket_current t' fd' g' hs
  · intro t' g' hc
    by_cases ht : t' = t
    · subst ht
      rw [update_self] at hc
      cases hc
      exact hhome
    · rw [update_of_ne ht] at hc
      exact h.current_home t' g' hc
  · intro t' g' hc
    rw [update_apply]
    split
    next => exact nofun
    next hne =>
      by_cases ht : t' = t
      · subst ht
        rw [update_self] at hc
        cases hc
        exact absurd rfl hne
      · rw [update_of_ne ht] at hc
        exact h.current_born t' g' hc
  · intro g' hopen
    by_cases hg : g' = g
    · subst hg
      rw [hhome, update_self]
    · rw [update_of_ne hg] at hopen
      have ht : connTransport g' ≠ t := by
        intro ht
        rw [hsettled g' ht] at hopen
        cases hopen
      rw [update_of_ne ht]
      exact h.reader_current g' hopen

end Current

theorem reach_current (h : (client cfg).Reach (Orderly cfg) s) : Current s.socket s.current s.connTransport s.readerPc := by
  refine h.invariant (I := fun s => Current s.socket s.current s.connTransport s.readerPc) ?_ ?_
  · rintro s ⟨rfl⟩
    constructor <;> simp [State.initial, ReaderPc.settled]
  · intro s a hreach hs ha hc
    have hkernel := reachable_kernel hreach.reachable
    have hopen : ∀ {g pc} (pc' : ReaderPc), s.readerPc g = pc → pc.settled = false →
        pc'.settled = false → (s.readerPc g).settled = false := by
      intro g pc pc' heq hpc _
      rw [heq, hpc]
    cases a with
    | openSocket c fd => exact hs.newConn (reachable_unborn hreach.reachable (Nat.le_refl _)) _
    | connectOk c fd g =>
        have hopening : s.sockets.writer c = .opening fd g := writer_of_pc ha
        exact hs.connect (hkernel.opening_home c fd g hopening) hc.2.1
    | closeOpen i t fd g => exact hs.closeSocket t
    | decodeMore g => exact hs.setReader (by rintro ⟨⟩) (hopen .receiving ha.1 rfl)
    | complete g consumed response c => exact hs.setReader (by rintro ⟨⟩) (hopen .completing ha.1.1 rfl)
    | completed g => exact hs.setReader (by rintro ⟨⟩) (hopen .decoding ha.1 rfl)
    | recv g bytes actual => exact hs.setReader (by rintro ⟨⟩) (hopen .decoding ha.1 rfl)
    | readerFails g failure =>
        cases failure with
        | undecodable => exact hs.setReader (by rintro ⟨⟩) (hopen (.closing _) ha.1 rfl)
        | notResponse => exact hs.setReader (by rintro ⟨⟩) (hopen (.closing _) ha.1 rfl)
        | peerClosed => exact hs.setReader (by rintro ⟨⟩) (hopen (.closing _) ha rfl)
        | error errno => exact hs.setReader (by rintro ⟨⟩) (hopen (.closing _) ha.1 rfl)
    | closeFromReader g status actual =>
        exact (hs.closeSocket (s.connTransport g)).setReader (by rintro ⟨⟩) (hopen (.failAll status) ha.1 rfl)
    | closeFromReaderSkip g status => exact hs.setReader (by rintro ⟨⟩) (hopen (.failAll status) ha.1 rfl)
    | failAll g status => exact hs.setReader (by rintro ⟨⟩) (by rintro ⟨⟩)
    | readerDone g => exact hs.setReader (by rintro ⟨⟩) (by rintro ⟨⟩)
    | _ => exact hs

/-- 保留中の呼び出しをこれから失敗させる `Close` は、いまの世代を閉じたか、後始末の終わった輸送路を閉じている。 -/
def ClosersCurrent (closerPc : CloserId → CloserPc) (closed : CloserId → Option ConnId)
    (current : TransportId → Option ConnId) (settled : TransportId → Prop) : Prop :=
  ∀ i t reader, closerPc i = .failAll t reader → (∃ h, closed i = some h ∧ current t = some h) ∨ settled t

namespace ClosersCurrent

variable {closerPc : CloserId → CloserPc} {closed : CloserId → Option ConnId} {current : TransportId → Option ConnId}
  {settled settled' : TransportId → Prop}

theorem mono (h : ClosersCurrent closerPc closed current settled) (hsub : ∀ t, settled t → settled' t) :
    ClosersCurrent closerPc closed current settled' :=
  fun i t reader hi => (h i t reader hi).imp id (hsub t)

theorem setCloser (h : ClosersCurrent closerPc closed current settled) {i : CloserId} {pc : CloserPc}
    (hpc : ∀ t reader, pc ≠ .failAll t reader) : ClosersCurrent (update closerPc i pc) closed current settled := by
  intro i' t reader hi
  rw [update_apply] at hi
  split at hi
  next => exact absurd hi (hpc t reader)
  next => exact h i' t reader hi

theorem sweep (h : ClosersCurrent closerPc closed current settled) {i : CloserId} {t : TransportId} {reader : Option ConnId}
    (ht : (∃ h, closed i = some h ∧ current t = some h) ∨ settled t) :
    ClosersCurrent (update closerPc i (.failAll t reader)) closed current settled := by
  intro i' t' reader' hi
  by_cases heq : i' = i
  · subst heq
    rw [update_self] at hi
    cases hi
    exact ht
  · rw [update_of_ne heq] at hi
    exact h i' t' reader' hi

theorem setClosed (h : ClosersCurrent closerPc closed current settled) {i : CloserId} (hi : ∀ t reader, closerPc i ≠ .failAll t reader)
    (g : Option ConnId) : ClosersCurrent closerPc (update closed i g) current settled := by
  intro i' t reader hi'
  have hne : i' ≠ i := by
    rintro rfl
    exact hi t reader hi'
  rw [update_of_ne hne]
  exact h i' t reader hi'

/-- `Close` の後始末が残っていない輸送路の接続。 -/
theorem connect (h : ClosersCurrent closerPc closed current settled) {t : TransportId} {g : ConnId}
    (hnone : ∀ i reader, closerPc i ≠ .failAll t reader) (hsub : ∀ t', t' ≠ t → settled t' → settled' t') :
    ClosersCurrent closerPc closed (update current t (some g)) settled' := by
  intro i t' reader hi
  have hne : t' ≠ t := by
    rintro rfl
    exact hnone i reader hi
  rw [update_of_ne hne]
  exact (h i t' reader hi).imp id (hsub t' hne)

end ClosersCurrent

/-- 受信スレッドの移動は、後始末の終わった輸送路を後始末の終わったままにする。 -/
theorem State.settled_setReader {g : ConnId} {pc : ReaderPc} (h : (s.readerPc g).settled → pc.settled) {t : TransportId}
    (hs : s.settled t) : (s.setReaderPc g pc).settled t := by
  intro g' hg
  show (update s.readerPc g pc g').settled
  rw [update_apply]
  split
  next heq => subst heq; exact h (hs g' hg)
  next => exact hs g' hg

theorem reach_closers (h : (client cfg).Reach (Orderly cfg) s) :
    ClosersCurrent s.closerPc s.closed s.current s.settled := by
  refine h.invariant (I := fun s => ClosersCurrent s.closerPc s.closed s.current s.settled) ?_ ?_
  · rintro s ⟨rfl⟩
    exact nofun
  · intro s a hreach hs ha hc
    have hmove : ∀ {g pc} (pc' : ReaderPc), s.readerPc g = pc → pc.settled = false →
        ∀ t, s.settled t → (s.setReaderPc g pc').settled t := by
      intro g pc pc' heq hpc t
      refine State.settled_setReader ?_
      rw [heq, hpc]
      exact nofun
    cases a with
    | openSocket c fd =>
        refine hs.mono fun t ht g hg => ?_
        by_cases hnew : g = s.nextConn
        · subst hnew
          exact congrArg ReaderPc.settled (reachable_unborn hreach.reachable (Nat.le_refl _))
        · exact ht g ((update_of_ne hnew _ _).symm.trans hg)
    | connectOk c fd g =>
        have hopening : s.sockets.writer c = .opening fd g := writer_of_pc ha
        have hhome : s.connTransport g = cfg.transport c := (reachable_kernel hreach.reachable).opening_home c fd g hopening
        refine hs.connect hc.2.2 fun t ht hsettled g' hg => ?_
        have hne : g' ≠ g := by
          rintro rfl
          exact ht (hg.symm.trans hhome)
        exact (congrArg ReaderPc.settled (update_of_ne hne _ _)).trans (hsettled g' hg)
    | abandonWrite c status => exact hs.setCloser nofun
    | close k t => exact hs.setCloser nofun
    | closeOpen i t fd g =>
        have hclosing : ∀ t' reader, s.closerPc i ≠ .failAll t' reader := by rw [ha.1]; exact nofun
        exact (hs.setClosed hclosing (some g)).sweep
          (.inl ⟨g, update_self _ _ _, (reach_current hreach).socket_current t fd g ha.2.2⟩)
    | closeClosed i t => exact hs.sweep (.inr hc.2)
    | closeFailAll i t reader => exact hs.setCloser nofun
    | closeJoin i reader => exact hs.setCloser nofun
    | decodeMore g => exact hs.mono (hmove .receiving ha.1 rfl)
    | complete g consumed response c => exact hs.mono (hmove .completing ha.1.1 rfl)
    | completed g => exact hs.mono (hmove .decoding ha.1 rfl)
    | recv g bytes actual => exact hs.mono (hmove .decoding ha.1 rfl)
    | readerFails g failure =>
        cases failure with
        | undecodable => exact hs.mono (hmove (.closing _) ha.1 rfl)
        | notResponse => exact hs.mono (hmove (.closing _) ha.1 rfl)
        | peerClosed => exact hs.mono (hmove (.closing _) ha rfl)
        | error errno => exact hs.mono (hmove (.closing _) ha.1 rfl)
    | closeFromReader g status actual => exact hs.mono (hmove (.failAll status) ha.1 rfl)
    | closeFromReaderSkip g status => exact hs.mono (hmove (.failAll status) ha.1 rfl)
    | failAll g status => exact hs.mono (hmove .failing ha rfl)
    | readerDone g => exact hs.mono fun t => State.settled_setReader fun _ => rfl
    | _ => exact hs

/-! ## 失敗を書く者 -/

/-- `Close` が失敗を書くのは、保留中の呼び出しを取り出した後だけである。 -/
def ClosersBusy (hands : Agent → List (CallId × Completion)) (result : CallId → Option Completion)
    (closerPc : CloserId → CloserPc) : Prop :=
  ∀ c completion i, Held hands result c completion → completion.agent = .closer i →
    (∃ reader, closerPc i = .publishing reader) ∨ closerPc i = .done

theorem ClosersBusy.setCloser {hands : Agent → List (CallId × Completion)} {result : CallId → Option Completion}
    {closerPc : CloserId → CloserPc} (h : ClosersBusy hands result closerPc) {i : CloserId} {pc : CloserPc}
    (hpc : (∃ reader, closerPc i = .publishing reader) ∨ closerPc i = .done → pc = .done) :
    ClosersBusy hands result (update closerPc i pc) := by
  intro c completion i' hheld hagent
  rw [update_apply]
  split
  next heq => subst heq; exact .inr (hpc (h c completion i' hheld hagent))
  next => exact h c completion i' hheld hagent

theorem reachable_closersBusy (h : (client cfg).Reachable s) : ClosersBusy s.hands s.result s.closerPc := by
  refine h.invariant (I := fun s => ClosersBusy s.hands s.result s.closerPc) ?_ ?_
  · rintro s ⟨rfl⟩ c completion i (⟨a, hmem⟩ | hres)
    · cases hmem
    · cases hres
  · intro s a hreach hs ha _
    have hfree : ∀ {i pc}, s.closerPc i = pc → (∀ reader, pc ≠ .publishing reader) → pc ≠ .done →
        ∀ pc', (∃ reader, s.closerPc i = .publishing reader) ∨ s.closerPc i = .done → pc' = CloserPc.done := by
      intro i pc heq hpublishing hdone pc' hbusy
      rw [heq] at hbusy
      rcases hbusy with ⟨reader, hbusy⟩ | hbusy
      · exact absurd hbusy (hpublishing reader)
      · exact absurd hbusy hdone
    cases a with
    | abandonWrite c status =>
        have hidle : s.closerPc (.caller c) = .idle := by
          by_contra hne
          have hpc : s.pc c = .sendFailed status := ha
          rcases (reachable_ownClose hreach).started c hne with ⟨status', hclosing⟩ | ⟨r, hreturned⟩
          · rw [hpc] at hclosing; cases hclosing
          · rw [hpc] at hreturned; cases hreturned
        exact hs.setCloser (hfree hidle nofun nofun _)
    | close k t => exact hs.setCloser (hfree ha nofun nofun _)
    | closeOpen i t fd g => exact hs.setCloser (hfree ha.1 nofun nofun _)
    | closeClosed i t => exact hs.setCloser (hfree ha.1 nofun nofun _)
    | closeFailAll i t reader =>
        intro c completion i' hheld hagent
        show (∃ reader', update s.closerPc i (.publishing reader) i' = .publishing reader') ∨ _
        by_cases heq : i' = i
        · subst heq
          exact .inl ⟨reader, update_self _ _ _⟩
        · rw [update_of_ne heq]
          rcases Held.append hheld with hold | hmem
          · exact (hs c completion i' hold hagent).imp id fun hdone => (update_of_ne heq _ _).trans hdone
          · obtain ⟨e, _, hpair⟩ := List.mem_map.mp hmem
            rw [← (Prod.mk.inj hpair).2] at hagent
            exact absurd (Agent.closer.inj hagent).symm heq
    | closeJoin i reader => exact hs.setCloser fun _ => rfl
    | complete g consumed response c =>
        intro c' completion i hheld hagent
        rcases Held.append hheld with hold | hmem
        · exact hs c' completion i hold hagent
        · rw [(Prod.mk.inj (List.mem_singleton.mp hmem)).2] at hagent
          cases hagent
    | failAll g status =>
        intro c' completion i hheld hagent
        rcases Held.append hheld with hold | hmem
        · exact hs c' completion i hold hagent
        · obtain ⟨e, _, hpair⟩ := List.mem_map.mp hmem
          rw [← (Prod.mk.inj hpair).2] at hagent
          cases hagent
    | publish a c completion => exact fun c' completion' i hheld => hs c' completion' i (hheld.publish ha)
    | _ => exact hs

/-- 番号を写し取った呼び出しの失敗は、その世代の受信スレッドか、その世代を閉じた `Close` による。 -/
def Blamed (hands : Agent → List (CallId × Completion)) (result : CallId → Option Completion)
    (obtained : CallId → Option ConnId) (closed : CloserId → Option ConnId) : Prop :=
  ∀ c completion f h, Held hands result c completion → completion.result = .failure f → obtained c = some h →
    completion.agent = .reader h ∨ ∃ i, completion.agent = .closer i ∧ closed i = some h

theorem reach_blamed (h : (client cfg).Reach (Orderly cfg) s) : Blamed s.hands s.result s.obtained s.closed := by
  refine h.invariant (I := fun s => Blamed s.hands s.result s.obtained s.closed) ?_ ?_
  · rintro s ⟨rfl⟩ c completion f h (⟨a, hmem⟩ | hres)
    · cases hmem
    · cases hres
  · intro s a hreach hs ha hc
    have hcurrent := reach_current hreach
    have hattached := reachable_attached hreach.reachable
    have hwf := reachable_pending_wf hreach.reachable
    -- 表にいる呼び出しが写し取ったのは、いまの世代である
    have htable : ∀ {t e h}, e ∈ s.pendingCalls t → s.obtained e.2 = some h → s.current t = some h := by
      intro t e h hmem hobtained
      rw [← hattached.table_home t e.1 e.2 h hmem hobtained]
      exact hcurrent.reader_current h (hattached.table_open t e.1 e.2 h hmem hobtained)
    cases a with
    | connectedFd c fd g =>
        intro c' completion f h hheld hf hobtained
        by_cases heq : c' = c
        · subst heq
          -- まだ表にいるので、結果はどこにもない
          rcases hheld with ⟨a, hhand⟩ | hres
          · exact absurd hhand (hwf.not_hand _ _ _ hc.2 a completion)
          · have hnone := hwf.table_result _ _ _ hc.2
            exact absurd (hnone.symm.trans hres) nofun
        · exact hs c' completion f h hheld hf ((update_of_ne heq _ _).symm.trans hobtained)
    | closeOpen i t fd g =>
        intro c completion f h hheld hf hobtained
        refine (hs c completion f h hheld hf hobtained).imp id ?_
        rintro ⟨i', hagent, hclosed⟩
        have hne : i' ≠ i := by
          rintro rfl
          rcases reachable_closersBusy hreach.reachable c completion i' hheld hagent with ⟨reader, hbusy⟩ | hbusy
          · rw [ha.1] at hbusy; cases hbusy
          · rw [ha.1] at hbusy; cases hbusy
        exact ⟨i', hagent, (update_of_ne hne _ _).trans hclosed⟩
    | closeFailAll i t reader =>
        intro c completion f h hheld hf hobtained
        rcases Held.append hheld with hold | hmem
        · exact hs c completion f h hold hf hobtained
        · obtain ⟨e, he, hpair⟩ := List.mem_map.mp hmem
          obtain ⟨rfl, rfl⟩ := Prod.mk.inj hpair
          rcases reach_closers hreach i t reader ha with ⟨g, hclosed, hg⟩ | hsettled
          · exact .inr ⟨i, rfl, hclosed.trans (hg.symm.trans (htable he hobtained))⟩
          · have hopen := hattached.table_open t e.1 e.2 h he hobtained
            rw [hsettled h (hattached.table_home t e.1 e.2 h he hobtained)] at hopen
            cases hopen
    | complete g consumed response c =>
        intro c' completion f h hheld hf hobtained
        rcases Held.append hheld with hold | hmem
        · exact hs c' completion f h hold hf hobtained
        · rw [(Prod.mk.inj (List.mem_singleton.mp hmem)).2] at hf
          cases hf
    | failAll g status =>
        intro c completion f h hheld hf hobtained
        rcases Held.append hheld with hold | hmem
        · exact hs c completion f h hold hf hobtained
        · obtain ⟨e, he, hpair⟩ := List.mem_map.mp hmem
          obtain ⟨rfl, rfl⟩ := Prod.mk.inj hpair
          have hg := hcurrent.reader_current g (by rw [show s.readerPc g = .failAll status from ha]; rfl)
          obtain rfl : g = h := Option.some.inj (hg.symm.trans (htable he hobtained))
          exact .inl rfl
    | publish a c completion => exact fun c' completion' f h hheld => hs c' completion' f h (hheld.publish ha)
    | _ => exact hs

/-! ## 書き終えた呼び出し -/

/-- フレームの最後まで書き終えた後の位置。 -/
def CallPc.written : CallPc → Prop
  | .wait | .waitTaken | .returned _ => True
  | _ => False

theorem CallPc.Moves.written {result : Option Completion} {closer : CloserPc} {expired : Bool} {pc pc' : CallPc}
    {lock : Lock} (h : pc.Moves result closer expired lock pc') (hpc : pc.written) :
    pc'.written ∧ ∀ obtained, pc'.obtains obtained = obtained := by
  cases h with
  | ready | readyTaken | expire | lose => exact ⟨trivial, fun _ => rfl⟩
  | _ => cases hpc

/-- 書き終えた呼び出しの位置と記録は、これから先の動作で保たれる。 -/
theorem written_step {a : Action} (h : a.enabled cfg s) (hpc : (s.pc c).written) :
    ((a.next cfg s).pc c).written ∧ (a.next cfg s).obtained c = s.obtained c := by
  rcases pc_step h with ⟨heq, _, _, hobtained⟩ | ⟨c', pc, pc', lock, hmoved⟩
  · rw [heq, hobtained]
    exact ⟨hpc, rfl⟩
  · rw [hmoved.next_eq, hmoved.obtained_eq]
    by_cases hc : c = c'
    · subst hc
      obtain ⟨hwritten, hkeep⟩ := hmoved.moves.written (hmoved.pc_eq ▸ hpc)
      rw [update_self, update_self]
      exact ⟨hwritten, hkeep _⟩
    · rw [update_of_ne hc, update_of_ne hc]
      exact ⟨hpc, rfl⟩

theorem reachable_written (h : (client cfg).Reachable s) {g : ConnId} (hw : s.wrote c = some g) : (s.pc c).written := by
  refine h.invariant (I := fun s => ∀ c g, s.wrote c = some g → (s.pc c).written) ?_ ?_ c g hw
  · rintro s ⟨rfl⟩ c g hw
    cases hw
  · intro s a _ hs ha _ c g hw
    have hkeep : ∀ c g, s.wrote c = some g → ((a.next cfg s).pc c).written :=
      fun c g hw => (written_step ha (hs c g hw)).1
    cases a with
    | sendLast c' fd g' written actual =>
        show (update s.pc c' .wait c).written
        by_cases hc : c = c'
        · subst hc
          rw [update_self]
          trivial
        · rw [update_of_ne hc]
          exact hs c g ((update_of_ne hc _ _).symm.trans hw)
    | _ => exact hkeep c g hw

/-- 番号の使い回しがなければ、書き終えた世代は、番号を写し取った世代である。 -/
theorem reach_wrote (h : (client cfg).Reach FreshDescriptor s) {g : ConnId} (hw : s.wrote c = some g) :
    s.obtained c = some g := by
  refine h.invariant (I := fun s => ∀ c g, s.wrote c = some g → s.obtained c = some g) ?_ ?_ c g hw
  · rintro s ⟨rfl⟩ c g hw
    cases hw
  · intro s a hreach hs ha _ c g hw
    have hkeep : ∀ c g, s.wrote c = some g → (a.next cfg s).obtained c = some g := by
      intro c g hw
      exact (written_step ha (reachable_written hreach.reachable hw)).2.trans (hs c g hw)
    cases a with
    | sendLast c' fd g' written actual =>
        by_cases hc : c = c'
        · subst hc
          have heq : update s.wrote c (some actual) c = some g := hw
          rw [update_self] at heq
          obtain rfl := Option.some.inj heq
          have hholding : s.sockets.writer c = .holding fd g' written := writer_of_pc ha.1
          obtain rfl := (reach_sound hreach).copies.writer_own c fd g' written hholding actual ha.2.1
          have hholds := reachable_holds hreach.reachable c
          rw [ha.1] at hholds
          exact hholds
        · exact hkeep c g ((update_of_ne hc _ _).symm.trans hw)
    | _ => exact hkeep c g hw

theorem expired_step {a : Action} (h : cfg.expired s.now c) : cfg.expired (a.next cfg s).now c := by
  cases a with
  | tick =>
      show cfg.expired (s.now + 1) c
      unfold Config.expired at h ⊢
      cases hd : (cfg.calls c).deadline with
      | none => rw [hd] at h; cases h
      | some deadline =>
          rw [hd] at h
          exact decide_eq_true ((of_decide_eq_true h).trans (Nat.le_succ _))
  | _ => exact h

/-- 書き終えた呼び出しが失敗を返すのは、失敗が書かれたときと、自分の期限が過ぎたときだけである。 -/
theorem reachable_failed (h : (client cfg).Reachable s) {g : ConnId} {f : CallFailure} (hw : s.wrote c = some g)
    (hpc : s.pc c = .returned (.failure f)) :
    (∃ completion, s.result c = some completion ∧ completion.result = .failure f) ∨
      f = ⟨deadlineExceededStatus, .maybeSent⟩ ∧ cfg.expired s.now c := by
  refine h.invariant (I := fun s => ∀ c g f, s.wrote c = some g → s.pc c = .returned (.failure f) →
    (∃ completion, s.result c = some completion ∧ completion.result = .failure f) ∨
      f = ⟨deadlineExceededStatus, .maybeSent⟩ ∧ cfg.expired s.now c) ?_ ?_ c g f hw hpc
  · rintro s ⟨rfl⟩ c g f hw
    cases hw
  · intro s a hreach hs ha _ c g f hw hpc
    -- `wrote` を書く動作は、呼び出しを返さない
    have hwrote : s.wrote c = some g := by
      cases a with
      | sendLast c' fd g' written actual =>
          by_cases hc : c = c'
          · subst hc
            cases (update_self _ _ _).symm.trans hpc
          · exact (update_of_ne hc _ _).symm.trans hw
      | _ => exact hw
    suffices (∃ completion, s.result c = some completion ∧ completion.result = .failure f) ∨
        f = ⟨deadlineExceededStatus, .maybeSent⟩ ∧ cfg.expired s.now c by
      rcases this with ⟨completion, hres, hf⟩ | ⟨hf, hexpired⟩
      · exact .inl ⟨completion, result_step hreach ha hres, hf⟩
      · exact .inr ⟨hf, expired_step hexpired⟩
    rcases pc_step ha with ⟨heq, _⟩ | ⟨c', pc, pc', lock, hmoved⟩
    · exact hs c g f hwrote (heq ▸ hpc)
    · have hpc' : update s.pc c' pc' c = .returned (.failure f) := hmoved.next_eq ▸ hpc
      by_cases hc : c = c'
      · subst hc
        rw [update_self] at hpc'
        have hwritten := hmoved.pc_eq ▸ reachable_written hreach hwrote
        cases hmoved.moves with
        | ready hres => exact .inl ⟨_, hres, CallPc.returned.inj hpc'⟩
        | readyTaken hres => exact .inl ⟨_, hres, CallPc.returned.inj hpc'⟩
        | expire hexpired =>
            have hf := CallAttemptResult.failure.inj (CallPc.returned.inj hpc')
            exact .inr ⟨hf.symm, hexpired⟩
        | lose => cases hpc'
        | _ => cases hwritten
      · rw [update_of_ne hc] at hpc'
        exact hs c g f hwrote hpc'

end Xrpc.Client
