import Xrpc.Client.Lemmas.Generations

/-!
# 受信スレッドの引き取り

輸送路が覚えている受信スレッドと、合流を待たれている受信スレッドの居場所。番号の使い回しがなければ、`state_mutex_` を握った
まま合流を待たれる受信スレッドは、もう `state_mutex_` を取らない。
-/

namespace Xrpc.Client
open Xrpc.Lib Xrpc.Protocol Function

variable {cfg : Config} {s : State} {c : CallId} {a : Action} {g : ConnId}

theorem eq_of_update_eq {ι β : Type} [DecidableEq ι] {f : ι → β} {i j : ι} {b q : β} (h : update f i b j = q) (hne : b ≠ q) :
    f j = q := by
  rw [update_apply] at h
  split at h
  next => exact absurd h hne
  next => exact h

/-! ## 走り始めた受信スレッド -/

/-- 走り始めた受信スレッドは、走る前に戻らない。 -/
theorem born_next (h : s.readerPc g ≠ .unborn) : (a.next cfg s).readerPc g ≠ .unborn := by
  intro hunborn
  cases a with
  | connectOk | decodeMore | complete | completed | recv | readerFails | closeFromReader | closeFromReaderSkip | failAll
  | readerDone => exact h (eq_of_update_eq hunborn nofun)
  | _ => exact h hunborn

/-- `state_mutex_` の区間を終えた受信スレッドは、終わりへ向かう。 -/
theorem gone_next (hreach : (client cfg).Reachable s) (ha : a.enabled cfg s) (h : (s.readerPc g).stage = .gone) :
    ((a.next cfg s).readerPc g).stage = .gone := by
  have hset : ∀ {g' old new}, s.readerPc g' = old → (old.stage = .gone → new.stage = .gone) →
      (update s.readerPc g' new g).stage = .gone := by
    intro g' old new hold hkeep
    rw [update_apply]
    split
    next heq => subst heq; exact hkeep (hold ▸ h)
    next => exact h
  cases a with
  | connectOk c fd g' =>
      have hunborn : (s.readerPc g').stage = .unborn := (reachable_kernel hreach).opening_unborn c fd g' (writer_of_pc ha)
      refine hset rfl fun hgone => ?_
      rw [hunborn] at hgone
      cases hgone
  | decodeMore | completed | recv => exact hset ha.1 nofun
  | complete => exact hset ha.1.1 nofun
  | readerFails g' failure =>
      cases failure with
      | undecodable | notResponse | error => exact hset ha.1 nofun
      | peerClosed => exact hset ha nofun
  | closeFromReader | closeFromReaderSkip | readerDone => exact hset ha.1 fun _ => rfl
  | failAll => exact hset ha fun _ => rfl
  | _ => exact h

/-! ## 合流を待たれる受信スレッド -/

/-- 受信スレッド `g` は、輸送路に覚えられているか、合流を待たれているか、そのどちらかになろうとしている。 -/
def State.Joins (s : State) (g : ConnId) : Prop :=
  (∃ t, s.readerThread t = some g) ∨ (∃ c, s.pc c = .joinReader g ∨ s.pc c = .assigning g) ∨
    ∃ i, (∃ t, s.closerPc i = .failAll t (some g)) ∨ s.closerPc i = .publishing (some g)

theorem joins_next (ha : a.enabled cfg s) (h : (a.next cfg s).Joins g) : s.Joins g ∨ ∃ c fd, a = .connectOk c fd g := by
  have hthread : ∀ {t old}, (∃ t', update s.readerThread t old t' = some g) → (old = some g → s.Joins g) → s.Joins g := by
    rintro t old ⟨t', h⟩ hold
    by_cases heq : old = some g
    · exact hold heq
    · exact .inl ⟨t', eq_of_update_eq h heq⟩
  have hpc : ∀ {c p}, (∃ c', update s.pc c p c' = .joinReader g ∨ update s.pc c p c' = .assigning g) →
      (p = .joinReader g ∨ p = .assigning g → s.Joins g) → s.Joins g := by
    rintro c p ⟨c', h⟩ hnew
    by_cases heq : p = .joinReader g ∨ p = .assigning g
    · exact hnew heq
    · exact .inr (.inl ⟨c', h.imp (eq_of_update_eq · (mt .inl heq)) (eq_of_update_eq · (mt .inr heq))⟩)
  have hcloser : ∀ {i p}, (∃ j, (∃ t, update s.closerPc i p j = .failAll t (some g)) ∨
      update s.closerPc i p j = .publishing (some g)) →
      ((∃ t, p = .failAll t (some g)) ∨ p = .publishing (some g) → s.Joins g) → s.Joins g := by
    rintro i p ⟨j, h⟩ hnew
    by_cases heq : (∃ t, p = .failAll t (some g)) ∨ p = .publishing (some g)
    · exact hnew heq
    · refine .inr (.inr ⟨j, h.imp ?_ (eq_of_update_eq · (mt .inr heq))⟩)
      rintro ⟨t, h⟩
      exact ⟨t, eq_of_update_eq h fun hp => heq (.inl ⟨t, hp⟩)⟩
  rcases h with h | h | h
  · left
    cases a with
    | takeReader => exact hthread h nofun
    | assignReader c g' => exact hthread h fun heq => .inr (.inl ⟨c, .inr (Option.some.inj heq ▸ ha.1)⟩)
    | closeOpen | closeClosed => exact hthread h nofun
    | _ => exact .inl h
  · cases a with
    | takeReader c g' =>
        refine .inl (hpc h fun heq => ?_)
        rcases heq with heq | heq
        · exact .inl ⟨_, CallPc.joinReader.inj heq ▸ ha.2.2.2⟩
        · cases heq
    | connectOk c fd g' =>
        by_cases heq : g' = g
        · exact .inr ⟨c, fd, by rw [heq]⟩
        · refine .inl (hpc h ?_)
          rintro (hp | hp)
          · cases hp
          · exact absurd (CallPc.assigning.inj hp) heq
    | tick | close | closeOpen | closeClosed | closeFailAll | closeJoin | decodeMore | complete | completeUnknown
    | completed | recv | readerFails | closeFromReader | closeFromReaderSkip | failAll | readerDone | publish =>
        exact .inl (.inr (.inl h))
    | _ => exact .inl (hpc h (by rintro (⟨⟨⟩⟩ | ⟨⟨⟩⟩)))
  · left
    cases a with
    | abandonWrite | close => exact hcloser h (by rintro (⟨_, ⟨⟩⟩ | ⟨⟨⟩⟩))
    | closeOpen i t | closeClosed i t =>
        refine hcloser h ?_
        rintro (⟨_, heq⟩ | heq)
        · exact .inl ⟨t, (CloserPc.failAll.inj heq).2⟩
        · cases heq
    | closeFailAll i t reader =>
        refine hcloser h ?_
        rintro (⟨_, heq⟩ | heq)
        · cases heq
        · exact .inr (.inr ⟨i, .inl ⟨t, CloserPc.publishing.inj heq ▸ ha⟩⟩)
    | closeJoin => exact hcloser h (by rintro (⟨_, ⟨⟩⟩ | ⟨⟨⟩⟩))
    | _ => exact .inr (.inr h)

/-- 合流を待たれる受信スレッドは、走り始めている。 -/
theorem reachable_joins_born (h : (client cfg).Reachable s) (hjoins : s.Joins g) : s.readerPc g ≠ .unborn := by
  refine h.invariant (I := fun s => ∀ g, s.Joins g → s.readerPc g ≠ .unborn) ?_ ?_ g hjoins
  · rintro s ⟨rfl⟩ g (⟨t, ht⟩ | ⟨c, hc | hc⟩ | ⟨i, ⟨t, hi⟩ | hi⟩)
    · cases ht
    · cases hc
    · cases hc
    · cases hi
    · cases hi
  · intro s a _ hs ha _ g hjoins
    rcases joins_next ha hjoins with hjoins | ⟨c, fd, rfl⟩
    · exact born_next (hs g hjoins)
    · have hpc : ((client cfg).next s (.connectOk c fd g)).readerPc g = .decoding := update_self _ _ _
      rw [hpc]
      rintro ⟨⟩

/-! ## `Close` を待つ呼び出し -/

theorem reachable_closing (h : (client cfg).Reachable s) {status : Status} (hpc : s.pc c = .closing status) :
    s.closerPc (.caller c) ≠ .idle := by
  refine h.invariant (I := fun s => ∀ c status, s.pc c = .closing status → s.closerPc (.caller c) ≠ .idle) ?_ ?_ c status hpc
  · rintro s ⟨rfl⟩ c status ⟨⟩
  · intro s a _ hs ha _ c status hpc
    have hkeep : ∀ {i p}, p ≠ CloserPc.idle → s.closerPc (.caller c) ≠ .idle →
        update s.closerPc i p (.caller c) ≠ .idle := by
      intro i p hp hold hidle
      exact hold (eq_of_update_eq hidle hp)
    cases a with
    | abandonWrite c' status' =>
        by_cases hc : c = c'
        · subst hc
          have hcloser : ((client cfg).next s (.abandonWrite c status')).closerPc (.caller c) = .closing (cfg.transport c) :=
            update_self _ _ _
          rw [hcloser]
          rintro ⟨⟩
        · exact hkeep nofun (hs c status ((update_of_ne hc _ _).symm.trans hpc))
    | close k t => exact hkeep (i := .external k) (p := .closing t) (by rintro ⟨⟩) (hs c status hpc)
    | closeOpen | closeClosed | closeFailAll | closeJoin => exact hkeep (by rintro ⟨⟩) (hs c status hpc)
    | tick | decodeMore | complete | completeUnknown | completed | recv | readerFails | closeFromReader
    | closeFromReaderSkip | failAll | readerDone | publish => exact hs c status hpc
    | _ => exact hs c status (eq_of_update_eq hpc nofun)

/-! ## 接続し終えるまでの排他 -/

/-- 前の受信スレッドとの合流を待つ間、新しいソケットは開いている。 -/
theorem reachable_assigning (h : (client cfg).Reachable s) (hpc : s.pc c = .assigning g) :
    ∃ fd, s.socket (cfg.transport c) = some (fd, g) := by
  refine h.invariant
    (I := fun s => ∀ c g, s.pc c = .assigning g → ∃ fd, s.socket (cfg.transport c) = some (fd, g)) ?_ ?_ c g hpc
  · rintro s ⟨rfl⟩ c g ⟨⟩
  · intro s a hreach hs ha _ c g hpc
    have howned : ∀ {c g}, s.pc c = .assigning g → s.stateMutex (cfg.transport c) = some c :=
      fun h => (reachable_stateMutex hreach).owned _ (by rw [comp_apply, h]; rfl)
    -- 合流を待つ呼び出しが `state_mutex_` を握っている間、ほかの者はそのソケットに触れない
    have hsocket : ∀ {t socket}, s.pc c = .assigning g → s.stateMutex t ≠ some c →
        ∃ fd, update s.socket t socket (cfg.transport c) = some (fd, g) := by
      intro t socket hpc hfree
      have hne : cfg.transport c ≠ t := by rintro rfl; exact hfree (howned hpc)
      rw [update_of_ne hne]
      exact hs c g hpc
    have hnone : ∀ {t}, s.stateMutex t = none → s.stateMutex t ≠ some c := fun h => by rw [h]; rintro ⟨⟩
    cases a with
    | connectOk c' fd g' =>
        by_cases hc : c = c'
        · subst hc
          obtain rfl := CallPc.assigning.inj ((update_self _ _ _).symm.trans hpc)
          exact ⟨fd, update_self _ _ _⟩
        · have hheld := (reachable_stateMutex hreach).owned c' (by rw [comp_apply, show s.pc c' = _ from ha]; rfl)
          refine hsocket ((update_of_ne hc _ _).symm.trans hpc) ?_
          rw [hheld]
          exact fun heq => hc (Option.some.inj heq).symm
    | closeOpen => exact hsocket hpc (hnone ha.2.1)
    | closeFromReader => exact hsocket hpc (hnone ha.2.1)
    | tick | close | closeClosed | closeFailAll | closeJoin | decodeMore | complete | completeUnknown | completed | recv
    | readerFails | closeFromReaderSkip | failAll | readerDone | publish => exact hs c g hpc
    | _ => exact hs c g (eq_of_update_eq hpc (by rintro ⟨⟩))

/-- 輸送路が覚えている受信スレッドは、`state_mutex_` の区間を終えているか、開いているソケットのものである。後の場合、
`state_mutex_` は握られたままになっていない。 -/
def State.Tended (s : State) : Prop :=
  ∀ t g, s.readerThread t = some g →
    (s.readerPc g).stage = .gone ∨ (∃ fd, s.socket t = some (fd, g)) ∧ s.stateMutex t = none

/-- ソケットのない輸送路か、`state_mutex_` の握られた輸送路の受信スレッドは、区間を終えている。 -/
theorem State.Tended.gone (h : s.Tended) {t : TransportId} (hthread : s.readerThread t = some g)
    (hbusy : s.socket t = none ∨ s.stateMutex t ≠ none) : (s.readerPc g).stage = .gone := by
  refine (h t g hthread).resolve_right ?_
  rintro ⟨⟨fd, hopen⟩, hfree⟩
  rcases hbusy with hnone | hheld
  · rw [hnone] at hopen
    cases hopen
  · exact hheld hfree

theorem reach_tended (h : (client cfg).Reach FreshDescriptor s) : s.Tended := by
  refine h.invariant (I := State.Tended) ?_ ?_
  · rintro s ⟨rfl⟩ t g ⟨⟩
  · intro s a hreach hs ha _ t g hthread
    have hkernel := reachable_kernel hreach.reachable
    have hgone : ∀ {g}, (s.readerPc g).stage = .gone → ((a.next cfg s).readerPc g).stage = .gone :=
      gone_next hreach.reachable ha
    cases a with
    | takeReader => exact (hs t g (eq_of_update_eq hthread (by rintro ⟨⟩))).imp_left hgone
    | openSocket c fd =>
        by_cases ht : t = cfg.transport c
        · subst ht
          exact .inl (hs.gone hthread (.inl ha.1.2.1))
        · refine (hs t g hthread).imp_right fun h => ⟨h.1, ?_⟩
          exact (update_of_ne ht _ _).trans h.2
    | connectFailed c fd g' status =>
        by_cases ht : t = cfg.transport c
        · subst ht
          exact .inl (hs.gone hthread (.inl (hkernel.opening_socket c fd g' (writer_of_pc ha.1))))
        · refine (hs t g hthread).imp_right fun h => ⟨h.1, ?_⟩
          exact (update_of_ne ht _ _).trans h.2
    | connectOk c fd g' =>
        by_cases ht : t = cfg.transport c
        · subst ht
          exact .inl (hgone (hs.gone hthread (.inl (hkernel.opening_socket c fd g' (writer_of_pc ha)))))
        · refine (hs t g hthread).imp hgone fun h => ⟨?_, h.2⟩
          obtain ⟨fd', hopen⟩ := h.1
          exact ⟨fd', (update_of_ne ht _ _).trans hopen⟩
    | assignReader c g' =>
        by_cases ht : t = cfg.transport c
        · subst ht
          have hassigned : ((client cfg).next s (.assignReader c g')).readerThread (cfg.transport c) = some g' :=
            update_self _ _ _
          obtain rfl := Option.some.inj (hassigned.symm.trans hthread)
          obtain ⟨fd, hopen⟩ := reachable_assigning hreach.reachable ha.1
          exact .inr ⟨⟨fd, hopen⟩, update_self _ _ _⟩
        · refine (hs t g ((update_of_ne ht _ _).symm.trans hthread)).imp_right fun h => ⟨h.1, ?_⟩
          exact (update_of_ne ht _ _).trans h.2
    | closeOpen i t' fd g' =>
        by_cases ht : t = t'
        · subst ht
          cases (update_self _ _ _).symm.trans hthread
        · refine (hs t g ((update_of_ne ht _ _).symm.trans hthread)).imp_right fun h => ⟨?_, h.2⟩
          obtain ⟨fd', hopen⟩ := h.1
          exact ⟨fd', (update_of_ne ht _ _).trans hopen⟩
    | closeClosed => exact hs t g (eq_of_update_eq hthread (by rintro ⟨⟩))
    | closeFromReader g' status actual =>
        -- 番号の使い回しがなければ、受信スレッドの閉じるソケットは自分のものである
        have hlive : s.sockets.reader g' = .live := congrArg ReaderPc.stage ha.1
        obtain rfl : actual = g' :=
          (reach_sound hreach).copies.reader_own g' hlive actual (hkernel.socket_fds _ _ _ ha.2.2)
        rcases hs t g hthread with h | ⟨⟨fd, hopen⟩, hfree⟩
        · exact .inl (hgone h)
        · by_cases ht : t = s.connTransport actual
          · subst ht
            obtain rfl : actual = g := congrArg Prod.snd (Option.some.inj (ha.2.2.symm.trans hopen))
            have hpc : ((client cfg).next s (.closeFromReader actual status actual)).readerPc actual = .failAll status :=
              update_self _ _ _
            exact .inl (congrArg ReaderPc.stage hpc)
          · exact .inr ⟨⟨fd, (update_of_ne ht _ _).trans hopen⟩, hfree⟩
    | decodeMore | complete | completed | recv | readerFails | closeFromReaderSkip | failAll | readerDone =>
        exact (hs t g hthread).imp_left hgone
    | _ => exact hs t g hthread

/-! ## 行き詰まり -/

/-- 前の受信スレッドとの合流を待つ呼び出しは、合流のほかに動けない。 -/
theorem pc_assigning (ha : a.enabled cfg s) (hpc : s.pc c = .assigning g) (hjoin : ∀ g', a ≠ .assignReader c g') :
    (a.next cfg s).pc c = .assigning g := by
  have hkeep : ∀ {c' old p}, s.pc c' = old → (∀ g, old ≠ .assigning g) → update s.pc c' p c = .assigning g := by
    intro c' old p hold hne
    refine (update_of_ne ?_ _ _).trans hpc
    rintro rfl
    exact hne g (hold.symm.trans hpc)
  cases a with
  | connected c' => rcases ha.1 with h | h <;> exact hkeep h nofun
  | socketFailed c' | openSocket c' => rcases ha.1.2.2 with h | ⟨h, -⟩ <;> exact hkeep h nofun
  | assignReader c' g' => exact (update_of_ne (by rintro rfl; exact hjoin g' rfl) _ _).trans hpc
  | sendFails c' fd g' written failure =>
      cases failure with
      | peerClosed => exact hkeep (show s.pc c' = _ from ha) nofun
      | _ => exact hkeep ha.1 nofun
  | resultReady c' => rcases ha.1 with h | h <;> exact hkeep h nofun
  | connectOk c' | setSendTimeoutFailed c' | sendInterrupted c' | unregister c' | abandonWrite c' =>
      exact hkeep (show s.pc c' = _ from ha) nofun
  | tick | close | closeOpen | closeClosed | closeFailAll | closeJoin | decodeMore | complete | completeUnknown | completed
  | recv | readerFails | closeFromReader | closeFromReaderSkip | failAll | readerDone | publish => exact hpc
  | _ => exact hkeep ha.1 nofun

/-- `state_mutex_` を待つ受信スレッドは、それが握られている間、動けない。 -/
theorem readerPc_closing (hreach : (client cfg).Reachable s) (ha : a.enabled cfg s) {status : Status}
    (hpc : s.readerPc g = .closing status) (hheld : s.stateMutex (s.connTransport g) ≠ none) :
    (a.next cfg s).readerPc g = .closing status := by
  have hkeep : ∀ {g' old p}, s.readerPc g' = old → (∀ status, old ≠ .closing status) →
      update s.readerPc g' p g = .closing status := by
    intro g' old p hold hne
    refine (update_of_ne ?_ _ _).trans hpc
    rintro rfl
    exact hne status (hold.symm.trans hpc)
  cases a with
  | connectOk c' fd g' =>
      have hunborn : (s.readerPc g').stage = .unborn := (reachable_kernel hreach).opening_unborn c' fd g' (writer_of_pc ha)
      refine hkeep rfl fun status heq => ?_
      rw [heq] at hunborn
      cases hunborn
  | decodeMore | completed | recv | readerDone => exact hkeep ha.1 nofun
  | complete => exact hkeep ha.1.1 nofun
  | readerFails g' failure =>
      cases failure with
      | peerClosed => exact hkeep (show s.readerPc g' = _ from ha) nofun
      | _ => exact hkeep ha.1 nofun
  | closeFromReader g' | closeFromReaderSkip g' =>
      refine (update_of_ne ?_ _ _).trans hpc
      rintro rfl
      exact hheld ha.2.1
  | failAll g' => exact hkeep (show s.readerPc g' = _ from ha) nofun
  | _ => exact hpc

/-- `state_mutex_` を握る呼び出しの輸送路が覚えている受信スレッドは、その呼び出しが合流するまで変わらない。 -/
theorem readerThread_held (hreach : (client cfg).Reachable s) (ha : a.enabled cfg s)
    (hheld : s.stateMutex (cfg.transport c) = some c) (hjoin : ∀ g', a ≠ .assignReader c g') :
    (a.next cfg s).readerThread (cfg.transport c) = s.readerThread (cfg.transport c) := by
  have hbusy : ∀ {t}, s.stateMutex t = none → cfg.transport c ≠ t := by
    rintro t hfree rfl
    rw [hheld] at hfree
    cases hfree
  cases a with
  | takeReader => exact update_of_ne (hbusy ha.2.1) _ _
  | assignReader c' g' =>
      refine update_of_ne (fun heq => hjoin g' ?_) _ _
      have hheld' := (reachable_stateMutex hreach).owned c' (by rw [comp_apply, ha.1]; rfl)
      rw [← heq, hheld] at hheld'
      rw [Option.some.inj hheld']
  | closeOpen | closeClosed => exact update_of_ne (hbusy ha.2.1) _ _
  | _ => rfl

/-- 呼び出し `c` は `state_mutex_` を握ったまま受信スレッド `old` との合流を待ち、`old` は `state_mutex_` を待っている。 -/
structure Deadlocked (cfg : Config) (c : CallId) (g old : ConnId) (s : State) : Prop where
  assigning : s.pc c = .assigning g
  thread : s.readerThread (cfg.transport c) = some old
  closing : ∃ status, s.readerPc old = .closing status
  home : s.connTransport old = cfg.transport c

theorem Deadlocked.next {old : ConnId} (h : Deadlocked cfg c g old s) (hreach : (client cfg).Reachable s)
    (ha : a.enabled cfg s) : Deadlocked cfg c g old (a.next cfg s) := by
  obtain ⟨hpc, hthread, ⟨status, hclosing⟩, hhome⟩ := h
  have hheld : s.stateMutex (cfg.transport c) = some c :=
    (reachable_stateMutex hreach).owned c (by rw [comp_apply, hpc]; rfl)
  have hjoin : ∀ g', a ≠ .assignReader c g' := by
    rintro g' rfl
    have hdone := ha.2 old hthread
    rw [hclosing] at hdone
    cases hdone
  refine ⟨pc_assigning ha hpc hjoin, (readerThread_held hreach ha hheld hjoin).trans hthread,
    ⟨status, readerPc_closing hreach ha hclosing ?_⟩, ?_⟩
  · rw [hhome, hheld]
    rintro ⟨⟩
  · cases a with
    | openSocket c' fd =>
        refine (update_of_ne ?_ _ _).trans hhome
        rintro rfl
        have hunborn := reachable_unborn hreach (Nat.le_refl s.nextConn)
        rw [hclosing] at hunborn
        cases hunborn
    | _ => exact hhome

theorem Deadlocked.steps {s' : State} {old : ConnId} (h : Deadlocked cfg c g old s) (hreach : (client cfg).Reachable s)
    (hsteps : (client cfg).Steps (fun _ _ => True) s s') : Deadlocked cfg c g old s' :=
  hsteps.preserves hreach (fun _ _ hreach h ha _ => h.next hreach ha) h

end Xrpc.Client
