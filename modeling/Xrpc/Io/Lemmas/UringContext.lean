import Xrpc.Io.UringContext

/-!
# 起床の不変条件
-/

namespace Xrpc.Io.UringContext
open Xrpc.Lib Function

variable {ι : Type} [DecidableEq ι] {s : State ι}

omit [DecidableEq ι] in
theorem writeEvent_count (s : State ι) (more : Bool) : 0 < (s.writeEvent more).eventCount := by
  have hmax : 0 < eventCountMax := by decide
  show 0 < if s.eventCount < eventCountMax then s.eventCount + 1 else s.eventCount
  split <;> omega

theorem exists_signalling_update {poster : ι → PosterPc} (h : ∃ j, poster j = .signalling) {i : ι}
    (hi : poster i ≠ .signalling) (pc : PosterPc) : ∃ j, update poster i pc j = .signalling := by
  obtain ⟨j, hj⟩ := h
  exact ⟨j, (update_of_ne (by rintro rfl; exact hi hj) _ _).trans hj⟩

/-- 積まれた関数には、読まれていない値か、書き込む前の `Post` か、取り出す直前の `Run` がある。 -/
theorem reachable_woken (h : (wakeup ι).Reachable s) (hne : s.postedCallbacks ≠ []) :
    0 < s.eventCount ∨ s.signalPending ∨ ∃ more, s.run = .swapping more := by
  refine h.invariant (I := fun s => s.postedCallbacks ≠ [] →
    0 < s.eventCount ∨ s.signalPending ∨ ∃ more, s.run = .swapping more) ?_ ?_ hne
  · rintro _ rfl hne
    exact absurd rfl hne
  intro s a _ hs hb _ hne
  cases a with
  | post i =>
      obtain ⟨hidle, _⟩ := hb
      cases hposted : s.postedCallbacks with
      | nil => exact .inr (.inl ⟨i, by simp [wakeup, next, hposted]⟩)
      | cons j rest =>
          exact (hs (by rw [hposted]; nofun)).imp_right
            (.imp_left (exists_signalling_update · (by rw [hidle]; nofun) _))
  | refuse i =>
      obtain ⟨hidle, _⟩ := hb
      exact (hs hne).imp_right (.imp_left (exists_signalling_update · (by rw [hidle]; nofun) _))
  | signal i more => exact .inl (writeEvent_count s more)
  | requestStop =>
      cases haccepting : s.acceptingPosts with
      | true =>
          simp only [wakeup, next, haccepting, if_true] at hne ⊢
          exact hs hne
      | false =>
          simp only [wakeup, next, haccepting] at hne ⊢
          exact hs hne
  | signalStop more => exact .inl (writeEvent_count s more)
  | start =>
      have hrun : s.run = .unstarted := hb
      exact (hs hne).imp_right (.imp_right fun ⟨more, hmore⟩ => by rw [hrun] at hmore; cases hmore)
  | takeWakeup more =>
      refine (hs hne).imp_right (.imp_right fun ⟨more, hmore⟩ => ?_)
      rw [hb.1] at hmore
      cases hmore
  | consume more => exact .inr (.inr ⟨more, rfl⟩)
  | swapCallbacks more => exact absurd rfl hne
  | finish more =>
      have hrun := hb.1
      cases hstop : s.stopRequested with
      | true =>
          simp only [wakeup, next, hstop, if_true] at hne ⊢
          refine (hs hne).imp_right (.imp_right fun ⟨more, hmore⟩ => ?_)
          rw [hrun] at hmore
          cases hmore
      | false =>
          simp only [wakeup, next, hstop] at hne ⊢
          refine (hs hne).imp_right (.imp_right fun ⟨more, hmore⟩ => ?_)
          rw [hrun] at hmore
          cases hmore
  | exit =>
      refine (hs hne).imp_right (.imp_right fun ⟨more, hmore⟩ => ?_)
      rw [hb.1] at hmore
      cases hmore
  | pollReady more | pollCancelled | takeCancelled | runCallback more i => exact hs hne

/-! ## 順序 -/

/-- 受け付けた関数は、呼んだもの、取り出したもの、積まれたものの順に並ぶ。 -/
structure Ordered (ran callbacks posted accepted : List ι) (poster : ι → PosterPc) (run : RunPc) : Prop where
  order : ran ++ callbacks ++ posted = accepted
  nodup : accepted.Nodup
  started : ∀ i ∈ accepted, poster i ≠ .idle
  running : callbacks ≠ [] → ∃ more, run = .running more

namespace Ordered

variable {ran callbacks posted accepted : List ι} {poster : ι → PosterPc} {run : RunPc}

theorem setPoster (h : Ordered ran callbacks posted accepted poster run) (i : ι) {pc : PosterPc} (hpc : pc ≠ .idle) :
    Ordered ran callbacks posted accepted (update poster i pc) run := by
  refine { h with started := fun j hj => ?_ }
  by_cases hji : j = i
  · subst hji
    rw [update_self]
    exact hpc
  · rw [update_of_ne hji]
    exact h.started j hj

theorem post (h : Ordered ran callbacks posted accepted poster run) {i : ι} (hi : poster i = .idle) {pc : PosterPc}
    (hpc : pc ≠ .idle) :
    Ordered ran callbacks (posted ++ [i]) (accepted ++ [i]) (update poster i pc) run := by
  have hnot : i ∉ accepted := fun hmem => h.started i hmem hi
  refine { order := by rw [← List.append_assoc, h.order], nodup := ?_, started := ?_, running := h.running }
  · exact List.nodup_append.mpr ⟨h.nodup, List.nodup_singleton i, fun j hj k hk hjk => hnot (by
      rw [List.mem_singleton] at hk; exact hk ▸ hjk ▸ hj)⟩
  · intro j hj
    rcases List.mem_append.mp hj with hj | hj
    · exact (h.setPoster i hpc).started j hj
    · rw [List.mem_singleton.mp hj, update_self]
      exact hpc

omit [DecidableEq ι] in
/-- 呼び出しの間でない位置への移動。 -/
theorem setRun (h : Ordered ran callbacks posted accepted poster run) (hrun : ∀ more, run ≠ .running more) (run' : RunPc) :
    Ordered ran callbacks posted accepted poster run' := by
  refine { h with running := fun hne => ?_ }
  obtain ⟨more, hmore⟩ := h.running hne
  exact absurd hmore (hrun more)

end Ordered

theorem reachable_ordered (h : (wakeup ι).Reachable s) :
    Ordered s.ran s.callbacks s.postedCallbacks s.accepted s.poster s.run := by
  refine h.invariant (I := fun s => Ordered s.ran s.callbacks s.postedCallbacks s.accepted s.poster s.run) ?_ ?_
  · rintro _ rfl
    exact ⟨rfl, List.nodup_nil, nofun, fun hne => absurd rfl hne⟩
  intro s a _ hs hb _
  cases a with
  | post i =>
      refine hs.post hb.1 ?_
      split <;> nofun
  | refuse i => exact hs.setPoster i nofun
  | signal i more => exact hs.setPoster i nofun
  | requestStop =>
      cases haccepting : s.acceptingPosts <;> simp only [wakeup, next, haccepting, if_true] <;> exact hs
  | start =>
      have hrun : s.run = .unstarted := hb
      exact hs.setRun (by rw [hrun]; nofun) _
  | takeWakeup more => exact hs.setRun (by rw [hb.1]; nofun) _
  | consume more =>
      have hrun : s.run = .wakeup more := hb
      exact hs.setRun (by rw [hrun]; nofun) _
  | swapCallbacks more =>
      have hrun : s.run = .swapping more := hb
      have hnil : s.callbacks = [] := by
        by_contra hne
        obtain ⟨more', hmore⟩ := hs.running hne
        rw [hrun] at hmore
        cases hmore
      have horder := hs.order
      rw [hnil, List.append_nil] at horder
      exact ⟨(List.append_nil _).trans horder, hs.nodup, hs.started, fun _ => ⟨more, rfl⟩⟩
  | runCallback more i =>
      obtain ⟨hrun, hhead⟩ := hb
      obtain ⟨rest, hrest⟩ := List.head?_eq_some_iff.mp hhead
      have horder := hs.order
      rw [hrest] at horder
      refine ⟨?_, hs.nodup, hs.started, fun _ => ⟨more, hrun⟩⟩
      show s.ran ++ [i] ++ s.callbacks.tail ++ s.postedCallbacks = s.accepted
      rw [hrest, List.tail_cons, ← horder]
      simp
  | finish more =>
      obtain ⟨_, hnil⟩ := hb
      have hfinish : ∀ run', Ordered s.ran s.callbacks s.postedCallbacks s.accepted s.poster run' :=
        fun run' => { hs with running := fun hne => absurd hnil hne }
      cases hstop : s.stopRequested <;> simp only [wakeup, next, hstop, if_true] <;> exact hfinish _
  | exit => exact hs.setRun (by rw [hb.1]; nofun) _
  | signalStop more | pollReady more | pollCancelled | takeCancelled => exact hs

/-! ## 止める求め -/

/-- 止める求めの後は受け付けず、poll を取り消すのは止める求めを見た後である。poll の最後でない CQE が列の末尾にある間、poll は
掛かっている。 -/
structure Stopping (s : State ι) : Prop where
  refusing : s.stopRequested = true → s.acceptingPosts = false
  cancelling : s.cancelSubmitted = true → s.stopRequested = true
  cancelled : ∀ cqe ∈ s.cqes, cqe.cancelled = true → s.stopRequested = true
  unstarted : s.run = .unstarted → s.cancelSubmitted = false
  lastMore : ∀ cqe, s.cqes.getLast? = some cqe → cqe.more = true → s.armed = true

namespace Stopping

omit [DecidableEq ι] in
theorem writeEvent (h : Stopping s) (more : Bool) : Stopping (s.writeEvent more) := by
  refine ⟨h.refusing, h.cancelling, fun cqe hcqe hcancelled => ?_, h.unstarted, fun cqe hcqe hmore => ?_⟩
  · cases harmed : s.armed with
    | false =>
        simp only [State.writeEvent, harmed, Bool.false_eq_true, if_false] at hcqe
        exact h.cancelled cqe hcqe hcancelled
    | true =>
        simp only [State.writeEvent, harmed, if_true, List.mem_append, List.mem_singleton] at hcqe
        rcases hcqe with hcqe | rfl
        · exact h.cancelled cqe hcqe hcancelled
        · cases hcancelled
  · cases harmed : s.armed with
    | false =>
        simp only [State.writeEvent, harmed, Bool.false_eq_true, if_false] at hcqe
        exact absurd (h.lastMore cqe hcqe hmore) (by rw [harmed]; nofun)
    | true =>
        simp only [State.writeEvent, harmed, if_true, List.getLast?_concat, Option.some.injEq] at hcqe
        subst hcqe
        simpa [State.writeEvent, harmed] using hmore

omit [DecidableEq ι] in
theorem takeHead (h : Stopping s) (run : RunPc) (hrun : run ≠ .unstarted) (cancelSubmitted : Bool)
    (hcancel : cancelSubmitted = true → s.cancelSubmitted = true) : Stopping { s with cqes := s.cqes.tail, run, cancelSubmitted } := by
  refine ⟨h.refusing, fun hc => h.cancelling (hcancel hc), fun cqe hcqe => h.cancelled cqe (List.mem_of_mem_tail hcqe),
    fun heq => absurd heq hrun, fun cqe hcqe => h.lastMore cqe ?_⟩
  cases hcqes : s.cqes with
  | nil =>
      rw [hcqes] at hcqe
      cases hcqe
  | cons head rest =>
      simp only [hcqes, List.tail_cons] at hcqe
      rw [List.getLast?_cons, hcqe]
      rfl

omit [DecidableEq ι] in
/-- poll が返す CQE が列の末尾に加わる。 -/
theorem postCqe (h : Stopping s) (cqe : WakeupCqe) (hcancelled : cqe.cancelled = true → s.cancelSubmitted = true) :
    Stopping { s with cqes := s.cqes ++ [cqe], armed := cqe.more } := by
  refine ⟨h.refusing, h.cancelling, fun c hc hcancelled' => ?_, h.unstarted, fun c hc hmore => ?_⟩
  · rcases List.mem_append.mp hc with hc | hc
    · exact h.cancelled c hc hcancelled'
    · rw [List.mem_singleton.mp hc] at hcancelled'
      exact h.cancelling (hcancelled hcancelled')
  · simp only [List.getLast?_concat, Option.some.injEq] at hc
    rw [hc]
    exact hmore

omit [DecidableEq ι] in
theorem setRun (h : Stopping s) (run : RunPc) (hrun : run ≠ .unstarted) : Stopping { s with run } :=
  { h with unstarted := fun heq => absurd heq hrun }

omit [DecidableEq ι] in
theorem setArmed (h : Stopping s) (run : RunPc) (hrun : run ≠ .unstarted) (armed : Bool)
    (harmed : s.armed = true → armed = true) : Stopping { s with run, armed } :=
  { h with unstarted := fun heq => absurd heq hrun, lastMore := fun cqe hcqe hmore => harmed (h.lastMore cqe hcqe hmore) }

end Stopping

theorem reachable_stopping (h : (wakeup ι).Reachable s) : Stopping s := by
  refine h.invariant (I := Stopping) ?_ ?_
  · rintro _ rfl
    exact ⟨nofun, nofun, nofun, fun _ => rfl, nofun⟩
  intro s a _ hs hb _
  cases a with
  | post i => exact { hs with }
  | refuse i => exact { hs with }
  | signal i more => exact { hs.writeEvent more with }
  | signalStop more => exact { hs.writeEvent more with }
  | requestStop =>
      show Stopping (next s .requestStop)
      rw [next]
      split
      · exact { hs with refusing := fun _ => rfl, cancelling := fun _ => rfl, cancelled := fun _ _ _ => rfl }
      · exact hs
  | start => exact hs.setArmed .waiting nofun true fun _ => rfl
  | pollReady more => exact hs.postCqe ⟨false, more⟩ nofun
  | pollCancelled => exact hs.postCqe ⟨true, false⟩ fun _ => hb.2
  | takeWakeup more => exact hs.takeHead (.wakeup more) nofun _ id
  | takeCancelled => exact hs.takeHead s.run (by rw [hb.1]; nofun) false nofun
  | consume more => exact { hs.setRun (.swapping more) nofun with }
  | swapCallbacks more => exact { hs.setRun (.running more) nofun with }
  | runCallback more i => exact { hs with }
  | finish more =>
      show Stopping (next s (.finish more))
      rw [next]
      split
      next hstop => exact { hs with cancelling := fun _ => hstop, unstarted := nofun }
      next => exact hs.setArmed .waiting nofun _ fun harmed => by rw [harmed]; rfl
  | exit => exact hs.setRun .returned nofun

/-- 止める求めがあり、積まれた関数がない。 -/
def State.drained (s : State ι) : Prop := s.stopRequested = true ∧ s.postedCallbacks = []

/-- 待つ間は、取り消されない poll が掛かっているか、処理していない書き込みの CQE があるか、積まれた関数がない。 -/
def Awaited (s : State ι) : Prop :=
  match s.run with
  | .unstarted => True
  | .waiting => s.armed = true ∧ s.cancelSubmitted = false ∨ s.pollinPending ∨ s.drained
  | .wakeup more | .swapping more | .running more =>
      more = true → s.armed = true ∨ s.pollinPending ∨ s.stopRequested = true
  | .returned => s.drained

omit [DecidableEq ι] in
/-- `Run` の糸の他の動作は、poll が外れれば書き込みの CQE か止める求めを残す。 -/
theorem Awaited.mono {s' : State ι} (h : Awaited s) (hrun : s'.run = s.run) (hcancel : s'.cancelSubmitted = s.cancelSubmitted)
    (harmed : s.armed = true →
      s'.armed = true ∨ s'.pollinPending ∨ s.cancelSubmitted = true ∧ s'.stopRequested = true)
    (hpollin : s.pollinPending → s'.pollinPending) (hstop : s.stopRequested = true → s'.stopRequested = true)
    (hdrained : s.drained → s'.drained) : Awaited s' := by
  unfold Awaited at h ⊢
  rw [hrun]
  cases hpc : s.run with
  | unstarted => trivial
  | waiting =>
      simp only [hpc] at h
      rcases h with ⟨ha, hc⟩ | hp | hd
      · rcases harmed ha with ha' | hp' | ⟨hc', -⟩
        · exact .inl ⟨ha', hcancel.trans hc⟩
        · exact .inr (.inl hp')
        · rw [hc] at hc'
          cases hc'
      · exact .inr (.inl (hpollin hp))
      · exact .inr (.inr (hdrained hd))
  | returned =>
      simp only [hpc] at h
      exact hdrained h
  | wakeup more | swapping more | running more =>
      simp only [hpc] at h
      intro hmore
      rcases h hmore with ha | hp | hs
      · rcases harmed ha with ha' | hp' | ⟨-, hs'⟩
        · exact .inl ha'
        · exact .inr (.inl hp')
        · exact .inr (.inr hs')
      · exact .inr (.inl (hpollin hp))
      · exact .inr (.inr (hstop hs))

omit [DecidableEq ι] in
theorem pollinPending_writeEvent (h : s.pollinPending) (more : Bool) : (s.writeEvent more).pollinPending := by
  obtain ⟨m, hm⟩ := h
  refine ⟨m, ?_⟩
  cases harmed : s.armed with
  | false => simpa [State.writeEvent, harmed] using hm
  | true => simp [State.writeEvent, harmed, hm]

omit [DecidableEq ι] in
theorem writeEvent_armed (harmed : s.armed = true) (more : Bool) : (s.writeEvent more).pollinPending :=
  ⟨more, by simp [State.writeEvent, harmed]⟩

omit [DecidableEq ι] in
/-- 書き込みは、掛かっている poll に CQE を返させる。 -/
theorem Awaited.writeEvent (h : Awaited s) (more : Bool) : Awaited (s.writeEvent more) :=
  h.mono rfl rfl (fun harmed => .inr (.inl (writeEvent_armed harmed more))) (pollinPending_writeEvent · more) id id

omit [DecidableEq ι] in
/-- 最後でない書き込みの CQE を取り出した後も、poll が掛かっているか、次の CQE があるか、止める求めがある。 -/
theorem Stopping.awaited_after_take (h : Stopping s) {more : Bool} (hhead : s.cqes.head? = some ⟨false, more⟩) :
    Awaited { s with cqes := s.cqes.tail, run := .wakeup more } := by
  obtain ⟨rest, hrest⟩ := List.head?_eq_some_iff.mp hhead
  intro hmore
  cases hlast : rest.getLast? with
  | none =>
      rw [List.getLast?_eq_none_iff.mp hlast] at hrest
      exact .inl (h.lastMore _ (by rw [hrest]; rfl) hmore)
  | some cqe =>
      have hlast' : s.cqes.getLast? = some cqe := by
        rw [hrest, List.getLast?_cons, hlast]
        rfl
      have hmem : cqe ∈ rest := List.mem_of_getLast? hlast
      obtain ⟨cancelled, cqeMore⟩ := cqe
      cases cancelled with
      | false => exact .inr (.inl ⟨cqeMore, by rw [hrest]; exact hmem⟩)
      | true => exact .inr (.inr (h.cancelled _ (by rw [hrest]; exact List.mem_cons_of_mem _ hmem) rfl))

/-- 止める求めを見たときに書き込みの CQE が残っていれば、積まれた関数を残して待ち終えない。 -/
theorem reach_awaited (h : (wakeup ι).Reach DrainedAtStop s) : Awaited s := by
  refine h.invariant (I := Awaited) ?_ ?_
  · rintro _ rfl
    trivial
  intro s a hreach hs hb hc
  have hstopping := reachable_stopping hreach.reachable
  cases a with
  | post i =>
      refine hs.mono rfl rfl .inl id id fun hdrained => ?_
      have hrefusing := hstopping.refusing hdrained.1
      rw [hb.2] at hrefusing
      cases hrefusing
  | refuse i => exact hs.mono rfl rfl .inl id id id
  | signal i more => exact (hs.writeEvent more).mono rfl rfl .inl id id id
  | signalStop more => exact (hs.writeEvent more).mono rfl rfl .inl id id id
  | requestStop =>
      show Awaited (next s .requestStop)
      rw [next]
      split
      · exact hs.mono rfl rfl .inl id (fun _ => rfl) fun hdrained => ⟨rfl, hdrained.2⟩
      · exact hs
  | start =>
      have hrun : s.run = .unstarted := hb
      exact .inl ⟨rfl, hstopping.unstarted hrun⟩
  | pollReady more =>
      refine hs.mono rfl rfl (fun _ => .inr (.inl ⟨more, ?_⟩)) (fun ⟨m, hm⟩ => ⟨m, ?_⟩) id id
      · exact List.mem_append_right _ (List.mem_singleton_self _)
      · exact List.mem_append_left _ hm
  | pollCancelled =>
      refine hs.mono rfl rfl (fun _ => .inr (.inr ⟨hb.2, hstopping.cancelling hb.2⟩)) (fun ⟨m, hm⟩ => ⟨m, ?_⟩) id id
      exact List.mem_append_left _ hm
  | takeWakeup more => exact hstopping.awaited_after_take hb.2
  | takeCancelled =>
      obtain ⟨hrun, hhead, -⟩ := hb
      obtain ⟨rest, hrest⟩ := List.head?_eq_some_iff.mp hhead
      have hwaiting := hs
      simp only [Awaited, hrun] at hwaiting
      show Awaited { s with cqes := s.cqes.tail, cancelSubmitted := false }
      simp only [Awaited, hrun]
      rcases hwaiting with ⟨harmed, -⟩ | ⟨more, hmore⟩ | hdrained
      · exact .inl ⟨harmed, trivial⟩
      · rw [hrest] at hmore
        refine .inr (.inl ⟨more, ?_⟩)
        rcases List.mem_cons.mp hmore with heq | hmore
        · cases heq
        · rw [hrest]
          exact hmore
      · exact .inr (.inr hdrained)
  | consume more =>
      have hrun : s.run = .wakeup more := hb
      simp only [Awaited, hrun] at hs
      exact hs
  | swapCallbacks more =>
      have hrun : s.run = .swapping more := hb
      simp only [Awaited, hrun] at hs
      exact hs
  | runCallback more i => exact hs.mono rfl rfl .inl id id id
  | finish more =>
      simp only [Awaited, hb.1] at hs
      show Awaited (next s (.finish more))
      rw [next]
      split
      next hstop =>
        rcases hc hstop with hposted | hpollin
        · exact .inr (.inr ⟨hstop, hposted⟩)
        · exact .inr (.inl hpollin)
      next hstop =>
        have hcancel : s.cancelSubmitted = false := by
          cases hcancel : s.cancelSubmitted with
          | false => rfl
          | true => exact absurd (hstopping.cancelling hcancel) hstop
        cases more with
        | false => exact .inl ⟨by simp, hcancel⟩
        | true =>
            rcases hs rfl with harmed | hpollin | hstop'
            · exact .inl ⟨by simp [harmed], hcancel⟩
            · exact .inr (.inl hpollin)
            · exact absurd hstop' hstop
  | exit =>
      obtain ⟨hrun, -, harmed, hcqes⟩ := hb
      simp only [Awaited, hrun] at hs
      rcases hs with ⟨harmed', -⟩ | ⟨more, hmore⟩ | hdrained
      · rw [harmed] at harmed'
        cases harmed'
      · rw [hcqes] at hmore
        cases hmore
      · exact hdrained

end Xrpc.Io.UringContext
