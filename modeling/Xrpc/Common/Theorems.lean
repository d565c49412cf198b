import Xrpc.Common.Lemmas.MpscQueue

/-!
# 待ち行列の定理
-/

namespace Xrpc.Common
open Xrpc.Lib Function

open MpscQueue

variable {ι : Type} [DecidableEq ι] {capacity : Nat} {s : State ι}

/-- `MpscQueue` は上限のある先入れ先出しである。値を作る枠は空であり、取り出した値は予約の順の先頭部分で重なりがなく、
真を返した `TryPush` の値は取り出されたか待ち行列にある。予約されて
取り出されていない値は `capacity` 個を超えない。偽を返す `TryPush` は、値も待ち行列も変えない。予約の順は後から変わらず、
先に返った `TryPush` は、後に始まる `TryPush` より前にある。 -/
theorem mpscQueue_bounded_fifo (h : (mpscQueue ι capacity).Reachable s) :
    (∀ i p, enabled capacity s (.construct i p) →
      s.storage (p % capacity) = none ∧ s.ready (p % capacity) = false) ∧
    (s.popped.Nodup ∧ s.popped <+: s.reserved ∧ (∀ v ∈ s.popped, s.push v = .returned true) ∧
      ∀ v, s.push v = .returned true → v ∈ s.popped ∨ v ∈ s.taken ∨ v ∈ s.contents capacity) ∧
    s.reserved.length ≤ s.popped.length + capacity ∧
    (∀ i, s.push i = .returned false → i ∉ s.reserved ∧ (∀ k, s.storage k ≠ some i) ∧ i ∉ s.popped) ∧
    (∀ i a, enabled capacity s a → a.pusher = some i → i ∉ (next capacity s a).reserved →
      next capacity s a = { s with push := update s.push i ((next capacity s a).push i) }) ∧
    (∀ s', (mpscQueue ι capacity).Steps (fun _ _ => True) s s' →
      s.reserved <+: s'.reserved ∧ s.popped <+: s'.popped ∧
        ∀ (i j : ι) (p q : Nat), s.push i = .returned true → j ∉ s.reserved →
          s'.reserved[p]? = some i → s'.reserved[q]? = some j → p < q) := by
  have hwf := reachable_wf h
  have hfront : s.popped <+: s.reserved := hwf.popped_eq ▸ List.take_prefix _ _
  refine ⟨?_, ⟨hfront.sublist.nodup hwf.nodup, hfront, ?_, fun v => popped_or_queued hwf⟩, ?_, ?_, ?_, ?_⟩
  · intro i p hb
    have hpush : s.push i = .construct p := hb
    obtain ⟨hle, hp⟩ := hwf.constructing i p hpush
    have hcell := hwf.cell p i hle (hwf.taken_nil hp (by rw [hpush]; nofun)) hp
    rw [hpush] at hcell
    exact Prod.mk.inj hcell
  · intro v hv
    rw [hwf.popped_eq] at hv
    obtain ⟨p, hp⟩ := List.mem_iff_getElem?.mp hv
    rw [List.getElem?_take] at hp
    split at hp
    next hlt => exact returned_of_lt hwf hp hlt
    · cases hp
  · rw [hwf.length_eq, hwf.length_popped]
    exact hwf.window
  · intro i hi
    have hnot : i ∉ s.reserved := by
      intro hmem
      have hreserved := (hwf.reserved_iff i).mp hmem
      rw [hi] at hreserved
      cases hreserved
    exact ⟨hnot, fun k hk => hnot (mem_reserved_of_storage hwf hk), fun hpopped => hnot (hfront.subset hpopped)⟩
  · exact fun i a hb hpusher hnot => next_of_not_reserved hwf hb hpusher hnot
  · intro s' hsteps
    have hreserved := reserved_prefix_steps hsteps
    refine ⟨hreserved, popped_prefix_steps hsteps, ?_⟩
    intro i j p q hi hj hp hq
    have hwf' := reachable_wf (h.steps hsteps)
    -- `i` は既に予約しており、`j` の位置はその後ろに加わる
    obtain ⟨r, hr⟩ := List.mem_iff_getElem?.mp ((hwf.reserved_iff i).mpr (by rw [hi]; rfl))
    have hlt := (List.getElem?_eq_some_iff.mp hr).1
    obtain ⟨rest, hrest⟩ := hreserved
    have hri : s'.reserved[r]? = some i := by rw [← hrest, List.getElem?_append_left hlt, hr]
    obtain rfl := hwf'.reserved_inj hri hp
    refine Nat.lt_of_lt_of_le hlt (Nat.le_of_not_lt fun hqlt => hj ?_)
    rw [← hrest, List.getElem?_append_left hqlt] at hq
    exact List.mem_of_getElem? hq

/-- 枠が一つの待ち行列を、二つの値が順に通る。 -/
theorem mpscQueue_bounded_fifo_pair :
    ∃ s, (mpscQueue (Fin 2) 1).Reachable s ∧ s.popped = [0] ∧ s.reserved = [0, 1] ∧
      s.reserved.length ≤ s.popped.length + 1 := by
  obtain ⟨s, hs, hp⟩ := Machine.exists_reachable_of_exec (M := mpscQueue (Fin 2) 1) (s := .initial)
    [.loadDequeue 0, .loadEnqueue 0 0, .reserve 0 0 0, .construct 0 0, .publish 0 0, .popLoad, .popReady, .popTake 0,
      .popStore 0, .loadDequeue 1, .loadEnqueue 1 1, .reserve 1 1 1]
    (fun s => decide (s.popped = [0] ∧ s.reserved = [0, 1])) (.init rfl) (by decide)
  obtain ⟨hpopped, hreserved⟩ := of_decide_eq_true hp
  exact ⟨s, hs, hpopped, hreserved, (mpscQueue_bounded_fifo hs).2.2.1⟩

/-! ## 拒まれる `TryPush` -/

/-- 偽を返す `TryPush` は、二つの位置を読む間に取り出しが終わっていないか、枠が一つなら、最初に読んでから返るまでのある時点で、
枠に空きがない。 -/
theorem push_refused_only_when_full {i : ι} {before during : List (Act ι)} {d : Nat}
    (hrun : (mpscQueue ι capacity).exec .initial (before ++ .loadDequeue i :: during) = some s)
    (hrefuse : enabled capacity s (.refuse i d)) (hquiet : s.dequeuePosition = d ∨ capacity ≤ 1) :
    FullDuring capacity i before during := by
  rcases hquiet with rfl | hcapacity
  · have hinit : (mpscQueue ι capacity).Reachable (State.initial : State ι) := .init rfl
    have hwf := reachable_wf (Machine.reachable_of_exec hinit hrun)
    exact ⟨during, List.prefix_rfl, s, hrun, hwf.full_of_refuse hrefuse⟩
  · rcases loaded_or_fullDuring hcapacity hrun with hfull | hloaded
    · exact hfull
    · obtain ⟨hpush, hover⟩ := hrefuse
      rw [hloaded d hpush, Nat.sub_self] at hover
      have hwf := reachable_wf (Machine.reachable_of_exec (.init rfl) hrun)
      have hwindow := hwf.window
      have hle := hwf.dequeue_le
      refine ⟨during, List.prefix_rfl, s, hrun, hwf.full_iff.mpr ?_⟩
      omega

/-- 二つの枠が埋まった待ち行列。 -/
theorem push_refused_only_when_full_two :
    ∃ before during : List (Act (Fin 3)), ∃ s,
      (mpscQueue (Fin 3) 2).exec .initial (before ++ .loadDequeue 2 :: during) = some s ∧
        enabled 2 s (.refuse 2 0) ∧ FullDuring 2 2 before during :=
  ⟨[.loadDequeue 0, .loadEnqueue 0 0, .reserve 0 0 0, .loadDequeue 1, .loadEnqueue 1 0, .reserve 1 0 1], [], _, rfl,
    by decide, push_refused_only_when_full (d := 0) rfl (by decide) (.inl rfl)⟩

/-- 取り出しの位置を読んだ `TryPush` の `0` が止まっている間に、二つの値が順に予約され、一つは取り出される。 -/
def overtaking : List (Act (Fin 3)) :=
  [.loadDequeue 1, .loadEnqueue 1 0, .reserve 1 0 0, .construct 1 0, .publish 1 0, .popLoad, .popReady, .popTake 1,
    .popStore 1, .loadDequeue 2, .loadEnqueue 2 1, .reserve 2 1 1]

/-- 枠が二つの待ち行列にあったのはいつも高々一つであるのに、`TryPush` は拒まれる。 -/
theorem push_refused_never_full :
    (∃ s, (mpscQueue (Fin 3) 2).exec .initial ([] ++ .loadDequeue 0 :: overtaking) = some s ∧
      enabled 2 s (.refuse 0 0)) ∧ ¬ FullDuring 2 0 [] overtaking := by
  refine ⟨⟨_, rfl, by decide⟩, ?_⟩
  rintro ⟨early, hearly, s, hrun, hfull⟩
  have hlength : early.length < 13 := Nat.lt_succ_of_le hearly.length_le
  have hnever : ∀ k < 13, ((mpscQueue (Fin 3) 2).exec .initial ([] ++ .loadDequeue 0 :: overtaking.take k)).all
      (fun s => decide (¬ s.Full 2)) = true := by decide
  have hnot := hnever early.length hlength
  rw [← List.prefix_iff_eq_take.mp hearly, hrun] at hnot
  exact of_decide_eq_true hnot hfull

end Xrpc.Common
