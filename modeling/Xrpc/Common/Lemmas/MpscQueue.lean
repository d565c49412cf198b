import Xrpc.Common.MpscQueue

/-!
# 待ち行列の不変条件
-/

namespace Xrpc.Common.MpscQueue
open Xrpc.Lib Function

variable {ι : Type} [DecidableEq ι] {capacity : Nat} {s : State ι}

/-- 位置を予約した後の `TryPush`。 -/
def PushPc.hasReserved : PushPc → Bool
  | .construct _ | .publish _ | .returned true => true
  | _ => false

/-- `i` が予約した位置の枠の中身と、公開の印。 -/
def PushPc.cell (i : ι) : PushPc → Option ι × Bool
  | .construct _ => (none, false)
  | .publish _ => (some i, false)
  | _ => (some i, true)

/-- 予約されてまだ取り出されていない位置は、枠の数より多くない。それらの枠には予約した者の値があり、ほかの枠は空である。 -/
structure Wf (capacity : Nat) (s : State ι) : Prop where
  length_eq : s.reserved.length = s.enqueuePosition
  nodup : s.reserved.Nodup
  dequeue_le : s.dequeuePosition ≤ s.enqueuePosition
  window : s.enqueuePosition ≤ s.dequeuePosition + capacity
  loaded : ∀ i d, s.push i = .loadEnqueue d → d ≤ s.dequeuePosition
  tested : ∀ i d p, s.push i = .exchange d p → d ≤ s.dequeuePosition ∧ p < d + capacity
  reserved_iff : ∀ i, i ∈ s.reserved ↔ (s.push i).hasReserved
  constructing : ∀ i p, s.push i = .construct p → s.dequeuePosition ≤ p ∧ s.reserved[p]? = some i
  publishing : ∀ i p, s.push i = .publish p → s.dequeuePosition ≤ p ∧ s.reserved[p]? = some i
  cell : ∀ p i, s.dequeuePosition ≤ p → (p = s.dequeuePosition → s.taken = []) → s.reserved[p]? = some i →
    (s.storage (p % capacity), s.ready (p % capacity)) = (s.push i).cell i
  vacant : ∀ k, (∀ p, s.dequeuePosition ≤ p → p < s.enqueuePosition → p % capacity ≠ k) →
    s.storage k = none ∧ s.ready k = false
  hole : s.taken ≠ [] → s.storage (s.head capacity) = none ∧ s.ready (s.head capacity) = false
  popping : s.pop ≠ .loadEnqueue → s.dequeuePosition < s.enqueuePosition
  taking : s.pop = .take → s.ready (s.head capacity) = true
  storing : ∀ v, s.pop = .storeDequeue v → s.reserved[s.dequeuePosition]? = some v ∧ s.push v = .returned true
  popped_eq : s.popped = s.reserved.take s.dequeuePosition

namespace Wf

/-- 窓の中の二つの位置は、別の枠に当たる。 -/
theorem mod_injective {d p q : Nat} (hp : d ≤ p) (hq : d ≤ q) (hp' : p < d + capacity) (hq' : q < d + capacity)
    (h : p % capacity = q % capacity) : p = q := by
  wlog hle : p ≤ q generalizing p q with hsymm
  · exact (hsymm hq hp hq' hp' h.symm (Nat.le_of_not_le hle)).symm
  · have hdvd : capacity ∣ q - p := (Nat.modEq_iff_dvd' hle).mp h
    have hzero := Nat.eq_zero_of_dvd_of_lt hdvd (by omega)
    omega

omit [DecidableEq ι] in
theorem lt_of_reserved (h : Wf capacity s) {p : Nat} {i : ι} (hp : s.reserved[p]? = some i) : p < s.enqueuePosition := by
  rw [← h.length_eq]
  exact (List.getElem?_eq_some_iff.mp hp).1

omit [DecidableEq ι] in
theorem exists_reserved (h : Wf capacity s) {p : Nat} (hp : p < s.enqueuePosition) : ∃ i, s.reserved[p]? = some i := by
  rw [← h.length_eq] at hp
  exact ⟨_, List.getElem?_eq_getElem hp⟩

omit [DecidableEq ι] in
theorem reserved_inj (h : Wf capacity s) {p q : Nat} {i : ι} (hp : s.reserved[p]? = some i)
    (hq : s.reserved[q]? = some i) : p = q := by
  have hlt := (List.getElem?_eq_some_iff.mp hp).1
  exact (List.getElem?_inj hlt h.nodup).mp (hp.trans hq.symm)

omit [DecidableEq ι] in
theorem init : Wf capacity (State.initial : State ι) := by
  constructor <;> simp [State.initial, PushPc.hasReserved, State.taken]

/-- 予約する前の `TryPush` の移動。 -/
theorem setPush (h : Wf capacity s) {i : ι} {pc : PushPc} (hold : (s.push i).hasReserved = false)
    (hnew : pc.hasReserved = false) (hload : ∀ d, pc = .loadEnqueue d → d ≤ s.dequeuePosition)
    (htest : ∀ d p, pc = .exchange d p → d ≤ s.dequeuePosition ∧ p < d + capacity) :
    Wf capacity { s with push := update s.push i pc } := by
  have hne : ∀ {j}, j ∈ s.reserved → j ≠ i := by
    rintro j hj rfl
    rw [(h.reserved_iff j).mp hj] at hold
    cases hold
  refine { h with loaded := ?_, tested := ?_, reserved_iff := ?_, constructing := ?_, publishing := ?_, cell := ?_, storing := ?_ }
  · intro j d hj
    by_cases hji : j = i
    · subst hji; exact hload d ((update_self _ _ _).symm.trans hj)
    · exact h.loaded j d ((update_of_ne hji _ _).symm.trans hj)
  · intro j d p hj
    by_cases hji : j = i
    · subst hji; exact htest d p ((update_self _ _ _).symm.trans hj)
    · exact h.tested j d p ((update_of_ne hji _ _).symm.trans hj)
  · intro j
    by_cases hji : j = i
    · subst hji
      simp only [update_self, h.reserved_iff, hold, hnew]
    · simp only [update_of_ne hji, h.reserved_iff]
  · intro j p hj
    by_cases hji : j = i
    · subst hji
      rw [(update_self _ _ _).symm.trans hj] at hnew
      cases hnew
    · exact h.constructing j p ((update_of_ne hji _ _).symm.trans hj)
  · intro j p hj
    by_cases hji : j = i
    · subst hji
      rw [(update_self _ _ _).symm.trans hj] at hnew
      cases hnew
    · exact h.publishing j p ((update_of_ne hji _ _).symm.trans hj)
  · intro p j hp htaken hj
    have hji := hne (List.mem_of_getElem? hj)
    exact (h.cell p j hp htaken hj).trans (congrArg (PushPc.cell j) (update_of_ne hji _ _).symm)
  · intro v hv
    obtain ⟨hreserved, hpush⟩ := h.storing v hv
    exact ⟨hreserved, (update_of_ne (hne (List.mem_of_getElem? hreserved)) _ _).trans hpush⟩

/-- 位置の予約。読んだ後に取り出しが進んでいても、枠は足りている。 -/
theorem reserve (h : Wf capacity s) {i : ι} {d p : Nat} (hb : enabled capacity s (.reserve i d p)) :
    Wf capacity (next capacity s (.reserve i d p)) := by
  obtain ⟨hpush, rfl⟩ := hb
  obtain ⟨hd, hp⟩ := h.tested i d s.enqueuePosition hpush
  have hnot : i ∉ s.reserved := by
    intro hi
    have := (h.reserved_iff i).mp hi
    rw [hpush] at this
    cases this
  have hne : ∀ {j}, j ∈ s.reserved → j ≠ i := fun hj hji => hnot (hji ▸ hj)
  have hget : ∀ {q : Nat} {j : ι}, (s.reserved ++ [i])[q]? = some j →
      s.reserved[q]? = some j ∨ (q = s.enqueuePosition ∧ j = i) := by
    intro q j hq
    rw [← h.length_eq]
    rcases Nat.lt_or_ge q s.reserved.length with hlt | hge
    · exact .inl (by rwa [List.getElem?_append_left hlt] at hq)
    · rw [List.getElem?_append_right hge] at hq
      obtain ⟨hlt, heq⟩ := List.getElem?_eq_some_iff.mp hq
      simp only [List.length_singleton, Nat.lt_one_iff] at hlt
      simp only [hlt, List.getElem_cons_zero] at heq
      exact .inr ⟨by omega, heq.symm⟩
  have hold : ∀ {q : Nat} {j : ι}, s.reserved[q]? = some j → (s.reserved ++ [i])[q]? = some j := by
    intro q j hq
    rw [List.getElem?_append_left (List.getElem?_eq_some_iff.mp hq).1, hq]
  constructor
  · show (s.reserved ++ [i]).length = _
    rw [List.length_append, h.length_eq]
    rfl
  · exact List.nodup_append.mpr ⟨h.nodup, List.nodup_singleton i, fun j hj k hk => by
      rw [List.mem_singleton.mp hk]; exact hne hj⟩
  · exact h.dequeue_le.trans (Nat.le_succ _)
  · show s.enqueuePosition + 1 ≤ s.dequeuePosition + capacity
    omega
  · intro j d' hj
    by_cases hji : j = i
    · subst hji; cases (update_self _ _ _).symm.trans hj
    · exact h.loaded j d' ((update_of_ne hji _ _).symm.trans hj)
  · intro j d' p' hj
    by_cases hji : j = i
    · subst hji; cases (update_self _ _ _).symm.trans hj
    · exact h.tested j d' p' ((update_of_ne hji _ _).symm.trans hj)
  · intro j
    show j ∈ s.reserved ++ [i] ↔ (update s.push i (.construct s.enqueuePosition) j).hasReserved
    by_cases hji : j = i
    · subst hji
      simp [PushPc.hasReserved]
    · simp [hji, h.reserved_iff]
  · intro j p' hj
    by_cases hji : j = i
    · subst hji
      cases (update_self _ _ _).symm.trans hj
      refine ⟨h.dequeue_le, ?_⟩
      show (s.reserved ++ [j])[s.enqueuePosition]? = some j
      rw [← h.length_eq, List.getElem?_append_right (Nat.le_refl _)]
      simp
    · obtain ⟨hle, hq⟩ := h.constructing j p' ((update_of_ne hji _ _).symm.trans hj)
      exact ⟨hle, hold hq⟩
  · intro j p' hj
    by_cases hji : j = i
    · subst hji; cases (update_self _ _ _).symm.trans hj
    · obtain ⟨hle, hq⟩ := h.publishing j p' ((update_of_ne hji _ _).symm.trans hj)
      exact ⟨hle, hold hq⟩
  · intro q j hq htaken hj
    show (s.storage (q % capacity), s.ready (q % capacity)) =
      (update s.push i (.construct s.enqueuePosition) j).cell j
    rcases hget hj with hj | ⟨rfl, rfl⟩
    · rw [update_of_ne (hne (List.mem_of_getElem? hj))]
      exact h.cell q j hq htaken hj
    · -- 新しい位置の枠は、窓の中のどの位置の枠でもない
      rw [update_self]
      obtain ⟨hstorage, hready⟩ := h.vacant (s.enqueuePosition % capacity) fun q' hle hlt heq =>
        absurd (mod_injective hle h.dequeue_le (by omega) (by omega) heq) (Nat.ne_of_lt hlt)
      rw [hstorage, hready]
      rfl
  · intro k hk
    exact h.vacant k fun q hle hlt => hk q hle (hlt.trans (Nat.lt_succ_self _))
  · exact h.hole
  · exact fun hpop => (h.popping hpop).trans (Nat.lt_succ_self _)
  · exact h.taking
  · intro v hv
    obtain ⟨hq, hret⟩ := h.storing v hv
    exact ⟨hold hq, (update_of_ne (hne (List.mem_of_getElem? hq)) _ _).trans hret⟩
  · have hle : s.dequeuePosition ≤ s.reserved.length := h.length_eq ▸ h.dequeue_le
    exact h.popped_eq.trans (List.take_append_of_le_length hle).symm

omit [DecidableEq ι] in
/-- 書き込みの終わっていない位置は、取り出し手の手にない。 -/
theorem taken_nil (h : Wf capacity s) {i : ι} {p : Nat} (hp : s.reserved[p]? = some i)
    (hpush : s.push i ≠ .returned true) (heq : p = s.dequeuePosition) : s.taken = [] := by
  subst heq
  cases hpop : s.pop with
  | storeDequeue v =>
      obtain ⟨hq, hret⟩ := h.storing v hpop
      obtain rfl := Option.some.inj (hq.symm.trans hp)
      exact absurd hret hpush
  | _ => simp [State.taken, hpop]

/-- 予約した位置 `p` の枠へ書く移動。ほかの位置の枠には触れず、取り出し手が手にした枠にも当たらない。 -/
theorem fill (h : Wf capacity s) {i : ι} {p : Nat} {pc : PushPc} (hle : s.dequeuePosition ≤ p)
    (hp : s.reserved[p]? = some i) (hold : s.push i = .construct p ∨ s.push i = .publish p)
    (hnew : pc = .publish p ∨ pc = .returned true) :
    Wf capacity
      { s with
        storage := update s.storage (p % capacity) (pc.cell i).1
        ready := update s.ready (p % capacity) (pc.cell i).2
        push := update s.push i pc } := by
  have hmod : ∀ {q}, s.dequeuePosition ≤ q → q < s.enqueuePosition → q ≠ p → q % capacity ≠ p % capacity := by
    intro q hq hlt hqp heq
    have := h.window
    have := h.lt_of_reserved hp
    exact hqp (mod_injective hq hle (by omega) (by omega) heq)
  have hlt := h.lt_of_reserved hp
  have hreturned : s.push i ≠ .returned true := by
    rcases hold with hold | hold <;> rw [hold] <;> nofun
  refine { h with loaded := ?_, tested := ?_, reserved_iff := ?_, constructing := ?_, publishing := ?_,
                  cell := ?_, vacant := ?_, hole := ?_, taking := ?_, storing := ?_ }
  · intro j d hj
    by_cases hji : j = i
    · subst hji
      simp only [update_self] at hj
      rcases hnew with rfl | rfl <;> cases hj
    · exact h.loaded j d ((update_of_ne hji _ _).symm.trans hj)
  · intro j d q hj
    by_cases hji : j = i
    · subst hji
      simp only [update_self] at hj
      rcases hnew with rfl | rfl <;> cases hj
    · exact h.tested j d q ((update_of_ne hji _ _).symm.trans hj)
  · intro j
    by_cases hji : j = i
    · subst hji
      have hmem := List.mem_of_getElem? hp
      rcases hnew with rfl | rfl <;> simp [PushPc.hasReserved, hmem]
    · simp only [update_of_ne hji, h.reserved_iff]
  · intro j q hj
    by_cases hji : j = i
    · subst hji
      simp only [update_self] at hj
      rcases hnew with rfl | rfl <;> cases hj
    · exact h.constructing j q ((update_of_ne hji _ _).symm.trans hj)
  · intro j q hj
    by_cases hji : j = i
    · subst hji
      simp only [update_self] at hj
      rcases hnew with rfl | rfl
      · cases hj
        exact ⟨hle, hp⟩
      · cases hj
    · exact h.publishing j q ((update_of_ne hji _ _).symm.trans hj)
  · intro q j hq hqtaken hj
    by_cases hji : j = i
    · subst hji
      obtain rfl := h.reserved_inj hj hp
      simp only [update_self]
    · have hqp : q ≠ p := by
        rintro rfl
        exact hji (Option.some.inj (hj.symm.trans hp))
      have hk := hmod hq (h.lt_of_reserved hj) hqp
      simp only [update_of_ne hk, update_of_ne hji]
      exact h.cell q j hq hqtaken hj
  · intro k hk
    have hpk : k ≠ p % capacity := (hk p hle hlt).symm
    simp only [update_of_ne hpk]
    exact h.vacant k hk
  · intro hpop
    have hne : s.dequeuePosition ≠ p := fun heq => hpop (h.taken_nil hp hreturned heq.symm)
    have hhead := hmod (Nat.le_refl _) (by omega) hne
    simp only [State.head, update_of_ne hhead]
    exact h.hole hpop
  · intro (hpop : s.pop = .take)
    have hready := h.taking hpop
    have hhead : s.dequeuePosition % capacity ≠ p % capacity := by
      refine hmod (Nat.le_refl _) (h.popping (by rw [hpop]; nofun)) ?_
      rintro rfl
      have hcell := congrArg Prod.snd (h.cell _ i hle (h.taken_nil hp hreturned) hp)
      rw [show s.ready (s.dequeuePosition % capacity) = true from hready] at hcell
      rcases hold with hold | hold <;> rw [hold] at hcell <;> cases hcell
    simp only [State.head, update_of_ne hhead]
    exact hready
  · intro v hv
    obtain ⟨hq, hret⟩ := h.storing v hv
    refine ⟨hq, (update_of_ne ?_ _ _).trans hret⟩
    rintro rfl
    exact hreturned hret

omit [DecidableEq ι] in
/-- 枠に触れない `TryPop` の移動。 -/
theorem setPop (h : Wf capacity s) {pc : PopPc ι} (hold : s.taken = []) (hnew : ∀ v, pc ≠ .storeDequeue v)
    (hlt : pc ≠ .loadEnqueue → s.dequeuePosition < s.enqueuePosition)
    (hready : pc = .take → s.ready (s.head capacity) = true) : Wf capacity { s with pop := pc } := by
  refine { h with cell := ?_, hole := ?_, popping := hlt, taking := hready, storing := fun v hv => absurd hv (hnew v) }
  · exact fun p i hp _ => h.cell p i hp fun _ => hold
  · intro htaken
    cases pc with
    | storeDequeue v => exact absurd rfl (hnew v)
    | _ => exact absurd rfl htaken

omit [DecidableEq ι] in
/-- 公開された先頭の枠の値は、その位置を予約し終えた者のものである。 -/
theorem head_owner (h : Wf capacity s) {v : ι} (hpop : s.pop = .take) (hv : s.storage (s.head capacity) = some v) :
    s.reserved[s.dequeuePosition]? = some v ∧ s.push v = .returned true := by
  obtain ⟨i, hi⟩ := h.exists_reserved (h.popping (by rw [hpop]; nofun))
  have hcell := h.cell _ i (Nat.le_refl _) (fun _ => by simp [State.taken, hpop]) hi
  have hready : s.ready (s.dequeuePosition % capacity) = true := h.taking hpop
  have hstorage : s.storage (s.dequeuePosition % capacity) = some v := hv
  rw [hready, hstorage] at hcell
  have hreserved := (h.reserved_iff i).mp (List.mem_of_getElem? hi)
  cases hpush : s.push i with
  | construct p => rw [hpush] at hcell; cases hcell
  | publish p => rw [hpush] at hcell; cases hcell
  | returned b =>
      cases b with
      | true =>
          rw [hpush] at hcell
          obtain rfl : v = i := Option.some.inj (congrArg Prod.fst hcell)
          exact ⟨hi, hpush⟩
      | false => rw [hpush] at hreserved; cases hreserved
  | _ => rw [hpush] at hreserved; cases hreserved

theorem popTake (h : Wf capacity s) {v : ι} (hb : enabled capacity s (.popTake v)) :
    Wf capacity (next capacity s (.popTake v)) := by
  obtain ⟨hpop, hv⟩ := hb
  obtain ⟨howner, hpush⟩ := h.head_owner hpop hv
  have hlt := h.popping (by rw [hpop]; nofun)
  refine { h with cell := ?_, vacant := ?_, hole := ?_, popping := fun _ => hlt, taking := nofun, storing := ?_ }
  · intro q j hq hqtaken hj
    have hne : q % capacity ≠ s.head capacity := by
      intro heq
      have := h.window
      have := h.lt_of_reserved hj
      have hq : s.dequeuePosition ≤ q := hq
      exact absurd (hqtaken (mod_injective hq (Nat.le_refl _) (by omega) (by omega) heq)) (List.cons_ne_nil _ _)
    have hold := h.cell q j hq (fun _ => by simp [State.taken, hpop]) hj
    simpa only [next, update_of_ne hne] using hold
  · intro k hk
    have hne : k ≠ s.head capacity := (hk _ (Nat.le_refl _) hlt).symm
    simpa only [next, update_of_ne hne] using h.vacant k hk
  · exact fun _ => ⟨update_self _ _ _, update_self _ _ _⟩
  · rintro w ⟨⟩
    exact ⟨howner, hpush⟩

theorem popStore (h : Wf capacity s) {v : ι} (hb : enabled capacity s (.popStore v)) :
    Wf capacity (next capacity s (.popStore v)) := by
  have hpop : s.pop = .storeDequeue v := hb
  obtain ⟨howner, hpush⟩ := h.storing v hpop
  have hlt := h.popping (by rw [hpop]; nofun)
  -- 位置の持ち主は公開を終えているので、書き込み中の者の位置は先にある
  have hahead : ∀ {i p}, s.dequeuePosition ≤ p → s.reserved[p]? = some i → s.push i ≠ .returned true →
      s.dequeuePosition + 1 ≤ p := by
    intro i p hle hp hi
    refine Nat.lt_of_le_of_ne hle ?_
    rintro rfl
    obtain rfl := Option.some.inj (hp.symm.trans howner)
    exact hi hpush
  refine { h with dequeue_le := hlt, window := ?_, loaded := ?_, tested := ?_, constructing := ?_, publishing := ?_,
                  cell := ?_, vacant := ?_, hole := ?_, popping := ?_, taking := nofun, storing := nofun, popped_eq := ?_ }
  · have := h.window
    show s.enqueuePosition ≤ s.dequeuePosition + 1 + capacity
    omega
  · exact fun i d hi => (h.loaded i d hi).trans (Nat.le_succ _)
  · exact fun i d p hi => ⟨(h.tested i d p hi).1.trans (Nat.le_succ _), (h.tested i d p hi).2⟩
  · intro i p hi
    obtain ⟨hle, hp⟩ := h.constructing i p hi
    exact ⟨hahead hle hp (by rw [show s.push i = _ from hi]; nofun), hp⟩
  · intro i p hi
    obtain ⟨hle, hp⟩ := h.publishing i p hi
    exact ⟨hahead hle hp (by rw [show s.push i = _ from hi]; nofun), hp⟩
  · intro q j hq _ hj
    have hq' : s.dequeuePosition + 1 ≤ q := hq
    exact h.cell q j (by omega) (fun heq => by omega) hj
  · intro k hk
    by_cases hhead : s.head capacity = k
    · subst hhead
      exact h.hole (by simp [State.taken, hpop])
    · refine h.vacant k fun q hle hltq => ?_
      rcases Nat.eq_or_lt_of_le hle with rfl | hlt'
      · exact hhead
      · exact hk q hlt' hltq
  · exact fun htaken => absurd rfl htaken
  · exact fun hne => absurd rfl hne
  · show s.popped ++ [v] = s.reserved.take (s.dequeuePosition + 1)
    rw [List.take_add_one, howner, h.popped_eq]
    rfl

theorem step (h : Wf capacity s) {a : Act ι} (hb : (mpscQueue ι capacity).enabled s a) :
    Wf capacity ((mpscQueue ι capacity).next s a) := by
  cases a with
  | loadDequeue i =>
      have hpush : s.push i = .loadDequeue := hb
      exact h.setPush (by rw [hpush]; rfl) rfl (by rintro d ⟨⟩; exact Nat.le_refl _) nofun
  | loadEnqueue i d =>
      obtain ⟨hpush, hlt⟩ := hb
      have hd := h.loaded i d hpush
      exact h.setPush (by rw [hpush]; rfl) rfl nofun (by rintro d' p ⟨⟩; exact ⟨hd, by have := h.dequeue_le; omega⟩)
  | refuse i d =>
      obtain ⟨hpush, _⟩ := hb
      exact h.setPush (by rw [hpush]; rfl) rfl nofun nofun
  | reserve i d p => exact h.reserve hb
  | retry i d p =>
      have hpush : s.push i = .exchange d p := hb
      exact h.setPush (by rw [hpush]; rfl) rfl nofun nofun
  | construct i p =>
      have hpush : s.push i = .construct p := hb
      obtain ⟨hle, hp⟩ := h.constructing i p hpush
      have hcell := h.cell p i hle (h.taken_nil hp (by rw [hpush]; nofun)) hp
      rw [hpush] at hcell
      have hready : update s.ready (p % capacity) false = s.ready :=
        update_eq_self_iff.mpr (congrArg Prod.snd hcell).symm
      have hfill := h.fill hle hp (.inl hpush) (.inl rfl)
      simp only [PushPc.cell, hready] at hfill
      exact hfill
  | publish i p =>
      have hpush : s.push i = .publish p := hb
      obtain ⟨hle, hp⟩ := h.publishing i p hpush
      have hcell := h.cell p i hle (h.taken_nil hp (by rw [hpush]; nofun)) hp
      rw [hpush] at hcell
      have hstorage : update s.storage (p % capacity) (some i) = s.storage :=
        update_eq_self_iff.mpr (congrArg Prod.fst hcell).symm
      have hfill := h.fill hle hp (.inr hpush) (.inr rfl)
      simp only [PushPc.cell, hstorage] at hfill
      exact hfill
  | popEmpty => exact h
  | popLoad =>
      obtain ⟨hpop, hne⟩ := hb
      have hle := h.dequeue_le
      exact h.setPop (by simp [State.taken, hpop]) nofun (fun _ => by omega) nofun
  | popUnready =>
      obtain ⟨hpop, _⟩ := hb
      exact h.setPop (by simp [State.taken, hpop]) nofun (fun hne => absurd rfl hne) nofun
  | popReady =>
      obtain ⟨hpop, hready⟩ := hb
      exact h.setPop (by simp [State.taken, hpop]) nofun (fun _ => h.popping (by rw [hpop]; nofun)) fun _ => hready
  | popTake v => exact h.popTake hb
  | popStore v => exact h.popStore hb

end Wf

theorem reachable_wf (h : (mpscQueue ι capacity).Reachable s) : Wf capacity s := by
  refine Machine.Reach.invariant (I := Wf capacity) ?_ ?_ h
  · rintro _ rfl
    exact Wf.init
  · exact fun s a _ hs hb _ => hs.step hb

/-! ## 枠の中身 -/

omit [DecidableEq ι] in
/-- 一つの枠の書き換えは、ほかの枠の中身を変えない。 -/
theorem filterMap_update_perm {l : List Nat} (hl : l.Nodup) {k : Nat} (hk : k ∈ l) (f : Nat → Option ι) (o : Option ι) :
    (l.filterMap (update f k o)).Perm (o.toList ++ (l.erase k).filterMap f) := by
  have hrest : (l.erase k).filterMap (update f k o) = (l.erase k).filterMap f :=
    List.filterMap_congr fun q hq => update_of_ne (fun heq => hl.not_mem_erase (heq ▸ hq)) _ _
  have hperm := (List.perm_cons_erase hk).filterMap (update f k o)
  rw [List.filterMap_cons, update_self, hrest] at hperm
  cases o with
  | none => exact hperm
  | some v => exact hperm

theorem contents_construct (h : Wf capacity s) {i : ι} {p : Nat} (hb : enabled capacity s (.construct i p)) :
    ((next capacity s (.construct i p)).contents capacity).Perm (i :: s.contents capacity) := by
  have hpush : s.push i = .construct p := hb
  obtain ⟨hle, hp⟩ := h.constructing i p hpush
  have hcell := h.cell p i hle (h.taken_nil hp (by rw [hpush]; nofun)) hp
  rw [hpush] at hcell
  have hmem : p % capacity ∈ List.range capacity := by
    have := h.window
    have := h.lt_of_reserved hp
    exact List.mem_range.mpr (Nat.mod_lt _ (by omega))
  have hnew := filterMap_update_perm List.nodup_range hmem s.storage (some i)
  have hold := filterMap_update_perm List.nodup_range hmem s.storage none
  rw [update_eq_self_iff.mpr (congrArg Prod.fst hcell).symm] at hold
  exact hnew.trans (hold.symm.cons i)

theorem contents_popTake (h : Wf capacity s) {v : ι} (hb : enabled capacity s (.popTake v)) :
    (s.contents capacity).Perm (v :: (next capacity s (.popTake v)).contents capacity) := by
  obtain ⟨hpop, hv⟩ := hb
  have hmem : s.head capacity ∈ List.range capacity := by
    have := h.window
    have := h.popping (by rw [hpop]; nofun)
    exact List.mem_range.mpr (Nat.mod_lt _ (by omega))
  have hnew := filterMap_update_perm List.nodup_range hmem s.storage none
  have hold := filterMap_update_perm List.nodup_range hmem s.storage (some v)
  rw [update_eq_self_iff.mpr hv.symm] at hold
  exact hold.trans (hnew.symm.cons v)

omit [DecidableEq ι] in
/-- 空でない待ち行列の先頭が公開されていなければ、その位置を予約した者がまだ書いている。 -/
theorem exists_unpublished (h : Wf capacity s) (hpop : s.pop = .loadReady) (hready : s.ready (s.head capacity) = false) :
    ∃ i, i ∈ s.reserved ∧ ∀ b, s.push i ≠ .returned b := by
  obtain ⟨i, hi⟩ := h.exists_reserved (h.popping (by rw [hpop]; nofun))
  have hmem := List.mem_of_getElem? hi
  have hreserved := (h.reserved_iff i).mp hmem
  have hcell := congrArg Prod.snd (h.cell _ i (Nat.le_refl _) (fun _ => by simp [State.taken, hpop]) hi)
  rw [show s.ready (s.dequeuePosition % capacity) = false from hready] at hcell
  refine ⟨i, hmem, ?_⟩
  rintro b hb
  rw [hb] at hcell
  cases hcell

omit [DecidableEq ι] in
/-- 枠にある値は、位置を予約した者のものである。 -/
theorem mem_reserved_of_storage (h : Wf capacity s) {k : Nat} {v : ι} (hv : s.storage k = some v) : v ∈ s.reserved := by
  by_cases hwindow : ∀ p, s.dequeuePosition ≤ p → p < s.enqueuePosition → p % capacity ≠ k
  · rw [(h.vacant k hwindow).1] at hv
    cases hv
  · simp only [not_forall, not_not] at hwindow
    obtain ⟨p, hle, hlt, rfl⟩ := hwindow
    obtain ⟨i, hi⟩ := h.exists_reserved hlt
    by_cases hhole : p = s.dequeuePosition ∧ s.taken ≠ []
    · obtain ⟨rfl, htaken⟩ := hhole
      rw [show s.storage (s.dequeuePosition % capacity) = none from (h.hole htaken).1] at hv
      cases hv
    · have hcell := h.cell p i hle (fun heq => by_contra fun htaken => hhole ⟨heq, htaken⟩) hi
      have hfst : ((s.push i).cell i).1 = some v := (congrArg Prod.fst hcell).symm.trans hv
      have hvi : v = i := by
        cases hpush : s.push i <;> rw [hpush] at hfst <;> cases hfst <;> rfl
      exact hvi ▸ List.mem_of_getElem? hi

omit [DecidableEq ι] in
/-- 取り出し終えた位置の持ち主は、公開を終えている。 -/
theorem returned_of_lt (h : Wf capacity s) {p : Nat} {v : ι} (hp : s.reserved[p]? = some v) (hlt : p < s.dequeuePosition) :
    s.push v = .returned true := by
  have hreserved := (h.reserved_iff v).mp (List.mem_of_getElem? hp)
  have hbehind : ∀ {q : Nat}, s.dequeuePosition ≤ q → s.reserved[q]? ≠ some v := by
    intro q hle hq
    have := h.reserved_inj hp hq
    omega
  cases hpush : s.push v with
  | construct q => exact absurd (h.constructing v q hpush).2 (hbehind (h.constructing v q hpush).1)
  | publish q => exact absurd (h.publishing v q hpush).2 (hbehind (h.publishing v q hpush).1)
  | returned b =>
      cases b with
      | true => rfl
      | false => rw [hpush] at hreserved; cases hreserved
  | _ => rw [hpush] at hreserved; cases hreserved

omit [DecidableEq ι] in
/-- 真を返した `TryPush` の値は、取り出されたか、取り出し手の手元にあるか、枠にある。 -/
theorem popped_or_queued (h : Wf capacity s) {v : ι} (hv : s.push v = .returned true) :
    v ∈ s.popped ∨ v ∈ s.taken ∨ v ∈ s.contents capacity := by
  obtain ⟨p, hp⟩ := List.mem_iff_getElem?.mp ((h.reserved_iff v).mpr (by rw [hv]; rfl))
  rcases Nat.lt_or_ge p s.dequeuePosition with hlt | hle
  · refine .inl ?_
    rw [h.popped_eq]
    exact List.mem_of_getElem? ((List.getElem?_take_of_lt hlt).trans hp)
  · by_cases hhole : p = s.dequeuePosition ∧ s.taken ≠ []
    · obtain ⟨rfl, htaken⟩ := hhole
      cases hpop : s.pop with
      | storeDequeue w =>
          obtain rfl := Option.some.inj ((h.storing w hpop).1.symm.trans hp)
          exact .inr (.inl (by simp [State.taken, hpop]))
      | _ => simp [State.taken, hpop] at htaken
    · have hcell := h.cell p v hle (fun heq => by_contra fun htaken => hhole ⟨heq, htaken⟩) hp
      rw [hv] at hcell
      have hmem : p % capacity ∈ List.range capacity := by
        have := h.window
        have := h.lt_of_reserved hp
        exact List.mem_range.mpr (Nat.mod_lt _ (by omega))
      exact .inr (.inr (List.mem_filterMap.mpr ⟨_, hmem, congrArg Prod.fst hcell⟩))

/-! ## `TryPush` の位置 -/

theorem push_of_ne {a : Act ι} {i : ι} (h : a.pusher ≠ some i) : (next capacity s a).push i = s.push i := by
  cases a with
  | loadDequeue j | loadEnqueue j d | refuse j d | reserve j d p | retry j d p | construct j p | publish j p =>
      exact update_of_ne (fun heq : i = j => h (congrArg some heq.symm)) _ _
  | _ => rfl

/-- 位置を動かす動作は、予約と取り出しの終わりだけである。 -/
theorem positions_next (capacity : Nat) (s : State ι) (a : Act ι) :
    ((next capacity s a).enqueuePosition = s.enqueuePosition ∧ (next capacity s a).dequeuePosition = s.dequeuePosition) ∨
      (∃ i d p, a = .reserve i d p) ∨ ∃ v, a = .popStore v := by
  cases a with
  | reserve i d p => exact .inr (.inl ⟨i, d, p, rfl⟩)
  | popStore v => exact .inr (.inr ⟨v, rfl⟩)
  | _ => exact .inl ⟨rfl, rfl⟩

theorem reserved_prefix_next (s : State ι) (a : Act ι) : s.reserved <+: (next capacity s a).reserved := by
  cases a with
  | reserve j d p => exact List.prefix_append _ _
  | _ => exact List.prefix_refl _

theorem mem_reserved_next {i : ι} (h : i ∈ s.reserved) (a : Act ι) : i ∈ (next capacity s a).reserved :=
  (reserved_prefix_next s a).subset h

/-- 予約の順は、後から変わらない。 -/
theorem reserved_prefix_steps {s s' : State ι} {C : State ι → Act ι → Prop} (h : (mpscQueue ι capacity).Steps C s s') :
    s.reserved <+: s'.reserved := by
  induction h with
  | refl => exact List.prefix_refl _
  | step _ _ _ ih => exact ih.trans (reserved_prefix_next _ _)

theorem popped_prefix_next (s : State ι) (a : Act ι) : s.popped <+: (next capacity s a).popped := by
  cases a with
  | popStore v => exact List.prefix_append _ _
  | _ => exact List.prefix_refl _

theorem popped_prefix_steps {s s' : State ι} {C : State ι → Act ι → Prop} (h : (mpscQueue ι capacity).Steps C s s') :
    s.popped <+: s'.popped := by
  induction h with
  | refl => exact List.prefix_refl _
  | step _ _ _ ih => exact ih.trans (popped_prefix_next _ _)

/-- 位置を予約していない `TryPush` の動作は、待ち行列を変えない。 -/
theorem next_of_not_reserved (h : Wf capacity s) {a : Act ι} {i : ι} (hb : enabled capacity s a)
    (hpusher : a.pusher = some i) (hnot : i ∉ (next capacity s a).reserved) :
    next capacity s a = { s with push := update s.push i ((next capacity s a).push i) } := by
  cases a with
  | loadDequeue j | loadEnqueue j d | refuse j d | retry j d p =>
      obtain rfl := Option.some.inj hpusher
      simp only [next, update_self]
  | reserve j d p =>
      obtain rfl := Option.some.inj hpusher
      exact absurd (List.mem_append_right _ (List.mem_singleton_self j)) hnot
  | construct j p =>
      obtain rfl := Option.some.inj hpusher
      exact absurd (List.mem_of_getElem? (h.constructing j p hb).2) hnot
  | publish j p =>
      obtain rfl := Option.some.inj hpusher
      exact absurd (List.mem_of_getElem? (h.publishing j p hb).2) hnot
  | _ => cases hpusher

/-! ## 拒まれる `TryPush` -/

omit [DecidableEq ι] in
theorem Wf.length_popped (h : Wf capacity s) : s.popped.length = s.dequeuePosition := by
  rw [h.popped_eq, List.length_take, h.length_eq]
  exact Nat.min_eq_left h.dequeue_le

omit [DecidableEq ι] in
theorem Wf.full_iff (h : Wf capacity s) : s.Full capacity ↔ s.enqueuePosition = s.dequeuePosition + capacity := by
  rw [State.Full, h.length_popped, h.length_eq]

omit [DecidableEq ι] in
/-- 二つの位置を読む間に取り出しが終わっていなければ、拒まれるのは枠に空きがないときである。 -/
theorem Wf.full_of_refuse (h : Wf capacity s) {i : ι} (hb : enabled capacity s (.refuse i s.dequeuePosition)) :
    s.Full capacity := by
  have hwindow := h.window
  have hle := h.dequeue_le
  have hover := hb.2
  rw [h.full_iff]
  omega

/-- 枠が一つなら、予約すると空きがなくなる。それまでは、読んだ取り出しの位置と予約の位置が等しい。 -/
theorem Wf.loaded_or_full (h : Wf capacity s) (hcapacity : capacity ≤ 1) {i : ι} {a : Act ι}
    (hb : (mpscQueue ι capacity).enabled s a) (hloaded : ∀ d, s.push i = .loadEnqueue d → s.enqueuePosition = d) :
    (∀ d, ((mpscQueue ι capacity).next s a).push i = .loadEnqueue d →
        ((mpscQueue ι capacity).next s a).enqueuePosition = d) ∨
      ((mpscQueue ι capacity).next s a).Full capacity := by
  have hwindow := h.window
  have hle := h.dequeue_le
  rw [(h.step hb).full_iff]
  show (∀ d, (next capacity s a).push i = .loadEnqueue d → (next capacity s a).enqueuePosition = d) ∨
    (next capacity s a).enqueuePosition = (next capacity s a).dequeuePosition + capacity
  cases a with
  | loadDequeue j =>
      by_cases hij : i = j
      · subst hij
        by_cases hempty : s.enqueuePosition = s.dequeuePosition
        · refine .inl fun d hd => ?_
          simp only [next, update_self] at hd
          cases hd
          exact hempty
        · refine .inr ?_
          show s.enqueuePosition = s.dequeuePosition + capacity
          omega
      · refine .inl fun d hd => hloaded d ?_
        simpa only [next, update_of_ne hij] using hd
  | loadEnqueue j d' | refuse j d' | retry j d' p | construct j p | publish j p =>
      refine .inl fun d hd => hloaded d ?_
      by_cases hij : i = j
      · subst hij
        simp only [next, update_self] at hd
        cases hd
      · simpa only [next, update_of_ne hij] using hd
  | reserve j d' p =>
      obtain ⟨hpush, rfl⟩ := hb
      obtain ⟨hd', hp⟩ := h.tested j d' _ hpush
      refine .inr ?_
      show s.enqueuePosition + 1 = s.dequeuePosition + capacity
      omega
  | _ => exact .inl hloaded

/-- 枠が一つ以下なら、`i` が最初に読んでからの実行は、空きのない時点を通るか、読んだ位置のまま予約が進んでいない。 -/
theorem loaded_or_fullDuring (hcapacity : capacity ≤ 1) {i : ι} {before during : List (Act ι)}
    (h : (mpscQueue ι capacity).exec .initial (before ++ .loadDequeue i :: during) = some s) :
    FullDuring capacity i before during ∨ ∀ d, s.push i = .loadEnqueue d → s.enqueuePosition = d := by
  have hinit : (mpscQueue ι capacity).Reachable (State.initial : State ι) := .init rfl
  -- 最後の動作についての帰納法。空きのない時点は、後の動作を足しても残る。
  induction during using List.reverseRecOn generalizing s with
  | nil =>
      obtain ⟨t, ht, henabled, rfl⟩ := Machine.exec_append_singleton h
      have hwf := reachable_wf (Machine.reachable_of_exec hinit ht)
      have hpush : t.push i = .loadDequeue := henabled
      rcases hwf.loaded_or_full hcapacity henabled (i := i) (by rw [hpush]; nofun) with hloaded | hfull
      · exact .inr hloaded
      · exact .inl ⟨[], List.prefix_rfl, _, h, hfull⟩
  | append_singleton during a ih =>
      have hassoc : before ++ .loadDequeue i :: (during ++ [a]) = (before ++ .loadDequeue i :: during) ++ [a] := by simp
      rw [hassoc] at h
      obtain ⟨t, ht, henabled, rfl⟩ := Machine.exec_append_singleton h
      have hwf := reachable_wf (Machine.reachable_of_exec hinit ht)
      rcases ih ht with ⟨early, hearly, hfull⟩ | hloaded
      · exact .inl ⟨early, hearly.trans (List.prefix_append _ _), hfull⟩
      · rcases hwf.loaded_or_full hcapacity henabled hloaded with hloaded | hfull
        · exact .inr hloaded
        · exact .inl ⟨during ++ [a], List.prefix_rfl, _, hassoc ▸ h, hfull⟩

end Xrpc.Common.MpscQueue
