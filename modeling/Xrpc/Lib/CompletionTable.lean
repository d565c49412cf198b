import Xrpc.Lib.Machine

/-!
# 完了を待つ者の表

待つ者は、鍵を付けて表に載り、表から取り出した者が後で結果を書く。取り出すことと書くことは別の動作であり、待つ者は自分の
鍵の項目を外して引き上げることもできる。
-/

namespace Xrpc.Lib.CompletionTable
open Function

/-- 待つ者の段階。`detached` は自分で表から外れたもの、`handed` は表に載っておらず、ただ結果を待つものである。 -/
inductive Stage where
  | new
  | active
  | detached
  | waiting
  | handed
  | finished
  deriving DecidableEq

/-- 表に載りうる段階。 -/
def Stage.listed : Stage → Prop
  | .active | .waiting => True
  | _ => False

/-- 待つ者ごとの表と鍵、表ごとの容量。 -/
structure Layout (τ κ ι : Type) where
  home : ι → τ
  key : ι → κ
  capacity : τ → Nat

/-- `hands a` は、`a` が表から取り出し、まだ結果を書いていないものである。`sets` は結果を書いた回数である。 -/
structure State (τ κ ι ω ν : Type) where
  table : τ → List (κ × ι)
  hands : ω → List (ι × ν)
  result : ι → Option ν
  sets : ι → Nat
  stage : ι → Stage

inductive Act (τ κ ι ω ν : Type) where
  | refuse (i : ι)
  | register (i : ι)
  | giveUp (i : ι)
  | detach (i : ι)
  | finish (i : ι)
  | await (i : ι)
  | expire (i : ι)
  | lose (i : ι)
  | collect (i : ι) (v : ν)
  | take (a : ω) (t : τ) (k : κ) (i : ι) (v : ν)
  | sweep (a : ω) (t : τ) (v : ν)
  | publish (a : ω) (i : ι) (v : ν)

variable {τ κ ι ω ν : Type} [DecidableEq τ] [DecidableEq κ] [DecidableEq ι] [DecidableEq ω] [DecidableEq ν]

def keys (s : State τ κ ι ω ν) (t : τ) : List κ := (s.table t).map Prod.fst

def dropKey (s : State τ κ ι ω ν) (t : τ) (k : κ) : τ → List (κ × ι) :=
  update s.table t ((s.table t).filter (·.1 ≠ k))

def enabled (L : Layout τ κ ι) (s : State τ κ ι ω ν) : Act τ κ ι ω ν → Prop
  | .refuse i => s.stage i = .new
  | .register i => s.stage i = .new ∧ (s.table (L.home i)).length < L.capacity (L.home i)
  | .giveUp i => s.stage i = .active
  | .detach i => s.stage i = .active
  | .finish i => s.stage i = .detached
  | .await i => s.stage i = .active
  | .expire i => s.stage i = .waiting ∧ s.result i = none ∧ L.key i ∈ keys s (L.home i)
  | .lose i => s.stage i = .waiting ∧ s.result i = none ∧ L.key i ∉ keys s (L.home i)
  | .collect i v => (s.stage i = .waiting ∨ s.stage i = .handed) ∧ s.result i = some v
  | .take _ t k i _ => (k, i) ∈ s.table t
  | .sweep _ _ _ => True
  | .publish a i v => (i, v) ∈ s.hands a

def next (L : Layout τ κ ι) (s : State τ κ ι ω ν) : Act τ κ ι ω ν → State τ κ ι ω ν
  | .refuse i => { s with stage := update s.stage i .finished }
  | .register i =>
      { s with
        table := update s.table (L.home i) ((L.key i, i) :: (s.table (L.home i)).filter (·.1 ≠ L.key i))
        stage := update s.stage i .active }
  | .giveUp i => { s with table := dropKey s (L.home i) (L.key i), stage := update s.stage i .finished }
  | .detach i => { s with table := dropKey s (L.home i) (L.key i), stage := update s.stage i .detached }
  | .finish i => { s with stage := update s.stage i .finished }
  | .await i => { s with stage := update s.stage i .waiting }
  | .expire i => { s with table := dropKey s (L.home i) (L.key i), stage := update s.stage i .finished }
  | .lose i => { s with stage := update s.stage i .handed }
  | .collect i _ => { s with stage := update s.stage i .finished }
  | .take a t k i v => { s with table := dropKey s t k, hands := update s.hands a (s.hands a ++ [(i, v)]) }
  | .sweep a t v =>
      { s with
        table := update s.table t []
        hands := update s.hands a (s.hands a ++ (s.table t).map fun e => (e.2, v)) }
  | .publish a i v =>
      { s with
        result := update s.result i (some v)
        sets := update s.sets i (s.sets i + 1)
        hands := update s.hands a ((s.hands a).erase (i, v)) }

/-- 最初は、誰も載っておらず、何も取り出していない。 -/
def init (s : State τ κ ι ω ν) : Prop :=
  (∀ t, s.table t = []) ∧ (∀ a, s.hands a = []) ∧ (∀ i, s.result i = none) ∧ (∀ i, s.sets i = 0) ∧
    ∀ i, s.stage i = .new

def machine (ω ν : Type) [DecidableEq ω] [DecidableEq ν] (L : Layout τ κ ι) :
    Machine (State τ κ ι ω ν) (Act τ κ ι ω ν) where
  init := init
  enabled := enabled L
  next := next L

/-! ## 不変条件 -/

/-- 一人の待つ者は、表、取り出した者の手元、結果の書かれた状態のうち、高々一つにある。 -/
structure Wf (L : Layout τ κ ι) (s : State τ κ ι ω ν) : Prop where
  home_eq : ∀ t k i, (k, i) ∈ s.table t → L.home i = t ∧ L.key i = k
  listed : ∀ t k i, (k, i) ∈ s.table t → (s.stage i).listed
  not_hand : ∀ t k i, (k, i) ∈ s.table t → ∀ a v, (i, v) ∉ s.hands a
  table_result : ∀ t k i, (k, i) ∈ s.table t → s.result i = none
  keys_nodup : ∀ t, (keys s t).Nodup
  hand_result : ∀ a i v, (i, v) ∈ s.hands a → s.result i = none
  hand_stage : ∀ a i v, (i, v) ∈ s.hands a → s.stage i ≠ .new
  hand_unique : ∀ a a' i v v', (i, v) ∈ s.hands a → (i, v') ∈ s.hands a' → a = a' ∧ v = v'
  hand_nodup : ∀ a, (s.hands a).Nodup
  result_stage : ∀ i, s.result i ≠ none → s.stage i ≠ .new
  sets_eq : ∀ i, s.sets i = if s.result i = none then 0 else 1
  size_le : ∀ t, (s.table t).length ≤ L.capacity t

namespace Wf

variable {L : Layout τ κ ι} {s : State τ κ ι ω ν}

omit [DecidableEq τ] [DecidableEq κ] [DecidableEq ι] [DecidableEq ω] [DecidableEq ν] in
/-- 表の項目が減るだけなら、不変条件は保たれる。 -/
theorem shrink (h : Wf L s) {table : τ → List (κ × ι)} (hsub : ∀ t, (table t).Sublist (s.table t)) :
    Wf L { s with table := table } where
  home_eq t k i hmem := h.home_eq t k i ((hsub t).subset hmem)
  listed t k i hmem := h.listed t k i ((hsub t).subset hmem)
  not_hand t k i hmem := h.not_hand t k i ((hsub t).subset hmem)
  table_result t k i hmem := h.table_result t k i ((hsub t).subset hmem)
  keys_nodup t := (h.keys_nodup t).sublist ((hsub t).map _)
  hand_result := h.hand_result
  hand_stage := h.hand_stage
  hand_unique := h.hand_unique
  hand_nodup := h.hand_nodup
  result_stage := h.result_stage
  sets_eq := h.sets_eq
  size_le t := (hsub t).length_le.trans (h.size_le t)

omit [DecidableEq ι] [DecidableEq ω] [DecidableEq ν] in
theorem dropKey_sublist (s : State τ κ ι ω ν) (t : τ) (k : κ) (t' : τ) : (dropKey s t k t').Sublist (s.table t') := by
  rw [dropKey, update_apply]
  split
  next h => subst h; exact List.filter_sublist
  next => exact List.Sublist.refl _

omit [DecidableEq ι] [DecidableEq ω] [DecidableEq ν] in
theorem mem_dropKey {t t' : τ} {k k' : κ} {i : ι} :
    (k', i) ∈ dropKey s t k t' ↔ (k', i) ∈ s.table t' ∧ (t' = t → k' ≠ k) := by
  rw [dropKey, update_apply]
  split
  next h => subst h; simp
  next h => simp [h]

omit [DecidableEq ι] [DecidableEq ω] [DecidableEq ν] in
theorem dropKey_self (h : Wf L s) {i : ι} {t : τ} {k : κ} : (k, i) ∉ dropKey s (L.home i) (L.key i) t := by
  intro hmem
  obtain ⟨hmem, hne⟩ := mem_dropKey.mp hmem
  obtain ⟨hhome, hkey⟩ := h.home_eq _ _ _ hmem
  exact hne hhome.symm hkey.symm

omit [DecidableEq τ] [DecidableEq κ] [DecidableEq ω] [DecidableEq ν] in
/-- 表に載っていない者は、どの段階へも移れる。載っている者は、表に載りうる段階へだけ移れる。 -/
theorem setStage (h : Wf L s) {i : ι} {stage : Stage} (hnew : stage ≠ .new)
    (hlisted : stage.listed ∨ ∀ t k, (k, i) ∉ s.table t) : Wf L { s with stage := update s.stage i stage } where
  home_eq := h.home_eq
  listed t k j hmem := by
    by_cases hj : j = i
    · subst hj
      rcases hlisted with hlisted | hnot
      · simpa using hlisted
      · exact absurd hmem (hnot t k)
    · simpa [hj] using h.listed t k j hmem
  not_hand := h.not_hand
  table_result := h.table_result
  keys_nodup := h.keys_nodup
  hand_result := h.hand_result
  hand_stage a j v hmem := by
    by_cases hj : j = i
    · subst hj; simpa using hnew
    · simpa [hj] using h.hand_stage a j v hmem
  hand_unique := h.hand_unique
  hand_nodup := h.hand_nodup
  result_stage j hres := by
    by_cases hj : j = i
    · subst hj; simpa using hnew
    · simpa [hj] using h.result_stage j hres
  sets_eq := h.sets_eq
  size_le := h.size_le

omit [DecidableEq τ] [DecidableEq κ] [DecidableEq ι] [DecidableEq ω] [DecidableEq ν] in
theorem not_mem_of_stage (h : Wf L s) {i : ι} (hstage : ¬ (s.stage i).listed) (t : τ) (k : κ) : (k, i) ∉ s.table t :=
  fun hmem => hstage (h.listed t k i hmem)

omit [DecidableEq τ] [DecidableEq κ] [DecidableEq ι] [DecidableEq ω] [DecidableEq ν] in
theorem not_mem_of_new (h : Wf L s) {i : ι} (hnew : s.stage i = .new) (t : τ) (k : κ) : (k, i) ∉ s.table t :=
  h.not_mem_of_stage (by rw [hnew]; exact id) t k

omit [DecidableEq ω] [DecidableEq ν] in
/-- 自分の鍵の項目を外して、表に載らない段階へ移る。 -/
theorem withdraw (h : Wf L s) (i : ι) {stage : Stage} (hnew : stage ≠ .new) :
    Wf L { s with table := dropKey s (L.home i) (L.key i), stage := update s.stage i stage } :=
  (h.shrink (dropKey_sublist s _ _)).setStage hnew (.inr fun _ _ => h.dropKey_self)

omit [DecidableEq ι] [DecidableEq ω] [DecidableEq ν] in
theorem mem_register {i j : ι} {t : τ} {k : κ}
    (hmem : (k, j) ∈ update s.table (L.home i) ((L.key i, i) :: (s.table (L.home i)).filter (·.1 ≠ L.key i)) t) :
    (j = i ∧ t = L.home i ∧ k = L.key i) ∨ (k, j) ∈ s.table t := by
  rw [update_apply] at hmem
  split at hmem
  next ht =>
    subst ht
    rcases List.mem_cons.mp hmem with heq | hmem
    · cases heq; exact .inl ⟨rfl, rfl, rfl⟩
    · exact .inr (List.mem_filter.mp hmem).1
  next => exact .inr hmem

theorem register (h : Wf L s) {i : ι} (hnew : s.stage i = .new)
    (hsize : (s.table (L.home i)).length < L.capacity (L.home i)) : Wf L (next L s (.register i)) where
  home_eq t k j hmem := by
    rcases mem_register hmem with ⟨rfl, rfl, rfl⟩ | hmem
    · exact ⟨rfl, rfl⟩
    · exact h.home_eq t k j hmem
  listed t k j hmem := by
    rcases mem_register hmem with ⟨rfl, _, _⟩ | hmem
    · simp [next, Stage.listed]
    · have hj : j ≠ i := fun hj => h.not_mem_of_new (hj ▸ hnew) t k hmem
      simpa [next, hj] using h.listed t k j hmem
  not_hand t k j hmem a v hhand := by
    rcases mem_register hmem with ⟨rfl, _, _⟩ | hmem
    · exact h.hand_stage a j v hhand hnew
    · exact h.not_hand t k j hmem a v hhand
  table_result t k j hmem := by
    rcases mem_register hmem with ⟨rfl, _, _⟩ | hmem
    · by_contra hres
      exact h.result_stage j hres hnew
    · exact h.table_result t k j hmem
  keys_nodup t := by
    by_cases ht : t = L.home i
    · subst ht
      have hsub := (h.keys_nodup (L.home i)).sublist (List.Sublist.map Prod.fst
        (List.filter_sublist (p := fun e : κ × ι => decide (e.1 ≠ L.key i))))
      simpa [next, keys] using hsub
    · simpa [next, keys, ht] using h.keys_nodup t
  hand_result := h.hand_result
  hand_stage a j v hmem := by
    by_cases hj : j = i
    · subst hj; simp [next]
    · simpa [next, hj] using h.hand_stage a j v hmem
  hand_unique := h.hand_unique
  hand_nodup := h.hand_nodup
  result_stage j hres := by
    by_cases hj : j = i
    · subst hj; simp [next]
    · simpa [next, hj] using h.result_stage j hres
  sets_eq := h.sets_eq
  size_le t := by
    by_cases ht : t = L.home i
    · subst ht
      have := List.length_filter_le (fun e : κ × ι => decide (e.1 ≠ L.key i)) (s.table (L.home i))
      simp only [next, update_self, List.length_cons]
      omega
    · simpa [next, ht] using h.size_le t

omit [DecidableEq τ] [DecidableEq κ] [DecidableEq ι] [DecidableEq ν] in
/-- 表から外した者たちを手元に加える。加える者は互いに異なり、表に残らない。 -/
theorem grab (h : Wf L s) (a : ω) {table : τ → List (κ × ι)} {entries : List (ι × ν)}
    (hsub : ∀ t, (table t).Sublist (s.table t)) (hnodup : (entries.map Prod.fst).Nodup)
    (hfrom : ∀ i v, (i, v) ∈ entries → (∃ t k, (k, i) ∈ s.table t) ∧ ∀ t k, (k, i) ∉ table t) :
    Wf L { s with table := table, hands := update s.hands a (s.hands a ++ entries) } := by
  have hmem : ∀ b i v, (i, v) ∈ update s.hands a (s.hands a ++ entries) b →
      (i, v) ∈ s.hands b ∨ b = a ∧ (i, v) ∈ entries := by
    intro b i v hmem
    rw [update_apply] at hmem
    split at hmem
    next hb => subst hb; exact (List.mem_append.mp hmem).imp id fun hmem => ⟨rfl, hmem⟩
    next => exact .inl hmem
  have hnot : ∀ b i v v', (i, v) ∈ s.hands b → (i, v') ∉ entries := by
    intro b i v v' hhand hentry
    obtain ⟨⟨t, k, htable⟩, _⟩ := hfrom i v' hentry
    exact h.not_hand t k i htable b v hhand
  have hshrink := h.shrink hsub
  refine { hshrink with not_hand := ?_, hand_result := ?_, hand_stage := ?_, hand_unique := ?_, hand_nodup := ?_ }
  · intro t k i htable b v hhand
    rcases hmem b i v hhand with hhand | ⟨_, hentry⟩
    · exact hshrink.not_hand t k i htable b v hhand
    · exact (hfrom i v hentry).2 t k htable
  · intro b i v hhand
    rcases hmem b i v hhand with hhand | ⟨_, hentry⟩
    · exact h.hand_result b i v hhand
    · obtain ⟨⟨t, k, htable⟩, _⟩ := hfrom i v hentry
      exact h.table_result t k i htable
  · intro b i v hhand
    rcases hmem b i v hhand with hhand | ⟨_, hentry⟩
    · exact h.hand_stage b i v hhand
    · obtain ⟨⟨t, k, htable⟩, _⟩ := hfrom i v hentry
      intro hnew
      exact h.not_mem_of_new hnew t k htable
  · intro b b' i v v' hhand hhand'
    rcases hmem b i v hhand with hold | ⟨rfl, hentry⟩ <;> rcases hmem b' i v' hhand' with hold' | ⟨rfl, hentry'⟩
    · exact h.hand_unique b b' i v v' hold hold'
    · exact absurd hentry' (hnot b i v v' hold)
    · exact absurd hentry (hnot b' i v' v hold')
    · have := List.inj_on_of_nodup_map hnodup hentry hentry' rfl
      exact ⟨rfl, congrArg Prod.snd this⟩
  · intro b
    simp only [update_apply]
    split
    next =>
      refine List.Nodup.append (h.hand_nodup a) hnodup.of_map ?_
      rintro ⟨i, v⟩ hhand hentry
      exact hnot a i v v hhand hentry
    next => exact h.hand_nodup b

theorem take (h : Wf L s) (a : ω) {t : τ} {k : κ} {i : ι} (v : ν) (hmem : (k, i) ∈ s.table t) :
    Wf L (next L s (.take a t k i v)) := by
  obtain ⟨rfl, rfl⟩ := h.home_eq t k i hmem
  refine h.grab a (dropKey_sublist s _ _) (by simp) ?_
  intro j w hentry
  obtain ⟨rfl, rfl⟩ := Prod.mk.inj (List.mem_singleton.mp hentry)
  exact ⟨⟨_, _, hmem⟩, fun _ _ => h.dropKey_self⟩

omit [DecidableEq τ] [DecidableEq κ] [DecidableEq ι] [DecidableEq ω] [DecidableEq ν] in
theorem calls_nodup (h : Wf L s) (t : τ) : ((s.table t).map Prod.snd).Nodup := by
  refine List.Nodup.map_on ?_ (h.keys_nodup t).of_map
  rintro ⟨k, i⟩ hmem ⟨k', i'⟩ hmem' hi
  obtain rfl : i = i' := hi
  rw [← (h.home_eq t k i hmem).2, ← (h.home_eq t k' i hmem').2]

theorem sweep (h : Wf L s) (a : ω) (t : τ) (v : ν) : Wf L (next L s (.sweep a t v)) := by
  refine h.grab a ?_ ?_ ?_
  · intro t'
    rw [update_apply]
    split
    next => exact List.nil_sublist _
    next => exact List.Sublist.refl _
  · simpa [List.map_map, comp_def] using h.calls_nodup t
  · intro i w hentry
    obtain ⟨⟨k, j⟩, hmem, heq⟩ := List.mem_map.mp hentry
    obtain ⟨rfl, rfl⟩ := Prod.mk.inj heq
    refine ⟨⟨t, k, hmem⟩, ?_⟩
    intro t' k' hmem'
    rw [update_apply] at hmem'
    split at hmem'
    next => cases hmem'
    next hne => exact hne ((h.home_eq t' k' j hmem').1.symm.trans (h.home_eq t k j hmem).1)

theorem publish (h : Wf L s) {a : ω} {i : ι} {v : ν} (hmem : (i, v) ∈ s.hands a) :
    Wf L (next L s (.publish a i v)) := by
  have hres := h.hand_result a i v hmem
  have hgone : ∀ b w, (i, w) ∉ update s.hands a ((s.hands a).erase (i, v)) b := by
    intro b w hhand
    rw [update_apply] at hhand
    split at hhand
    next =>
      obtain ⟨hne, hhand⟩ := (h.hand_nodup a).mem_erase_iff.mp hhand
      exact hne (by rw [(h.hand_unique a a i v w hmem hhand).2])
    next hb => exact hb (h.hand_unique b a i w v hhand hmem).1
  have hsub : ∀ b, (update s.hands a ((s.hands a).erase (i, v)) b).Sublist (s.hands b) := by
    intro b
    rw [update_apply]
    split
    next hb => subst hb; exact List.erase_sublist
    next => exact List.Sublist.refl _
  refine { h with not_hand := ?_, table_result := ?_, hand_result := ?_, hand_stage := ?_, hand_unique := ?_,
                  hand_nodup := ?_, result_stage := ?_, sets_eq := ?_ }
  · exact fun t k j htable b w hhand => h.not_hand t k j htable b w ((hsub b).subset hhand)
  · intro t k j htable
    have hj : j ≠ i := by rintro rfl; exact h.not_hand t k j htable a v hmem
    simpa [next, hj] using h.table_result t k j htable
  · intro b j w hhand
    have hj : j ≠ i := by rintro rfl; exact hgone b w hhand
    simpa [next, hj] using h.hand_result b j w ((hsub b).subset hhand)
  · exact fun b j w hhand => h.hand_stage b j w ((hsub b).subset hhand)
  · exact fun b b' j w w' hhand hhand' =>
      h.hand_unique b b' j w w' ((hsub b).subset hhand) ((hsub b').subset hhand')
  · exact fun b => (h.hand_nodup b).sublist (hsub b)
  · intro j hj
    by_cases hji : j = i
    · subst hji; exact h.hand_stage a j v hmem
    · exact h.result_stage j (by simpa [next, hji] using hj)
  · intro j
    by_cases hji : j = i
    · subst hji; simp [next, h.sets_eq j, hres]
    · simpa [next, hji] using h.sets_eq j

theorem step (h : Wf L s) {b : Act τ κ ι ω ν} (hb : enabled L s b) : Wf L (next L s b) := by
  cases b with
  | refuse i => exact h.setStage (by simp) (.inr (h.not_mem_of_new hb))
  | register i => exact h.register hb.1 hb.2
  | giveUp i => exact h.withdraw i (by simp)
  | detach i => exact h.withdraw i (by simp)
  | finish i => exact h.setStage (by simp) (.inr (h.not_mem_of_stage (by rw [show s.stage i = .detached from hb]; exact id)))
  | await i => exact h.setStage (by simp) (.inl trivial)
  | expire i => exact h.withdraw i (by simp)
  | lose i =>
      refine h.setStage (by simp) (.inr fun t k hmem => hb.2.2 ?_)
      obtain ⟨rfl, rfl⟩ := h.home_eq t k i hmem
      exact List.mem_map.mpr ⟨_, hmem, rfl⟩
  | collect i v =>
      refine h.setStage (by simp) (.inr fun t k hmem => ?_)
      have hres := h.table_result t k i hmem
      rw [hb.2] at hres
      cases hres
  | take a t k i v => exact h.take a v hb
  | sweep a t v => exact h.sweep a t v
  | publish a i v => exact h.publish hb

end Wf

omit [DecidableEq τ] [DecidableEq κ] [DecidableEq ι] [DecidableEq ω] [DecidableEq ν] in
theorem init_wf {L : Layout τ κ ι} {s : State τ κ ι ω ν} (h : init s) : Wf L s := by
  obtain ⟨htable, hhands, hresult, hsets, hstage⟩ := h
  constructor <;> simp [keys, htable, hhands, hresult, hsets]

/-- 到達する状態は、すべて不変条件を満たす。 -/
theorem reachable_wf {L : Layout τ κ ι} {s : State τ κ ι ω ν} (h : (machine ω ν L).Reachable s) : Wf L s :=
  h.invariant (I := Wf L) (fun _ h => init_wf h) fun _ _ _ hwf hb _ => hwf.step hb

/-! ## 鍵が互いに異なるとき -/

/-- 同じ表に載る者の鍵は、互いに異なる。 -/
def Layout.Distinct (L : Layout τ κ ι) : Prop := ∀ i j, L.home i = L.home j → L.key i = L.key j → i = j

/-- 登録してまだ終わっていない者は、表か、取り出した者の手元か、結果の書かれた状態のどれかにある。 -/
def Attended (L : Layout τ κ ι) (s : State τ κ ι ω ν) : Prop :=
  ∀ i, s.stage i = .active ∨ s.stage i = .waiting ∨ s.stage i = .handed →
    (L.key i, i) ∈ s.table (L.home i) ∨ (∃ a v, (i, v) ∈ s.hands a) ∨ s.result i ≠ none

section Distinct

variable {L : Layout τ κ ι} {s : State τ κ ι ω ν}

omit [DecidableEq ι] [DecidableEq ω] [DecidableEq ν] in
/-- 他の者が自分の鍵の項目を外しても、載っていた項目は残る。 -/
theorem mem_dropKey_of_ne (hL : L.Distinct) {i j : ι} (hij : i ≠ j) (hmem : (L.key i, i) ∈ s.table (L.home i)) :
    (L.key i, i) ∈ dropKey s (L.home j) (L.key j) (L.home i) :=
  Wf.mem_dropKey.mpr ⟨hmem, fun hhome hkey => hij (hL i j hhome hkey)⟩

omit [DecidableEq ω] [DecidableEq ν] in
/-- 段階が変わった者と、表の項目を失った者を除けば、居場所は変わらない。 -/
theorem Attended.withdraw (hL : L.Distinct) (h : Attended L s) (j : ι) {stage : Stage}
    (hstage : stage ≠ .active ∧ stage ≠ .waiting ∧ stage ≠ .handed) :
    Attended L { s with table := dropKey s (L.home j) (L.key j), stage := update s.stage j stage } := by
  intro i hi
  by_cases hij : i = j
  · subst hij; simp [hstage] at hi
  · rcases h i (by simpa [hij] using hi) with hmem | hrest
    · exact .inl (mem_dropKey_of_ne hL hij hmem)
    · exact .inr hrest

omit [DecidableEq τ] [DecidableEq κ] [DecidableEq ω] [DecidableEq ν] in
theorem Attended.setStage (h : Attended L s) (j : ι) {stage : Stage}
    (hstage : (stage ≠ .active ∧ stage ≠ .waiting ∧ stage ≠ .handed) ∨ s.stage j = .active ∨ s.stage j = .waiting) :
    Attended L { s with stage := update s.stage j stage } := by
  intro i hi
  by_cases hij : i = j
  · subst hij
    rcases hstage with hstage | hstage
    · simp [hstage] at hi
    · exact h i (hstage.imp id .inl)
  · exact h i (by simpa [hij] using hi)

theorem Attended.step (hL : L.Distinct) (hwf : Wf L s) (h : Attended L s) {b : Act τ κ ι ω ν} (hb : enabled L s b) :
    Attended L (next L s b) := by
  cases b with
  | refuse j => exact h.setStage j (.inl (by simp))
  | register j =>
      intro i hi
      by_cases hij : i = j
      · subst hij; exact .inl (by simp [next])
      · rcases h i (by simpa [next, hij] using hi) with hmem | hrest
        · left
          by_cases hhome : L.home i = L.home j
          · have hkey : L.key i ≠ L.key j := fun hkey => hij (hL i j hhome hkey)
            rw [hhome] at hmem
            simp [next, hhome, hij, hkey, hmem]
          · simpa [next, hhome] using hmem
        · exact .inr hrest
  | giveUp j => exact h.withdraw hL j (by simp)
  | detach j => exact h.withdraw hL j (by simp)
  | finish j => exact h.setStage j (.inl (by simp))
  | await j => exact h.setStage j (.inr (.inl hb))
  | expire j => exact h.withdraw hL j (by simp)
  | lose j => exact h.setStage j (.inr (.inr hb.1))
  | collect j v => exact h.setStage j (.inl (by simp))
  | take a t k j v =>
      intro i hi
      obtain ⟨rfl, rfl⟩ := hwf.home_eq t k j hb
      by_cases hij : i = j
      · subst hij; exact .inr (.inl ⟨a, v, by simp [next]⟩)
      · rcases h i hi with hmem | ⟨b, w, hhand⟩ | hres
        · exact .inl (mem_dropKey_of_ne hL hij hmem)
        · refine .inr (.inl ⟨b, w, ?_⟩)
          simp only [next, update_apply]
          split
          next hb => subst hb; exact List.mem_append_left _ hhand
          next => exact hhand
        · exact .inr (.inr hres)
  | sweep a t v =>
      intro i hi
      rcases h i hi with hmem | ⟨b, w, hhand⟩ | hres
      · by_cases ht : L.home i = t
        · subst ht
          refine .inr (.inl ⟨a, v, ?_⟩)
          simp only [next, update_self]
          exact List.mem_append_right _ (List.mem_map.mpr ⟨_, hmem, rfl⟩)
        · left; simpa [next, ht] using hmem
      · refine .inr (.inl ⟨b, w, ?_⟩)
        simp only [next, update_apply]
        split
        next hb => subst hb; exact List.mem_append_left _ hhand
        next => exact hhand
      · exact .inr (.inr hres)
  | publish a j v =>
      intro i hi
      by_cases hij : i = j
      · subst hij; exact .inr (.inr (by simp [next]))
      · rcases h i hi with hmem | ⟨b, w, hhand⟩ | hres
        · exact .inl hmem
        · refine .inr (.inl ⟨b, w, ?_⟩)
          simp only [next, update_apply]
          split
          next hb => subst hb; exact (List.mem_erase_of_ne (by simp [hij])).mpr hhand
          next => exact hhand
        · exact .inr (.inr (by simpa [next, hij] using hres))

/-- 鍵が互いに異なれば、登録した者が見失われることはない。 -/
theorem reachable_attended (hL : L.Distinct) (h : (machine ω ν L).Reachable s) : Attended L s := by
  refine h.invariant (I := Attended L) ?_ fun _ _ hreach hatt hb _ => hatt.step hL (reachable_wf hreach) hb
  rintro s ⟨_, _, _, _, hstage⟩ i hi
  simp [hstage] at hi

omit [DecidableEq τ] [DecidableEq κ] [DecidableEq ι] [DecidableEq ω] [DecidableEq ν] in
/-- 鍵が互いに異なれば、終わった者の鍵は表に残っていない。 -/
theorem Wf.key_not_mem (hL : L.Distinct) (h : Wf L s) {i : ι} (hi : ¬ (s.stage i).listed) :
    L.key i ∉ keys s (L.home i) := by
  intro hmem
  obtain ⟨⟨k, j⟩, hmem, rfl⟩ := List.mem_map.mp hmem
  obtain ⟨hhome, hkey⟩ := h.home_eq _ _ _ hmem
  obtain rfl := hL j i hhome hkey
  exact hi (h.listed _ _ _ hmem)

end Distinct

end Xrpc.Lib.CompletionTable
