import Xrpc.Io.BufferPool

/-!
# 受信バッファの貸し借りの補題
-/

namespace Xrpc.Io
open Xrpc.Lib Xrpc.Protocol Function

variable {ω : Type}

/-! ## 登録 -/

theorem UringBufferPoolConfig.bufferCount_le_of_validate {config : UringBufferPoolConfig} (h : config.validate.isOk = true) :
    config.bufferCount.toNat ≤ 2 ^ 15 := by
  by_contra hgt
  have hlt : maxBufferCount < config.bufferCount := UInt32.lt_iff_toNat_lt.mpr (by simpa [maxBufferCount] using hgt)
  rw [UringBufferPoolConfig.validate, if_pos hlt] at h
  split at h <;> simp [Status.isOk] at h

namespace UringProvidedBufferPool

theorem foldl_provide (indices : List Nat) (pool : UringProvidedBufferPool) :
    indices.foldl (fun pool index => pool.provide (UInt16.ofNat index)) pool =
      { pool with bufferRing := pool.bufferRing ++ indices.map UInt16.ofNat } := by
  induction indices generalizing pool with
  | nil => simp
  | cons index indices ih =>
      rw [List.foldl_cons, ih]
      simp [provide]

/-- 登録は、すべての番号を一度ずつ差し出す。 -/
theorem eq_of_register {config : UringBufferPoolConfig} {pool : UringProvidedBufferPool} (h : register config = .ok pool) :
    config.bufferCount.toNat ≤ 2 ^ 15 ∧
      pool = ⟨config, (List.range config.bufferCount.toNat).map UInt16.ofNat, fun _ => false, 0⟩ := by
  rw [register] at h
  split at h
  next hvalid =>
    refine ⟨UringBufferPoolConfig.bufferCount_le_of_validate hvalid, ?_⟩
    rw [foldl_provide] at h
    exact (Except.ok.inj h).symm
  next => cases h

theorem count_registered {count : Nat} (hcount : count ≤ 2 ^ 15) (bufferId : UInt16) :
    ((List.range count).map UInt16.ofNat).count bufferId = if bufferId.toNat < count then 1 else 0 := by
  have hnodup : ((List.range count).map UInt16.ofNat).Nodup := by
    refine List.Nodup.map_on (fun i hi j hj hij => ?_) List.nodup_range
    rw [List.mem_range] at hi hj
    have htoNat := congrArg UInt16.toNat hij
    rwa [UInt16.toNat_ofNat_of_lt' (by simp [UInt16.size]; omega),
      UInt16.toNat_ofNat_of_lt' (by simp [UInt16.size]; omega)] at htoNat
  split
  next hlt =>
    exact List.count_eq_one_of_mem hnodup (List.mem_map.mpr ⟨_, List.mem_range.mpr hlt, UInt16.ofNat_toNat⟩)
  next hge =>
    refine List.count_eq_zero_of_not_mem fun hmem => hge ?_
    obtain ⟨i, hi, rfl⟩ := List.mem_map.mp hmem
    rw [List.mem_range] at hi
    rwa [UInt16.toNat_ofNat_of_lt' (by simp [UInt16.size]; omega)]

/-! ## 貸し借りの成功 -/

variable {pool : UringProvidedBufferPool} {bufferId : UInt16}

theorem acquire_eq_ok {size : Nat} (hid : bufferId.toNat < pool.config.bufferCount.toNat)
    (hsize : size ≤ pool.config.bufferSize.toNat) (hfree : pool.leased bufferId = false) :
    pool.acquire bufferId size =
      .ok (⟨true, bufferId, ⟨bufferId.toNat * pool.config.bufferSize.toNat, size⟩⟩,
        { pool with leased := update pool.leased bufferId true, outstandingLeases := pool.outstandingLeases + 1 }) := by
  rw [acquire, if_neg hid.not_ge, if_neg hsize.not_gt, if_neg (by simp [hfree])]

theorem release_eq_ok (hid : bufferId.toNat < pool.config.bufferCount.toNat) (hleased : pool.leased bufferId = true)
    (hpos : 0 < pool.outstandingLeases) :
    pool.release bufferId =
      .ok { pool with
        bufferRing := pool.bufferRing ++ [bufferId]
        leased := update pool.leased bufferId false
        outstandingLeases := pool.outstandingLeases - 1 } := by
  rw [release, if_neg (by simp [hleased, hid, hpos.ne'])]
  rfl

end UringProvidedBufferPool

/-! ## 番号の置かれる所 -/

/-- どの番号も、差し出された所、選ばれた所、借りた値のうちの一つに、一度だけある。 -/
structure Exact (pool : UringProvidedBufferPool) (cqes : List ProvidedCqe) (held : ω → Option UInt16) : Prop where
  place : ∀ bufferId : UInt16, pool.bufferRing.count bufferId + (cqes.map ProvidedCqe.bufferId).count bufferId +
    (pool.leased bufferId).toNat = if bufferId.toNat < pool.config.bufferCount.toNat then 1 else 0
  fits : ∀ cqe ∈ cqes, cqe.res ≤ pool.config.bufferSize.toNat
  leased : ∀ bufferId, pool.leased bufferId = true ↔ ∃ o, held o = some bufferId
  unique : ∀ o o' bufferId, held o = some bufferId → held o' = some bufferId → o = o'
  counted : ∃ ids : Finset UInt16, (∀ bufferId, bufferId ∈ ids ↔ pool.leased bufferId = true) ∧
    ids.card = pool.outstandingLeases
  total : pool.bufferRing.length + cqes.length + pool.outstandingLeases = pool.config.bufferCount.toNat

namespace Exact

variable {pool : UringProvidedBufferPool} {cqes : List ProvidedCqe} {held : ω → Option UInt16}

theorem of_register {config : UringBufferPoolConfig} (h : UringProvidedBufferPool.register config = .ok pool) :
    Exact pool [] (fun _ : ω => none) := by
  obtain ⟨hcount, rfl⟩ := UringProvidedBufferPool.eq_of_register h
  refine ⟨fun bufferId => ?_, nofun, fun bufferId => ?_, nofun, ⟨∅, by simp, rfl⟩, by simp⟩
  · exact UringProvidedBufferPool.count_registered hcount bufferId
  · simp

theorem leased_lt (h : Exact pool cqes held) {bufferId : UInt16} (hleased : pool.leased bufferId = true) :
    bufferId.toNat < pool.config.bufferCount.toNat := by
  have hplace := h.place bufferId
  rw [hleased] at hplace
  by_contra hge
  rw [if_neg hge] at hplace
  simp at hplace

/-- 核が選ぶ。 -/
theorem select (h : Exact pool cqes held) {bufferId : UInt16} {res : Int} (hmem : bufferId ∈ pool.bufferRing)
    (hres : res ≤ pool.config.bufferSize.toNat) :
    Exact { pool with bufferRing := pool.bufferRing.erase bufferId } (cqes ++ [⟨bufferId, res⟩]) held := by
  refine { h with place := fun other => ?_, fits := ?_, total := ?_ }
  · have hplace := h.place other
    rw [(List.perm_cons_erase hmem).count_eq other, List.count_cons] at hplace
    simp only [List.map_append, List.map_cons, List.map_nil, List.count_append, List.count_singleton]
    omega
  · intro cqe hcqe
    rcases List.mem_append.mp hcqe with hcqe | hcqe
    · exact h.fits cqe hcqe
    · rw [List.mem_singleton.mp hcqe]
      exact hres
  · have htotal := h.total
    have hpos := List.length_pos_of_mem hmem
    simp only [List.length_erase_of_mem hmem, List.length_append, List.length_singleton]
    omega

variable [DecidableEq ω]

/-- 借りた番号が、空の番地へ移る。 -/
theorem move (h : Exact pool cqes held) {o other : ω} (hne : o ≠ other) (ho : held o = none) :
    Exact pool cqes (update (update held other none) o (held other)) := by
  -- 移した後の持ち主を、移す前の持ち主に戻す
  have hback : ∀ p bufferId, update (update held other none) o (held other) p = some bufferId →
      held (if p = o then other else p) = some bufferId := by
    intro p bufferId hp
    by_cases hpo : p = o
    · subst hpo
      rw [if_pos rfl]
      rwa [update_self] at hp
    · rw [if_neg hpo]
      rw [update_of_ne hpo] at hp
      by_cases hpother : p = other
      · subst hpother
        rw [update_self] at hp
        cases hp
      · rwa [update_of_ne hpother] at hp
  refine { h with leased := fun bufferId => (h.leased bufferId).trans ⟨?_, ?_⟩, unique := ?_ }
  · rintro ⟨p, hp⟩
    by_cases hpother : p = other
    · subst hpother
      exact ⟨o, by rw [update_self]; exact hp⟩
    · have hpo : p ≠ o := fun hpo => by rw [hpo, ho] at hp; cases hp
      exact ⟨p, by rw [update_of_ne hpo, update_of_ne hpother]; exact hp⟩
  · rintro ⟨p, hp⟩
    exact ⟨_, hback p bufferId hp⟩
  · intro p q bufferId hp hq
    have hpq := h.unique _ _ bufferId (hback p bufferId hp) (hback q bufferId hq)
    have hempty : ∀ r, r = other → update (update held other none) o (held other) r = none := by
      rintro r rfl
      rw [update_of_ne hne.symm, update_self]
    by_cases hpo : p = o <;> by_cases hqo : q = o
    · rw [hpo, hqo]
    · rw [if_pos hpo, if_neg hqo] at hpq
      rw [hempty q hpq.symm] at hq
      cases hq
    · rw [if_neg hpo, if_pos hqo] at hpq
      rw [hempty p hpq] at hp
      cases hp
    · rwa [if_neg hpo, if_neg hqo] at hpq

/-- `Acquire` は `Abort` せず、選ばれた番号を空の番地に貸す。 -/
theorem acquire (h : Exact pool cqes held) {cqe : ProvidedCqe} (hmem : cqe ∈ cqes) {o : ω} (ho : held o = none) :
    ∃ buffer pool', pool.acquire cqe.bufferId cqe.bytesTransferred = .ok (buffer, pool') ∧
      buffer.lease = some cqe.bufferId ∧ pool'.config = pool.config ∧
      Exact pool' (cqes.erase cqe) (update held o (some cqe.bufferId)) := by
  have hcount : ∀ bufferId, (cqes.map ProvidedCqe.bufferId).count bufferId =
      ((cqes.erase cqe).map ProvidedCqe.bufferId).count bufferId + if cqe.bufferId == bufferId then 1 else 0 := by
    intro bufferId
    rw [((List.perm_cons_erase hmem).map _).count_eq bufferId, List.map_cons, List.count_cons]
  have hplace := h.place cqe.bufferId
  rw [hcount, beq_self_eq_true, if_pos rfl] at hplace
  have hlt : cqe.bufferId.toNat < pool.config.bufferCount.toNat := by
    by_contra hge
    rw [if_neg hge] at hplace
    omega
  rw [if_pos hlt] at hplace
  have hfree : pool.leased cqe.bufferId = false := by
    cases hleased : pool.leased cqe.bufferId with
    | false => rfl
    | true => rw [hleased] at hplace; simp at hplace
  have hsize : cqe.bytesTransferred ≤ pool.config.bufferSize.toNat := by
    have hfits := h.fits cqe hmem
    rw [ProvidedCqe.bytesTransferred]
    split <;> omega
  have hunheld : ∀ p, held p ≠ some cqe.bufferId := fun p hp => by
    have hleased := (h.leased cqe.bufferId).mpr ⟨p, hp⟩
    rw [hfree] at hleased
    cases hleased
  refine ⟨_, _, UringProvidedBufferPool.acquire_eq_ok hlt hsize hfree, rfl, rfl,
    fun bufferId => ?_, fun c hc => h.fits c (List.mem_of_mem_erase hc), fun bufferId => ?_, ?_, ?_, ?_⟩
  · have hother := h.place bufferId
    rw [hcount] at hother
    by_cases heq : bufferId = cqe.bufferId
    · subst heq
      simp only [update_self, Bool.toNat_true]
      rw [beq_self_eq_true, if_pos rfl, hfree] at hother
      exact hother
    · rw [if_neg (by simpa using fun heq' => heq heq'.symm)] at hother
      simp only [update_of_ne heq]
      exact hother
  · by_cases heq : bufferId = cqe.bufferId
    · subst heq
      simp only [update_self, true_iff]
      exact ⟨o, update_self ..⟩
    · simp only [update_of_ne heq, h.leased]
      refine ⟨fun ⟨p, hp⟩ => ⟨p, ?_⟩, fun ⟨p, hp⟩ => ⟨p, ?_⟩⟩
      · rwa [update_of_ne (fun hpo => by rw [hpo, ho] at hp; cases hp)]
      · have hpo : p ≠ o := fun hpo => heq (by rw [hpo, update_self] at hp; exact (Option.some.inj hp).symm)
        rwa [update_of_ne hpo] at hp
  · intro p q bufferId hp hq
    by_cases hpo : p = o <;> by_cases hqo : q = o
    · rw [hpo, hqo]
    · rw [hpo, update_self] at hp
      rw [update_of_ne hqo, ← hp] at hq
      exact absurd hq (hunheld q)
    · rw [hqo, update_self] at hq
      rw [update_of_ne hpo, ← hq] at hp
      exact absurd hp (hunheld p)
    · rw [update_of_ne hpo] at hp
      rw [update_of_ne hqo] at hq
      exact h.unique p q bufferId hp hq
  · obtain ⟨ids, hids, hcard⟩ := h.counted
    refine ⟨insert cqe.bufferId ids, fun bufferId => ?_, ?_⟩
    · rw [Finset.mem_insert, hids]
      by_cases heq : bufferId = cqe.bufferId
      · simp [heq]
      · simp [heq]
    · rw [Finset.card_insert_of_notMem (by rw [hids, hfree]; nofun), hcard]
  · have htotal := h.total
    have hpos := List.length_pos_of_mem hmem
    simp only [List.length_erase_of_mem hmem]
    omega

/-- 借りている番地の `Release` は `Abort` せず、番号を差し出し直す。 -/
theorem release (h : Exact pool cqes held) {o : ω} {bufferId : UInt16} (ho : held o = some bufferId) :
    ∃ pool', pool.release bufferId = .ok pool' ∧ pool'.config = pool.config ∧ Exact pool' cqes (update held o none) := by
  have hleased := (h.leased bufferId).mpr ⟨o, ho⟩
  have hlt := h.leased_lt hleased
  obtain ⟨ids, hids, hcard⟩ := h.counted
  have hmem : bufferId ∈ ids := (hids bufferId).mpr hleased
  have hpos : 0 < pool.outstandingLeases := hcard ▸ Finset.card_pos.mpr ⟨_, hmem⟩
  refine ⟨_, UringProvidedBufferPool.release_eq_ok hlt hleased hpos, rfl,
    fun other => ?_, h.fits, fun other => ?_, ?_, ⟨ids.erase bufferId, fun other => ?_, ?_⟩, ?_⟩
  · have hplace := h.place other
    simp only [List.count_append, List.count_singleton]
    by_cases heq : other = bufferId
    · subst heq
      rw [hleased] at hplace
      simp only [update_self, beq_self_eq_true, if_true, Bool.toNat_true, Bool.toNat_false] at hplace ⊢
      omega
    · rw [if_neg (by simpa using fun heq' => heq heq'.symm)]
      simp only [update_of_ne heq]
      exact hplace
  · by_cases heq : other = bufferId
    · subst heq
      simp only [update_self, Bool.false_eq_true, false_iff]
      rintro ⟨p, hp⟩
      by_cases hpo : p = o
      · rw [hpo, update_self] at hp
        cases hp
      · rw [update_of_ne hpo] at hp
        exact hpo (h.unique p o other hp ho)
    · simp only [update_of_ne heq, h.leased]
      refine ⟨fun ⟨p, hp⟩ => ⟨p, ?_⟩, fun ⟨p, hp⟩ => ⟨p, ?_⟩⟩
      · rwa [update_of_ne (fun hpo => heq (by rw [hpo, ho] at hp; exact (Option.some.inj hp).symm))]
      · have hpo : p ≠ o := fun hpo => by rw [hpo, update_self] at hp; cases hp
        rwa [update_of_ne hpo] at hp
  · intro p q other hp hq
    have hne : ∀ r, update held o none r = some other → held r = some other := by
      intro r hr
      by_cases hro : r = o
      · rw [hro, update_self] at hr
        cases hr
      · rwa [update_of_ne hro] at hr
    exact h.unique p q other (hne p hp) (hne q hq)
  · rw [Finset.mem_erase, hids]
    by_cases heq : other = bufferId
    · simp [heq]
    · simp [heq]
  · rw [Finset.card_erase_of_mem hmem, hcard]
  · have htotal := h.total
    simp only [List.length_append, List.length_singleton]
    omega

theorem reset (h : Exact pool cqes held) {o : ω} {buffer : UringBuffer} (ho : held o = buffer.lease) :
    ∃ buffer' pool', buffer.reset pool = .ok (buffer', pool') ∧ buffer'.lease = none ∧ pool'.config = pool.config ∧
      Exact pool' cqes (update held o none) := by
  cases hpool : buffer.pool with
  | false =>
      have hlease : buffer.lease = none := by rw [UringBuffer.lease, hpool]; rfl
      have hheld : update held o none = held := update_eq_self_iff.mpr (hlease.symm.trans ho.symm)
      exact ⟨buffer, pool, by rw [UringBuffer.reset, hpool]; rfl, hlease, rfl, hheld.symm ▸ h⟩
  | true =>
      have hlease : buffer.lease = some buffer.bufferId := by rw [UringBuffer.lease, hpool]; rfl
      obtain ⟨pool', hrelease, hconfig, hexact⟩ := h.release (ho.trans hlease)
      exact ⟨_, pool', by rw [UringBuffer.reset, hpool, if_pos rfl, hrelease]; rfl, rfl, hconfig, hexact⟩

/-- 移動代入は、古い番号を返してから新しい番号を受け取る。 -/
theorem moveAssign (h : Exact pool cqes held) {o other : ω} (hne : o ≠ other) {buffer source : UringBuffer}
    (ho : held o = buffer.lease) (hother : held other = source.lease) :
    ∃ buffer' pool', buffer.moveAssign source pool = .ok (buffer', pool') ∧ buffer'.lease = source.lease ∧
      pool'.config = pool.config ∧ Exact pool' cqes (update (update held other none) o source.lease) := by
  obtain ⟨buffer', pool', hreset, -, hconfig, hexact⟩ := h.reset ho
  refine ⟨_, pool', by rw [UringBuffer.moveAssign, hreset]; rfl, rfl, hconfig, ?_⟩
  have hmove := hexact.move hne (update_self ..)
  rwa [update_of_ne hne.symm, hother, update_comm hne, update_idem] at hmove

end Exact

/-! ## 実行 -/

namespace LeaseState

variable {config : UringBufferPoolConfig} {s : LeaseState ω}

theorem holding_of_buffers {o : ω} {buffer : Option UringBuffer} (h : s.buffers o = buffer) :
    s.holding o = buffer.bind UringBuffer.lease := by
  rw [holding, leases, h]

variable [DecidableEq ω]

@[simp] theorem leases_update (buffers : ω → Option UringBuffer) (o : ω) (buffer : Option UringBuffer) :
    leases (update buffers o buffer) = update (leases buffers) o (buffer.bind UringBuffer.lease) := by
  funext p
  by_cases hpo : p = o
  · subst hpo
    simp [leases]
  · simp [leases, update_of_ne hpo]

/-- 貸し借りは正確で、`Abort` していない。 -/
structure Sound (config : UringBufferPoolConfig) (s : LeaseState ω) : Prop where
  running : s.aborted = none
  config_eq : s.pool.config = config
  exact : Exact s.pool s.cqes s.holding

namespace Sound

theorem init (h : (bufferLeases ω config).init s) : Sound config s := by
  obtain ⟨hregister, hcqes, hbuffers, haborted⟩ := h
  have hconfig : s.pool.config = config := by
    obtain ⟨-, hpool⟩ := UringProvidedBufferPool.eq_of_register hregister
    rw [hpool]
  refine ⟨haborted, hconfig, ?_⟩
  have hholding : s.holding = fun _ => none := by
    funext o
    rw [holding, leases, hbuffers]
    rfl
  rw [hcqes, hholding]
  exact .of_register hregister

/-- 番地の値を、借りていない値に置き換える。 -/
theorem setEmpty (h : Sound config s) {o : ω} (ho : s.holding o = none) {buffer : Option UringBuffer}
    (hbuffer : buffer.bind UringBuffer.lease = none) :
    Sound config { s with buffers := update s.buffers o buffer } := by
  have hleases : update (leases s.buffers) o none = leases s.buffers := update_eq_self_iff.mpr ho.symm
  refine ⟨h.running, h.config_eq, ?_⟩
  rw [holding, leases_update, hbuffer, hleases]
  exact h.exact

theorem resetAt (h : Sound config s) {o : ω} {buffer : UringBuffer} (ho : s.buffers o = some buffer) :
    Sound config (s.resetAt o buffer) ∧
      ∃ buffer', buffer'.lease = none ∧ (s.resetAt o buffer).buffers = update s.buffers o (some buffer') := by
  obtain ⟨buffer', pool', hreset, hlease, hconfig, hexact⟩ := h.exact.reset (holding_of_buffers ho)
  rw [LeaseState.resetAt, hreset]
  refine ⟨⟨h.running, hconfig.trans h.config_eq, ?_⟩, buffer', hlease, rfl⟩
  rw [resume, holding, leases_update, Option.bind_some, hlease]
  exact hexact

theorem construct (h : Sound config s) {o : ω} (hfree : s.buffers o = none) :
    Sound config (s.next (.construct o)) ∧ (s.next (.construct o)).buffers = update s.buffers o (some {}) :=
  ⟨h.setEmpty (holding_of_buffers hfree) rfl, rfl⟩

theorem acquire (h : Sound config s) {o : ω} {cqe : ProvidedCqe} (hfree : s.buffers o = none) (hmem : cqe ∈ s.cqes) :
    Sound config (s.next (.acquire o cqe)) ∧ ∃ buffer, buffer.lease = some cqe.bufferId ∧
      (s.next (.acquire o cqe)).buffers = update s.buffers o (some buffer) := by
  obtain ⟨buffer, pool', hacquire, hlease, hconfig, hexact⟩ := h.exact.acquire hmem (holding_of_buffers hfree)
  rw [LeaseState.next, hacquire]
  refine ⟨⟨h.running, hconfig.trans h.config_eq, ?_⟩, buffer, hlease, rfl⟩
  rw [resume, holding, leases_update, Option.bind_some, hlease]
  exact hexact

theorem moveConstruct (h : Sound config s) {o other : ω} (hfree : s.buffers o = none) {source : UringBuffer}
    (hsource : s.buffers other = some source) :
    Sound config (s.next (.moveConstruct o other)) ∧ (s.next (.moveConstruct o other)).buffers =
      update (update s.buffers other (some source.moved)) o (some source) := by
  have hne : o ≠ other := fun heq => by rw [heq, hsource] at hfree; cases hfree
  have hmove := h.exact.move hne (holding_of_buffers hfree)
  rw [holding_of_buffers hsource] at hmove
  rw [LeaseState.next, hsource]
  refine ⟨⟨h.running, h.config_eq, ?_⟩, rfl⟩
  rw [holding, leases_update, leases_update]
  exact hmove

theorem moveAssign (h : Sound config s) {o other : ω} (hne : o ≠ other) {buffer source : UringBuffer}
    (hbuffer : s.buffers o = some buffer) (hsource : s.buffers other = some source) :
    Sound config (s.next (.moveAssign o other)) ∧ ∃ buffer', buffer'.lease = source.lease ∧
      (s.next (.moveAssign o other)).buffers =
        update (update s.buffers other (some source.moved)) o (some buffer') := by
  obtain ⟨buffer', pool', hassign, hlease, hconfig, hexact⟩ :=
    h.exact.moveAssign hne (holding_of_buffers hbuffer) (holding_of_buffers hsource)
  rw [LeaseState.next, if_neg hne, hbuffer, hsource]
  simp only [hassign]
  refine ⟨⟨h.running, hconfig.trans h.config_eq, ?_⟩, buffer', hlease, rfl⟩
  rw [resume, holding, leases_update, leases_update, Option.bind_some, Option.bind_some, hlease]
  exact hexact

theorem destroy (h : Sound config s) {o : ω} {buffer : UringBuffer} (hbuffer : s.buffers o = some buffer) :
    Sound config (s.next (.destroy o)) ∧ (s.next (.destroy o)).buffers = update s.buffers o none := by
  obtain ⟨hsound, buffer', hlease, hbuffers⟩ := h.resetAt hbuffer
  rw [LeaseState.next, hbuffer]
  refine ⟨hsound.setEmpty ?_ rfl, ?_⟩
  · rw [holding, hbuffers, leases_update, update_self]
    exact hlease
  · show update (s.resetAt o buffer).buffers o none = update s.buffers o none
    rw [hbuffers, update_idem]

theorem next (h : Sound config s) {a : LeaseAct ω} (ha : s.enabled a) : Sound config (s.next a) := by
  cases a with
  | select bufferId res => exact ⟨h.running, h.config_eq, h.exact.select ha.1 ha.2⟩
  | acquire o cqe => exact (h.acquire ha.1 ha.2).1
  | construct o => exact (h.construct ha).1
  | moveConstruct o other =>
      obtain ⟨source, hsource⟩ := Option.isSome_iff_exists.mp ha.2
      exact (h.moveConstruct ha.1 hsource).1
  | moveAssign o other =>
      obtain ⟨buffer, hbuffer⟩ := Option.isSome_iff_exists.mp ha.1
      obtain ⟨source, hsource⟩ := Option.isSome_iff_exists.mp ha.2
      by_cases hne : o = other
      · rw [LeaseState.next, if_pos hne]
        exact h
      · exact (h.moveAssign hne hbuffer hsource).1
  | reset o =>
      obtain ⟨buffer, hbuffer⟩ := Option.isSome_iff_exists.mp ha
      rw [LeaseState.next, hbuffer]
      exact (h.resetAt hbuffer).1
  | destroy o =>
      obtain ⟨buffer, hbuffer⟩ := Option.isSome_iff_exists.mp ha
      exact (h.destroy hbuffer).1

/-! ## 置かれる所の一意性 -/

/-- 番号が `place` にある回数。 -/
def copies (s : LeaseState ω) (bufferId : UInt16) : BufferPlace → Nat
  | .offered => s.pool.bufferRing.count bufferId
  | .selected => (s.cqes.map ProvidedCqe.bufferId).count bufferId
  | .held => (s.pool.leased bufferId).toNat

omit [DecidableEq ω] in
theorem at_iff (h : Sound config s) (bufferId : UInt16) (place : BufferPlace) :
    s.At bufferId place ↔ 0 < copies s bufferId place := by
  cases place with
  | offered => exact List.count_pos_iff.symm
  | selected => rw [copies, List.count_pos_iff, List.mem_map]; rfl
  | held =>
      refine (h.exact.leased bufferId).symm.trans ?_
      cases hleased : s.pool.leased bufferId <;> simp [copies, hleased]

omit [DecidableEq ω] in
theorem copies_le (h : Sound config s) (bufferId : UInt16) (place : BufferPlace) : copies s bufferId place ≤ 1 := by
  have hplace := h.exact.place bufferId
  cases place <;> simp only [copies] <;> split at hplace <;> omega

omit [DecidableEq ω] in
theorem existsUnique_place (h : Sound config s) {bufferId : UInt16} (hid : bufferId.toNat < config.bufferCount.toNat) :
    ∃! place, s.At bufferId place := by
  have hplace : copies s bufferId .offered + copies s bufferId .selected + copies s bufferId .held = 1 := by
    have hplace := h.exact.place bufferId
    rwa [h.config_eq, if_pos hid] at hplace
  obtain ⟨place, hpos⟩ : ∃ place, 0 < copies s bufferId place := by
    by_contra hnone
    have hzero : ∀ place, copies s bufferId place = 0 := fun place =>
      Nat.eq_zero_of_not_pos fun hpos => hnone ⟨place, hpos⟩
    rw [hzero, hzero, hzero] at hplace
    cases hplace
  refine ⟨place, (h.at_iff bufferId place).mpr hpos, fun other hother => ?_⟩
  have hother' := (h.at_iff bufferId other).mp hother
  cases place <;> cases other <;> first | rfl | omega

omit [DecidableEq ω] in
theorem not_at_of_le (h : Sound config s) {bufferId : UInt16} (hid : config.bufferCount.toNat ≤ bufferId.toNat)
    (place : BufferPlace) : ¬ s.At bufferId place := by
  have hplace := h.exact.place bufferId
  rw [h.config_eq, if_neg hid.not_gt] at hplace
  rw [h.at_iff]
  cases place <;> simp only [copies] <;> omega

omit [DecidableEq ω] in
theorem outstandingLeases_eq (h : Sound config s) :
    s.pool.outstandingLeases = {bufferId | s.At bufferId .held}.ncard := by
  obtain ⟨ids, hids, hcard⟩ := h.exact.counted
  have hset : {bufferId | s.At bufferId .held} = ids := by
    ext bufferId
    exact (h.exact.leased bufferId).symm.trans (hids bufferId).symm
  rw [hset, Set.ncard_coe_finset, hcard]

/-! ## 受信の完了 -/

theorem exec_cons (h : Sound config s) {a : LeaseAct ω} (ha : s.enabled a) (rest : List (LeaseAct ω)) :
    (bufferLeases ω config).exec s (a :: rest) = (bufferLeases ω config).exec (s.next a) rest := by
  rw [Machine.exec, if_pos ⟨h.running, ha⟩]
  rfl

/-- 受信の完了は、選ばれたバッファを結果の置き場に移す。 -/
theorem exec_processAwaitableCqe (h : Sound config s) {cqe : ProvidedCqe} (hmem : cqe ∈ s.cqes) {result temporary : ω}
    {old : UringBuffer} (hresult : s.buffers result = some old) (htemporary : s.buffers temporary = none) :
    ∃ s' stored, (bufferLeases ω config).exec s (processAwaitableCqe result temporary cqe) = some s' ∧ Sound config s' ∧
      stored.lease = some cqe.bufferId ∧ s'.buffers = update s.buffers result (some stored) := by
  have hne : result ≠ temporary := fun heq => by rw [heq, htemporary] at hresult; cases hresult
  obtain ⟨h₁, buffer, hlease, hb₁⟩ := h.acquire htemporary hmem
  have hresult₁ : (s.next (.acquire temporary cqe)).buffers result = some old := by rw [hb₁, update_of_ne hne, hresult]
  have htemporary₁ : (s.next (.acquire temporary cqe)).buffers temporary = some buffer := by rw [hb₁, update_self]
  obtain ⟨h₂, stored, hstored, hb₂⟩ := h₁.moveAssign hne hresult₁ htemporary₁
  have htemporary₂ : ((s.next (.acquire temporary cqe)).next (.moveAssign result temporary)).buffers temporary =
      some buffer.moved := by
    rw [hb₂, update_of_ne hne.symm, update_self]
  obtain ⟨h₃, hb₃⟩ := h₂.destroy htemporary₂
  have ha₁ : s.enabled (.acquire temporary cqe) := ⟨htemporary, hmem⟩
  have ha₂ : (s.next (.acquire temporary cqe)).enabled (.moveAssign result temporary) :=
    ⟨by rw [hresult₁]; rfl, by rw [htemporary₁]; rfl⟩
  have ha₃ : ((s.next (.acquire temporary cqe)).next (.moveAssign result temporary)).enabled (.destroy temporary) := by
    rw [enabled, htemporary₂]; rfl
  refine ⟨_, stored, ?_, h₃, hstored.trans hlease, ?_⟩
  · rw [processAwaitableCqe, h.exec_cons ha₁, h₁.exec_cons ha₂, h₂.exec_cons ha₃]
    rfl
  · have hself : update s.buffers temporary none = s.buffers := update_eq_self_iff.mpr htemporary.symm
    rw [hb₃, hb₂, hb₁, update_idem, update_comm hne.symm, update_idem, update_comm hne, hself]

/-- `await_resume` は、置き場のバッファを返す値に移し、置き場を空にする。 -/
theorem exec_awaitResume (h : Sound config s) {result returned temporary : ω} {stored : UringBuffer}
    (hresult : s.buffers result = some stored) (hreturned : s.buffers returned = none)
    (htemporary : s.buffers temporary = none) (hne : returned ≠ temporary) :
    ∃ s', (bufferLeases ω config).exec s (awaitResume result returned temporary) = some s' ∧ Sound config s' ∧
      s'.holding returned = stored.lease ∧ s'.holding result = none ∧ s'.buffers temporary = none := by
  have hrt : result ≠ temporary := fun heq => by rw [heq, htemporary] at hresult; cases hresult
  have hrr : result ≠ returned := fun heq => by rw [heq, hreturned] at hresult; cases hresult
  obtain ⟨h₁, hb₁⟩ := h.construct htemporary
  have hreturned₁ : (s.next (.construct temporary)).buffers returned = none := by rw [hb₁, update_of_ne hne, hreturned]
  have hresult₁ : (s.next (.construct temporary)).buffers result = some stored := by rw [hb₁, update_of_ne hrt, hresult]
  obtain ⟨h₂, hb₂⟩ := h₁.moveConstruct hreturned₁ hresult₁
  have hresult₂ : ((s.next (.construct temporary)).next (.moveConstruct returned result)).buffers result =
      some stored.moved := by
    rw [hb₂, update_of_ne hrr, update_self]
  have htemporary₂ : ((s.next (.construct temporary)).next (.moveConstruct returned result)).buffers temporary = some {} := by
    rw [hb₂, update_of_ne hne.symm, update_of_ne hrt.symm, hb₁, update_self]
  obtain ⟨h₃, emptied, hemptied, hb₃⟩ := h₂.moveAssign hrt hresult₂ htemporary₂
  have htemporary₃ : (((s.next (.construct temporary)).next (.moveConstruct returned result)).next
      (.moveAssign result temporary)).buffers temporary = some (UringBuffer.moved {}) := by
    rw [hb₃, update_of_ne hrt.symm, update_self]
  obtain ⟨h₄, hb₄⟩ := h₃.destroy htemporary₃
  have ha₁ : s.enabled (.construct temporary) := htemporary
  have ha₂ : (s.next (.construct temporary)).enabled (.moveConstruct returned result) :=
    ⟨hreturned₁, by rw [hresult₁]; rfl⟩
  have ha₃ : ((s.next (.construct temporary)).next (.moveConstruct returned result)).enabled
      (.moveAssign result temporary) := ⟨by rw [hresult₂]; rfl, by rw [htemporary₂]; rfl⟩
  have ha₄ : (((s.next (.construct temporary)).next (.moveConstruct returned result)).next
      (.moveAssign result temporary)).enabled (.destroy temporary) := by rw [enabled, htemporary₃]; rfl
  refine ⟨_, ?_, h₄, ?_, ?_, ?_⟩
  · rw [awaitResume, h.exec_cons ha₁, h₁.exec_cons ha₂, h₂.exec_cons ha₃, h₃.exec_cons ha₄]
    rfl
  · rw [holding, hb₄, hb₃, hb₂]
    simp [update_of_ne hne, update_of_ne hrr.symm]
  · rw [holding, hb₄, hb₃]
    simp only [leases_update, update_of_ne hrt, update_self]
    exact hemptied
  · rw [hb₄, update_self]

/-- 受信の完了を処理する手順 `processAwaitableCqe` と `awaitResume` は、遷移系の実行である。選ばれたバッファは、`Abort` せずに、
`await_resume` の返す値に渡る。 -/
theorem exec_deliver (h : Sound config s) {cqe : ProvidedCqe} (hmem : cqe ∈ s.cqes) {result returned temporary : ω}
    {old : UringBuffer} (hresult : s.buffers result = some old) (hreturned : s.buffers returned = none)
    (htemporary : s.buffers temporary = none) (hne : returned ≠ temporary) :
    ∃ s', (bufferLeases ω config).exec s
        (processAwaitableCqe result temporary cqe ++ awaitResume result returned temporary) = some s' ∧ Sound config s' ∧
      s'.holding returned = some cqe.bufferId ∧ s'.holding result = none ∧ s'.buffers temporary = none := by
  have hrt : result ≠ temporary := fun heq => by rw [heq, htemporary] at hresult; cases hresult
  have hrr : result ≠ returned := fun heq => by rw [heq, hreturned] at hresult; cases hresult
  obtain ⟨s₁, stored, hexec₁, h₁, hstored, hb₁⟩ := h.exec_processAwaitableCqe hmem hresult htemporary
  obtain ⟨s₂, hexec₂, h₂, hholding, hempty, hfree⟩ := h₁.exec_awaitResume
    (by rw [hb₁, update_self]) (by rw [hb₁, update_of_ne hrr.symm, hreturned])
    (by rw [hb₁, update_of_ne hrt.symm, htemporary]) hne
  refine ⟨s₂, ?_, h₂, hholding.trans hstored, hempty, hfree⟩
  rw [Machine.exec_append, hexec₁]
  exact hexec₂

end Sound

theorem reachable_sound (h : (bufferLeases ω config).Reachable s) : Sound config s :=
  h.invariant (I := Sound config) (fun _ => .init) (fun _ _ _ hs ha _ => hs.next ha.2)

end LeaseState

end Xrpc.Io
