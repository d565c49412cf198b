import Xrpc.Lib.Sums
import Xrpc.Server.ConnectionIoLoop
import Xrpc.Server.Lemmas.ConnectionLater

/-!
# 接続の表の不変条件
-/

namespace Xrpc.Server

namespace ServerConnection

variable {cfg : ServerConnectionConfig} {others liveOthers : Nat} {c : ServerConnection}

/-- 持ち主の数と例外の決まりを借り直す。 -/
theorem ConnectionInv.lend (h : ConnectionInv cfg others liveOthers c) (others' liveOthers' : Nat) (faults : Faults) :
    ConnectionInv cfg others' liveOthers'
      { c with
        core := { c.core with
          ownerPendingWriteBytes := others' + c.core.pendingWriteBytes
          ownerLiveConnections := liveOthers' + if c.core.notified then 0 else 1
          faults := faults } } where
  write := { h.write with owner := rfl, live := rfl }
  resting := h.resting
  stream := h.stream
  requests := { h.requests with }
  started := h.started
  busy := h.busy
  fits := h.fits

end ServerConnection

namespace ConnectionIoLoop
open Xrpc.Lib Xrpc.Protocol Function ServerConnection

variable {cfg : ServerConnectionConfig} {s : ConnectionIoLoop} {n : Nat}

/-- 実体が抱えるバイト数の和。 -/
def totalWriteBytes (created : Nat) (objects : Nat → ServerConnection) : Nat :=
  ((List.range created).map fun n => (objects n).core.pendingWriteBytes).sum

/-- `on_closed_` がまだ呼ばれていない実体の数。 -/
def unnotifiedConnections (created : Nat) (objects : Nat → ServerConnection) : Nat :=
  ((List.range created).map fun n => if (objects n).core.notified then 0 else 1).sum

/-- 実体と表と数の間に成り立つこと。 -/
structure LoopInv (cfg : ServerConnectionConfig) (s : ConnectionIoLoop) : Prop where
  objects : ∀ n < s.created, ∃ others liveOthers, ConnectionInv cfg others liveOthers (s.objects n)
  ids : ∀ n < s.created, (s.objects n).connectionId.toNat = n + 1
  nextId : s.nextConnectionId.toNat = (s.created + 1) % 2 ^ 64
  bound : s.created < 2 ^ 64
  entries : ∀ entry ∈ s.connections, entry.2 < s.created ∧ (s.objects entry.2).connectionId = entry.1
  serials : (s.connections.map Prod.snd).Nodup
  listed : ∀ n < s.created, (s.objects n).core.state ≠ .closed → n ∈ s.connections.map Prod.snd
  kept : ∀ entry ∈ s.connections, (s.objects entry.2).discarded = []
  writes : s.pendingWriteBytes = totalWriteBytes s.created s.objects
  live : s.liveConnections = unnotifiedConnections s.created s.objects

theorem totalWriteBytes_update {created : Nat} (hn : n < created) (objects : Nat → ServerConnection)
    (c : ServerConnection) :
    totalWriteBytes created (update objects n c) + (objects n).core.pendingWriteBytes =
      totalWriteBytes created objects + c.core.pendingWriteBytes := by
  have h := sum_map_change (f := fun m => (objects m).core.pendingWriteBytes)
    (g := fun m => (update objects n c m).core.pendingWriteBytes) List.nodup_range (List.mem_range.mpr hn)
    fun m hmn => by rw [update_of_ne hmn]
  rwa [update_self] at h

theorem unnotifiedConnections_update {created : Nat} (hn : n < created) (objects : Nat → ServerConnection)
    (c : ServerConnection) :
    unnotifiedConnections created (update objects n c) + (if (objects n).core.notified then 0 else 1) =
      unnotifiedConnections created objects + if c.core.notified then 0 else 1 := by
  have h := sum_map_change (f := fun m => if (objects m).core.notified then 0 else 1)
    (g := fun m => if (update objects n c m).core.notified then 0 else 1) List.nodup_range (List.mem_range.mpr hn)
    fun m hmn => by rw [update_of_ne hmn]
  rwa [update_self] at h

namespace LoopInv

/-- 一つの実体が変わり、二つの数が同じだけ変わる。 -/
theorem setObject (h : LoopInv cfg s) (hn : n < s.created) {c : ServerConnection} {pendingWriteBytes liveConnections : Nat}
    {aborted : Bool}
    (hc : ∃ others liveOthers, ConnectionInv cfg others liveOthers c)
    (hid : c.connectionId = (s.objects n).connectionId)
    (hforward : (s.objects n).core.state.rank ≤ c.core.state.rank)
    (hkept : (∃ entry ∈ s.connections, entry.2 = n) → c.discarded = [])
    (hwrites : pendingWriteBytes + (s.objects n).core.pendingWriteBytes =
      s.pendingWriteBytes + c.core.pendingWriteBytes)
    (hlive : liveConnections + (if (s.objects n).core.notified then 0 else 1) =
      s.liveConnections + if c.core.notified then 0 else 1) :
    LoopInv cfg
      { s with
        objects := update s.objects n c
        pendingWriteBytes := pendingWriteBytes
        liveConnections := liveConnections
        aborted := aborted } := by
  have hidAt : ∀ m, (update s.objects n c m).connectionId = (s.objects m).connectionId := by
    intro m
    by_cases hmn : m = n
    · rw [hmn, update_self, hid]
    · rw [update_of_ne hmn]
  exact { h with
    objects := fun m hm => by
      by_cases hmn : m = n
      · rw [hmn]
        show ∃ others liveOthers, ConnectionInv cfg others liveOthers (update s.objects n c n)
        rw [update_self]
        exact hc
      · show ∃ others liveOthers, ConnectionInv cfg others liveOthers (update s.objects n c m)
        rw [update_of_ne hmn]
        exact h.objects m hm
    ids := fun m hm => (congrArg UInt64.toNat (hidAt m)).trans (h.ids m hm)
    entries := fun entry hentry => ⟨(h.entries entry hentry).1, (hidAt entry.2).trans (h.entries entry hentry).2⟩
    listed := fun m hm hopen => by
      refine h.listed m hm fun hclosed => hopen ?_
      show (update s.objects n c m).core.state = .closed
      by_cases hmn : m = n
      · rw [hmn] at hclosed
        rw [hmn, update_self]
        exact ConnectionCore.closed_of_rank_le (hclosed ▸ hforward)
      · rw [update_of_ne hmn, hclosed]
    kept := fun entry hentry => by
      show (update s.objects n c entry.2).discarded = []
      by_cases hmn : entry.2 = n
      · rw [hmn, update_self]
        exact hkept ⟨entry, hentry, hmn⟩
      · rw [update_of_ne hmn]
        exact h.kept entry hentry
    writes := by
      have := totalWriteBytes_update hn s.objects c
      have := h.writes
      show pendingWriteBytes = totalWriteBytes s.created (update s.objects n c)
      omega
    live := by
      have := unnotifiedConnections_update hn s.objects c
      have := h.live
      show liveConnections = unnotifiedConnections s.created (update s.objects n c)
      omega }

/-- 一つの実体の歩み。 -/
theorem runOn (h : LoopInv cfg s) (hn : n < s.created) {f : ServerConnection → ServerConnection}
    (hf : ∀ others liveOthers, ConnectionInv cfg others liveOthers (s.lend n) →
      ConnectionInv cfg others liveOthers (f (s.lend n)))
    (hlater : Later (s.lend n) (f (s.lend n))) : LoopInv cfg (s.runOn n f) := by
  obtain ⟨_, _, hobject⟩ := h.objects n hn
  have hmem : n ∈ List.range s.created := List.mem_range.mpr hn
  have hwrites : (s.objects n).core.pendingWriteBytes ≤ s.pendingWriteBytes := by
    rw [h.writes]
    exact le_sum_map (f := fun m => (s.objects m).core.pendingWriteBytes) hmem
  have hlive : (if (s.objects n).core.notified then 0 else 1) ≤ s.liveConnections := by
    rw [h.live]
    exact le_sum_map (f := fun m => if (s.objects m).core.notified then 0 else 1) hmem
  have hlend := hobject.lend (s.pendingWriteBytes - (s.objects n).core.pendingWriteBytes)
    (s.liveConnections - if (s.objects n).core.notified then 0 else 1) s.faults
  rw [Nat.sub_add_cancel hwrites, Nat.sub_add_cancel hlive] at hlend
  have hnew := hf _ _ hlend
  have howner := hnew.write.owner
  have hcount := hnew.write.live
  refine h.setObject hn ⟨_, _, hnew⟩ hlater.connectionId hlater.forward ?_ (by omega) (by omega)
  rintro ⟨entry, hentry, rfl⟩
  exact hlater.discarded.trans (h.kept entry hentry)

/-- 書き込みの側に触れない変化。 -/
theorem modify (h : LoopInv cfg s) (hn : n < s.created) {f : ServerConnection → ServerConnection}
    (hf : ∀ others liveOthers, ConnectionInv cfg others liveOthers (s.objects n) →
      ConnectionInv cfg others liveOthers (f (s.objects n)))
    (hcore : (f (s.objects n)).core = (s.objects n).core)
    (hid : (f (s.objects n)).connectionId = (s.objects n).connectionId)
    (hkept : (∃ entry ∈ s.connections, entry.2 = n) → (f (s.objects n)).discarded = []) :
    LoopInv cfg (s.modify n f) := by
  obtain ⟨others, liveOthers, hobject⟩ := h.objects n hn
  exact h.setObject hn ⟨others, liveOthers, hf _ _ hobject⟩ hid (by rw [hcore]) hkept (by rw [hcore]) (by rw [hcore])

theorem collectClosedConnections (h : LoopInv cfg s) : LoopInv cfg s.collectClosedConnections := by
  have hsub : (s.collectClosedConnections.connections).Sublist s.connections := List.filter_sublist
  exact { h with
    entries := fun entry hentry => h.entries entry (hsub.subset hentry)
    serials := h.serials.sublist (hsub.map _)
    listed := fun m hm hopen => by
      obtain ⟨entry, hentry, rfl⟩ := List.mem_map.mp (h.listed m hm hopen)
      refine List.mem_map.mpr ⟨entry, List.mem_filter.mpr ⟨hentry, ?_⟩, rfl⟩
      have hstate : (s.objects entry.2).core.state ≠ .closed := hopen
      simp [canBeCollected, hstate]
    kept := fun entry hentry => h.kept entry (hsub.subset hentry) }

/-- 表の番号は、実体の通し番号を決める。 -/
theorem lookup_eq (h : LoopInv cfg s) (hn : n < s.created) {m : Nat}
    (hlookup : s.connections.lookup (s.objects n).connectionId = some m) : m = n := by
  obtain ⟨before, after, hsplit, _⟩ := List.lookup_eq_some_iff.mp hlookup
  obtain ⟨hm, hid⟩ := h.entries _ (by rw [hsplit]; exact List.mem_append_right _ List.mem_cons_self)
  have := h.ids n hn
  have := h.ids m hm
  rw [show (s.objects m).connectionId = (s.objects n).connectionId from hid] at this
  omega

theorem not_listed_of_lookup (h : LoopInv cfg s)
    (hlookup : s.connections.lookup (s.objects n).connectionId = none) : ¬ ∃ entry ∈ s.connections, entry.2 = n := by
  rintro ⟨entry, hentry, rfl⟩
  have hne := List.lookup_eq_none_iff.mp hlookup entry hentry
  rw [(h.entries entry hentry).2] at hne
  simp at hne

/-- 表にない実体の分が零なら、表の上の和は、すべての実体の上の和である。 -/
theorem sum_connections (h : LoopInv cfg s) {f : ServerConnection → Nat}
    (hclosed : ∀ n < s.created, (s.objects n).core.state = .closed → f (s.objects n) = 0) :
    (s.connections.map fun entry => f (s.objects entry.2)).sum =
      ((List.range s.created).map fun n => f (s.objects n)).sum := by
  rw [← sum_map_subset (f := fun n => f (s.objects n)) h.serials List.nodup_range ?_ ?_, List.map_map]
  · rfl
  · intro n hn
    obtain ⟨entry, hentry, rfl⟩ := List.mem_map.mp hn
    exact List.mem_range.mpr (h.entries entry hentry).1
  · intro n hn hunlisted
    by_contra hne
    exact hunlisted (h.listed n (List.mem_range.mp hn) fun hstate => hne (hclosed n (List.mem_range.mp hn) hstate))

/-- 新しい番号の実体が加わる。 -/
theorem addObject (h : LoopInv cfg s) (hzero : s.nextConnectionId ≠ 0) {c : ServerConnection}
    (hc : ConnectionInv cfg s.pendingWriteBytes s.liveConnections c) (hid : c.connectionId = s.nextConnectionId)
    (hdiscarded : c.discarded = []) (aborted : Bool) :
    LoopInv cfg
      { s with
        nextConnectionId := s.nextConnectionId + 1
        connections := (s.nextConnectionId, s.created) :: s.connections
        created := s.created + 1
        objects := update s.objects s.created c
        pendingWriteBytes := c.core.ownerPendingWriteBytes
        liveConnections := c.core.ownerLiveConnections
        aborted := aborted } := by
  have hbound := h.bound
  have hnextId := h.nextId
  have hne : s.nextConnectionId.toNat ≠ 0 := fun hnat => hzero (UInt64.toNat_inj.mp hnat)
  have hnew : s.nextConnectionId.toNat = s.created + 1 := by
    rw [hnextId] at hne ⊢
    exact Nat.mod_eq_of_lt (by omega)
  have hlt : s.created + 1 < 2 ^ 64 := hnew ▸ s.nextConnectionId.toNat_lt
  have hold : ∀ m < s.created, update s.objects s.created c m = s.objects m := fun m hm =>
    update_of_ne (Nat.ne_of_lt hm) _ _
  have hsum : ∀ (g : ServerConnection → Nat), ((List.range (s.created + 1)).map fun m =>
      g (update s.objects s.created c m)).sum = ((List.range s.created).map fun m => g (s.objects m)).sum + g c := by
    intro g
    rw [List.range_succ, List.map_append, List.sum_append, List.map_singleton, List.sum_singleton, update_self,
      List.map_congr_left fun m hm => by rw [hold m (List.mem_range.mp hm)]]
  constructor
  · intro m hm
    rcases Nat.lt_succ_iff_lt_or_eq.mp hm with hm | rfl
    · dsimp only
      rw [hold m hm]
      exact h.objects m hm
    · dsimp only
      rw [update_self]
      exact ⟨_, _, hc⟩
  · intro m hm
    rcases Nat.lt_succ_iff_lt_or_eq.mp hm with hm | rfl
    · dsimp only
      rw [hold m hm]
      exact h.ids m hm
    · dsimp only
      rw [update_self, hid, hnew]
  · dsimp only
    rw [UInt64.toNat_add, hnew]
    rfl
  · exact hlt
  · intro entry hentry
    rcases List.mem_cons.mp hentry with rfl | hentry
    · exact ⟨Nat.lt_succ_self _, by dsimp only; rw [update_self, hid]⟩
    · obtain ⟨hlt', heq⟩ := h.entries entry hentry
      exact ⟨Nat.lt_succ_of_lt hlt', by dsimp only; rw [hold _ hlt', heq]⟩
  · rw [List.map_cons, List.nodup_cons]
    refine ⟨fun hmem => ?_, h.serials⟩
    obtain ⟨entry, hentry, heq⟩ := List.mem_map.mp hmem
    exact absurd (h.entries entry hentry).1 (by omega)
  · intro m hm hopen
    rcases Nat.lt_succ_iff_lt_or_eq.mp hm with hm | rfl
    · dsimp only at hopen
      rw [hold m hm] at hopen
      exact List.mem_cons_of_mem _ (h.listed m hm hopen)
    · exact List.mem_cons_self
  · intro entry hentry
    rcases List.mem_cons.mp hentry with rfl | hentry
    · dsimp only
      rw [update_self, hdiscarded]
    · dsimp only
      rw [hold _ (h.entries entry hentry).1]
      exact h.kept entry hentry
  · show c.core.ownerPendingWriteBytes = totalWriteBytes (s.created + 1) (update s.objects s.created c)
    rw [hc.write.owner, h.writes]
    exact (hsum fun c => c.core.pendingWriteBytes).symm
  · show c.core.ownerLiveConnections = unnotifiedConnections (s.created + 1) (update s.objects s.created c)
    rw [hc.write.live, h.live]
    exact (hsum fun c => if c.core.notified then 0 else 1).symm

end LoopInv

/-! ## 一つの動作 -/

/-- 一つの動作の前と後。実体は減らず、どの実体も先へ進む。 -/
structure Advance (cfg : ServerConnectionConfig) (s s' : ConnectionIoLoop) : Prop where
  inv : LoopInv cfg s'
  created : s.created ≤ s'.created
  progress : ∀ n < s.created, Progress (s.objects n) (s'.objects n)

namespace Advance

variable {s' s'' : ConnectionIoLoop}

theorem of_objects (h : LoopInv cfg s') (hcreated : s'.created = s.created) (hobjects : s'.objects = s.objects) :
    Advance cfg s s' :=
  ⟨h, hcreated.ge, fun _ _ => hobjects ▸ .refl⟩

theorem trans (h : Advance cfg s s') (h' : Advance cfg s' s'') : Advance cfg s s'' :=
  ⟨h'.inv, h.created.trans h'.created, fun n hn => (h.progress n hn).trans (h'.progress n (hn.trans_le h.created))⟩

end Advance

namespace LoopInv

theorem advance_runOn (h : LoopInv cfg s) (hn : n < s.created) {f : ServerConnection → ServerConnection}
    (hf : ∀ others liveOthers, ConnectionInv cfg others liveOthers (s.lend n) →
      ConnectionInv cfg others liveOthers (f (s.lend n)))
    (hlater : Later (s.lend n) (f (s.lend n))) : Advance cfg s (s.runOn n f) := by
  refine ⟨h.runOn hn hf hlater, Nat.le_refl _, fun m _ => ?_⟩
  show Progress (s.objects m) (update s.objects n (f (s.lend n)) m)
  by_cases hmn : m = n
  · subst hmn
    rw [update_self]
    exact ⟨hlater.forward, hlater.silent⟩
  · rw [update_of_ne hmn]
    exact .refl

theorem advance_modify (h : LoopInv cfg s) (hn : n < s.created) {f : ServerConnection → ServerConnection}
    (hf : ∀ others liveOthers, ConnectionInv cfg others liveOthers (s.objects n) →
      ConnectionInv cfg others liveOthers (f (s.objects n)))
    (hcore : (f (s.objects n)).core = (s.objects n).core)
    (hread : (f (s.objects n)).readLoop = (s.objects n).readLoop)
    (hid : (f (s.objects n)).connectionId = (s.objects n).connectionId)
    (hkept : (∃ entry ∈ s.connections, entry.2 = n) → (f (s.objects n)).discarded = []) :
    Advance cfg s (s.modify n f) := by
  refine ⟨h.modify hn hf hcore hid hkept, Nat.le_refl _, fun m _ => ?_⟩
  show Progress (s.objects m) (update s.objects n (f (s.objects n)) m)
  by_cases hmn : m = n
  · subst hmn
    rw [update_self]
    refine ⟨by rw [hcore], fun _ => ?_⟩
    rw [hcore, hread]
    exact ⟨rfl, rfl, rfl, .inl rfl, .inl rfl⟩
  · rw [update_of_ne hmn]
    exact .refl

theorem advance_startConnection (h : LoopInv cfg s) (recvRefused : Bool) :
    Advance cfg s (s.startConnectionOnContext cfg recvRefused) := by
  rw [ConnectionIoLoop.startConnectionOnContext]
  split
  next => exact .of_objects h rfl rfl
  next =>
    split
    next => exact .of_objects { h with } rfl rfl
    next hzero =>
      split
      next => exact .of_objects { h with } rfl rfl
      next =>
        have hstart := ConnectionInv.start cfg s.pendingWriteBytes s.liveConnections s.faults s.nextConnectionId
          recvRefused
        have hlater := later_continueRead recvRefused (c := { create cfg s.nextConnectionId with
          core := ConnectionCore.startWriteLoop false
            { ownerPendingWriteBytes := s.pendingWriteBytes
              ownerLiveConnections := s.liveConnections + 1
              faults := s.faults } })
        have hadd := h.addObject hzero hstart hlater.connectionId hlater.discarded
        simp only [ConnectionIoLoop.runOn, lend, update_self, update_idem]
        refine ⟨hadd _, Nat.le_succ _, fun m hm => ?_⟩
        dsimp only
        rw [update_of_ne (Nat.ne_of_lt hm)]
        exact .refl

/-- 静かな状態では、どの実体も提出の途中にない。 -/
theorem busy_eq_false (hn : n < s.created) (hidle : s.idle = true) : (s.objects n).readLoop.busy = false := by
  have := List.all_eq_true.mp hidle n (List.mem_range.mpr hn)
  simpa using this

/-- 表の並びの実体を、順に歩ませる。 -/
theorem advance_foldl {w : ConnectionIoLoop → UInt64 × Nat → ConnectionIoLoop}
    (hstep : ∀ s entry, LoopInv cfg s → entry.2 < s.created → (s.objects entry.2).readLoop.busy = false →
      Advance cfg s (w s entry) ∧ ∀ n, ((w s entry).objects n).readLoop = (s.objects n).readLoop)
    (entries : List (UInt64 × Nat)) (h : LoopInv cfg s)
    (hentries : ∀ entry ∈ entries, entry.2 < s.created ∧ (s.objects entry.2).readLoop.busy = false) :
    Advance cfg s (entries.foldl w s) := by
  induction entries generalizing s with
  | nil => exact .of_objects h rfl rfl
  | cons entry rest ih =>
      obtain ⟨hlt, hbusy⟩ := hentries entry List.mem_cons_self
      obtain ⟨hadvance, hread⟩ := hstep s entry h hlt hbusy
      refine hadvance.trans (ih hadvance.inv fun other hother => ?_)
      obtain ⟨hlt', hbusy'⟩ := hentries other (List.mem_cons_of_mem _ hother)
      exact ⟨hlt'.trans_le hadvance.created, by rw [hread]; exact hbusy'⟩

theorem advance_beginDrainOnContext (h : LoopInv cfg s) (hidle : s.idle = true) :
    Advance cfg s s.beginDrainOnContext := by
  refine advance_foldl (fun s entry h hlt hbusy => ⟨?_, fun n => ?_⟩) _ h fun entry hentry =>
    ⟨(h.entries entry hentry).1, busy_eq_false (h.entries entry hentry).1 hidle⟩
  · exact h.advance_runOn hlt (fun _ _ hc => hc.beginDrain hbusy) (.of_frame ConnectionCore.frame_beginDrain)
  · show (update s.objects entry.2 _ n).readLoop = _
    by_cases hn : n = entry.2
    · rw [hn, update_self]
      rfl
    · rw [update_of_ne hn]

theorem advance_closeConnectionsOnContext (h : LoopInv cfg s) (hidle : s.idle = true) :
    Advance cfg s s.closeConnectionsOnContext := by
  have hfold := advance_foldl
    (w := fun s entry =>
      if (s.objects entry.2).core.state = .closed then s
      else s.runOn entry.2 fun c => { c with core := c.core.close })
    (fun s entry h hlt hbusy => ?_) s.connections h fun entry hentry =>
      ⟨(h.entries entry hentry).1, busy_eq_false (h.entries entry hentry).1 hidle⟩
  · exact hfold.trans (.of_objects hfold.inv.collectClosedConnections rfl rfl)
  · split
    next => exact ⟨.of_objects h rfl rfl, fun _ => rfl⟩
    next =>
      refine ⟨h.advance_runOn hlt (fun _ _ hc => hc.close hbusy) later_close, fun n => ?_⟩
      show (update s.objects entry.2 _ n).readLoop = _
      by_cases hn : n = entry.2
      · rw [hn, update_self]
        rfl
      · rw [update_of_ne hn]

/-- 結果は、それを出した接続だけが受け取る。 -/
theorem advance_handleWorkerResult (h : LoopInv cfg s) (hidle : s.idle = true) (hn : n < s.created)
    {result : WorkerResult} (hmem : result ∈ (s.objects n).results) (refused : Bool) :
    Advance cfg s (next cfg s (.handleWorkerResult n refused result)) := by
  obtain ⟨_, _, hobject⟩ := h.objects n hn
  have hid := (hobject.requests.results result hmem).connectionId
  have hbusy := busy_eq_false hn hidle
  rw [next]
  split
  next hsome =>
    obtain ⟨m, hlookup⟩ := Option.isSome_iff_exists.mp hsome
    rw [hid] at hlookup
    obtain rfl := h.lookup_eq hn hlookup
    rw [ConnectionIoLoop.handleWorkerResult]
    rw [show (s.modify m fun c => c.takeResult result).connections = s.connections from rfl, hid, hlookup]
    have hlater := later_handleResult (c := (s.lend m).takeResult result) cfg refused result
    have hrun := h.advance_runOn hn (f := fun c => (c.takeResult result).handleResult cfg refused result)
      (fun _ _ hc => hc.handleResult hbusy hmem refused)
      { hlater with }
    simp only [ConnectionIoLoop.runOn, ConnectionIoLoop.modify, lend, update_self, update_idem]
    exact hrun
  next hnone =>
    have hlookup : s.connections.lookup (s.objects n).connectionId = none := by
      rw [← hid]
      exact Option.not_isSome_iff_eq_none.mp hnone
    exact h.advance_modify hn (fun _ _ hc => hc.discardResult hmem) rfl rfl rfl fun hlisted =>
      absurd hlisted (h.not_listed_of_lookup hlookup)

theorem advance_next (h : LoopInv cfg s) {a : Act} (henabled : s.enabled a) : Advance cfg s (next cfg s a) := by
  cases a with
  | start | postStartConnection | beginDrain | stopImmediately | requestStop | fault =>
      exact .of_objects { h with } rfl rfl
  | startConnection recvRefused =>
      have hcollect : LoopInv cfg { s with pendingStarts := s.pendingStarts - 1 }.collectClosedConnections :=
        LoopInv.collectClosedConnections { h with }
      exact (Advance.of_objects (s := s) hcollect rfl rfl).trans (hcollect.advance_startConnection recvRefused)
  | beginDrainOnContext =>
      have hflag : LoopInv cfg { s with drainPosted := false } := { h with }
      exact (Advance.of_objects (s := s) hflag rfl rfl).trans (hflag.advance_beginDrainOnContext henabled.1)
  | closeConnectionsOnContext =>
      have hflag : LoopInv cfg { s with closePosted := false } := { h with }
      exact (Advance.of_objects (s := s) hflag rfl rfl).trans (hflag.advance_closeConnectionsOnContext henabled.1)
  | collectClosedConnections => exact .of_objects h.collectClosedConnections rfl rfl
  | received n sendRefused recvRefused bytes =>
      obtain ⟨hidle, hn, _⟩ := henabled
      exact h.advance_runOn hn (fun _ _ hc => hc.received (busy_eq_false hn hidle) sendRefused recvRefused bytes)
        (later_received sendRefused recvRefused bytes)
  | receivedEof n =>
      obtain ⟨hidle, hn, _⟩ := henabled
      exact h.advance_runOn hn (fun _ _ hc => hc.receivedEof (busy_eq_false hn hidle)) later_receivedEof
  | receiveFailed n =>
      obtain ⟨hidle, hn, _⟩ := henabled
      exact h.advance_runOn hn (fun _ _ hc => hc.receiveFailed (busy_eq_false hn hidle)) later_receiveFailed
  | submitAccepted n requests =>
      obtain ⟨hn, hloop⟩ := henabled
      obtain ⟨_, _, hobject⟩ := h.objects n hn
      have hactive := hobject.busy (by rw [hloop]; rfl)
      exact h.advance_runOn hn (fun _ _ hc => hc.submitAccepted hloop)
        (.of_open (c := s.lend n) (hactive.trans_ne nofun) rfl rfl (Nat.le_refl _))
  | countAdmitted n recvRefused requestCount =>
      obtain ⟨hn, hloop, _⟩ := henabled
      obtain ⟨_, _, hobject⟩ := h.objects n hn
      have hactive := hobject.busy (by rw [hloop]; rfl)
      exact h.advance_runOn hn (fun _ _ hc => hc.countAdmitted hloop recvRefused)
        (later_countAdmitted recvRefused requestCount (hactive.trans_ne nofun))
  | submitFull n sendRefused recvRefused requests =>
      obtain ⟨hn, hloop, _⟩ := henabled
      obtain ⟨_, _, hobject⟩ := h.objects n hn
      have hactive := hobject.busy (by rw [hloop]; rfl)
      exact h.advance_runOn hn (fun _ _ hc => hc.submitFull hloop sendRefused recvRefused)
        (later_submitFull sendRefused recvRefused requests (hactive.trans_ne nofun))
  | submitClosed n requests =>
      obtain ⟨hn, hloop⟩ := henabled
      exact h.advance_runOn hn (fun _ _ hc => hc.submitClosed hloop) later_submitClosed
  | submitThrew n requests =>
      obtain ⟨hn, hloop⟩ := henabled
      obtain ⟨_, _, hobject⟩ := h.objects n hn
      have hactive := hobject.busy (by rw [hloop]; rfl)
      exact h.advance_runOn hn (fun _ _ hc => hc.submitThrew hloop) (later_submitThrew (hactive.trans_ne nofun))
  | sendCompleted n refused bytes =>
      obtain ⟨hidle, hn, _⟩ := henabled
      exact h.advance_runOn hn (f := fun c => { c with core := c.core.sendCompleted refused (some bytes) })
        (fun _ _ hc => hc.sendCompleted (busy_eq_false hn hidle) refused (some bytes))
        (.of_frame (ConnectionCore.frame_sendCompleted _ _))
  | sendFailed n =>
      obtain ⟨hidle, hn, _⟩ := henabled
      exact h.advance_runOn hn (f := fun c => { c with core := c.core.sendCompleted false none })
        (fun _ _ hc => hc.sendCompleted (busy_eq_false hn hidle) false none)
        (.of_frame (ConnectionCore.frame_sendCompleted _ _))
  | handleWorkerResult n refused result =>
      obtain ⟨hidle, hn, hmem, _⟩ := henabled
      exact h.advance_handleWorkerResult hidle hn hmem refused
  | execute n job invoke =>
      obtain ⟨hn, hmem⟩ := henabled
      exact h.advance_modify hn (fun _ _ hc => hc.execute hmem invoke) rfl rfl rfl
        fun ⟨entry, hentry, hserial⟩ => hserial ▸ h.kept entry hentry
  | post n batch result =>
      obtain ⟨hn, hfind⟩ := henabled
      exact h.advance_modify hn (fun _ _ hc => hc.post hfind) rfl rfl rfl
        fun ⟨entry, hentry, hserial⟩ => hserial ▸ h.kept entry hentry

end LoopInv

/-! ## 表から消える接続 -/

theorem foldl_keeps {α : Type} (g : ConnectionIoLoop → α) {w : ConnectionIoLoop → UInt64 × Nat → ConnectionIoLoop}
    (h : ∀ s entry, g (w s entry) = g s) (entries : List (UInt64 × Nat)) : g (entries.foldl w s) = g s := by
  induction entries generalizing s with
  | nil => rfl
  | cons entry rest ih => exact ih.trans (h s entry)

theorem connections_handleWorkerResult (refused : Bool) (result : WorkerResult) :
    (next cfg s (.handleWorkerResult n refused result)).connections = s.connections := by
  rw [next]
  split
  next =>
    rw [handleWorkerResult]
    split <;> rfl
  next => rfl

theorem canBeCollected_of_filtered {entry : UInt64 × Nat} (hentry : entry ∈ s.connections)
    (hgone : entry ∉ s.collectClosedConnections.connections) :
    (s.collectClosedConnections.objects entry.2).canBeCollected = true := by
  by_contra hkeep
  have hkeep : (s.objects entry.2).canBeCollected = false := Bool.eq_false_iff.mpr hkeep
  exact hgone (List.mem_filter.mpr ⟨hentry, by rw [hkeep]; rfl⟩)

theorem canBeCollected_closeConnectionsOnContext {entry : UInt64 × Nat} (hentry : entry ∈ s.connections)
    (hgone : entry ∉ s.closeConnectionsOnContext.connections) :
    (s.closeConnectionsOnContext.objects entry.2).canBeCollected = true := by
  rw [closeConnectionsOnContext] at hgone ⊢
  refine canBeCollected_of_filtered ?_ hgone
  rw [foldl_keeps ConnectionIoLoop.connections]
  · exact hentry
  · intro s entry
    split <;> rfl

theorem connections_beginDrainOnContext : s.beginDrainOnContext.connections = s.connections := by
  rw [beginDrainOnContext, foldl_keeps ConnectionIoLoop.connections]
  exact fun _ _ => rfl

/-- 開始は、表から何も除かない。 -/
theorem mem_startConnectionOnContext {entry : UInt64 × Nat} (hentry : entry ∈ s.connections) (recvRefused : Bool) :
    entry ∈ (s.startConnectionOnContext cfg recvRefused).connections := by
  rw [startConnectionOnContext]
  repeat' split
  · exact hentry
  · exact hentry
  · exact hentry
  · exact List.mem_cons_of_mem _ hentry

theorem objects_startConnectionOnContext (hn : n < s.created) (recvRefused : Bool) :
    (s.startConnectionOnContext cfg recvRefused).objects n = s.objects n := by
  rw [startConnectionOnContext]
  repeat' split
  · rfl
  · rfl
  · rfl
  · simp only [runOn, update_idem]
    exact update_of_ne (Nat.ne_of_lt hn) _ _

/-- 表から消えるのは、閉じて、二つの繰り返しが返った接続だけである。 -/
theorem LoopInv.canBeCollected_of_gone (h : LoopInv cfg s) (a : Act) {entry : UInt64 × Nat}
    (hentry : entry ∈ s.connections) (hgone : entry ∉ (next cfg s a).connections) :
    ((next cfg s a).objects entry.2).canBeCollected = true := by
  cases a with
  | startConnection recvRefused =>
      have hcollected := canBeCollected_of_filtered (s := { s with pendingStarts := s.pendingStarts - 1 }) hentry
        fun hkept => hgone (mem_startConnectionOnContext hkept recvRefused)
      have hlt : entry.2 < { s with pendingStarts := s.pendingStarts - 1 }.collectClosedConnections.created :=
        (h.entries entry hentry).1
      rw [next, objects_startConnectionOnContext hlt]
      exact hcollected
  | closeConnectionsOnContext =>
      exact canBeCollected_closeConnectionsOnContext (s := { s with closePosted := false }) hentry hgone
  | beginDrainOnContext =>
      exact absurd ((connections_beginDrainOnContext (s := { s with drainPosted := false })).symm ▸ hentry) hgone
  | collectClosedConnections => exact canBeCollected_of_filtered (s := s) hentry hgone
  | handleWorkerResult n refused result =>
      exact absurd ((connections_handleWorkerResult refused result).symm ▸ hentry) hgone
  | _ => exact absurd hentry hgone

/-- 結果は、ほかの接続に触れない。 -/
theorem LoopInv.objects_handleWorkerResult (h : LoopInv cfg s) (hn : n < s.created) {result : WorkerResult}
    (hmem : result ∈ (s.objects n).results) (refused : Bool) {m : Nat} (hmn : m ≠ n) :
    (next cfg s (.handleWorkerResult n refused result)).objects m = s.objects m := by
  obtain ⟨_, _, hobject⟩ := h.objects n hn
  have hid := (hobject.requests.results result hmem).connectionId
  rw [next]
  split
  next =>
    rw [handleWorkerResult]
    split
    next => exact update_of_ne hmn _ _
    next k hlookup =>
      rw [hid] at hlookup
      obtain rfl := h.lookup_eq hn hlookup
      exact (update_of_ne hmn _ _).trans (update_of_ne hmn _ _)
  next => exact update_of_ne hmn _ _

/-! ## 閉じた接続の待ちの終わり -/

theorem writeLoop_of_endsSend (hclosed : (s.objects n).core.state = .closed) {a : Act} (henabled : s.enabled a)
    (hends : a.endsSend n = true) : ((next cfg s a).objects n).core.writeLoop = .returned := by
  cases a with
  | sendCompleted m refused bytes =>
      obtain rfl : m = n := of_decide_eq_true hends
      obtain ⟨_, _, hpos, hle, _⟩ := henabled
      simp only [next, ConnectionIoLoop.runOn, update_self]
      exact writeLoop_sendCompleted_of_closed (s.lend m).core hclosed (hpos.trans_le hle) refused _
  | sendFailed m =>
      obtain rfl : m = n := of_decide_eq_true hends
      simp only [next, ConnectionIoLoop.runOn, update_self]
      exact writeLoop_sendCompleted_of_closed (s.lend m).core hclosed henabled.2.2 false _
  | _ => cases hends

theorem readLoop_of_endsReceive (hclosed : (s.objects n).core.state = .closed) {a : Act}
    (hends : a.endsReceive n = true) : ((next cfg s a).objects n).readLoop = .returned := by
  cases a with
  | received m sendRefused recvRefused bytes =>
      obtain rfl : m = n := of_decide_eq_true hends
      simp only [next, ConnectionIoLoop.runOn, update_self]
      exact readLoop_received_of_closed (c := s.lend m) hclosed sendRefused recvRefused bytes
  | receivedEof m =>
      obtain rfl : m = n := of_decide_eq_true hends
      simp only [next, ConnectionIoLoop.runOn, update_self]
      exact readLoop_receivedEof
  | receiveFailed m =>
      obtain rfl : m = n := of_decide_eq_true hends
      simp only [next, ConnectionIoLoop.runOn, update_self]
      exact readLoop_receiveFailed
  | _ => cases hends

/-! ## 到達する状態 -/

theorem loopInv_initial (cfg : ServerConnectionConfig) : LoopInv cfg (initial cfg) where
  objects := nofun
  ids := nofun
  nextId := rfl
  bound := Nat.two_pow_pos 64
  entries := nofun
  serials := List.nodup_nil
  listed := nofun
  kept := nofun
  writes := rfl
  live := rfl

theorem reachable_loopInv (h : (connectionIoLoop cfg).Reachable s) : LoopInv cfg s :=
  h.invariant (fun _ hinit => hinit ▸ loopInv_initial cfg) fun _ _ _ hinv henabled _ =>
    (hinv.advance_next henabled.2).inv

/-- 到達した状態から先の実行で、どの実体も先へ進む。 -/
theorem steps_advance (h : (connectionIoLoop cfg).Reachable s) {s' : ConnectionIoLoop}
    (hsteps : (connectionIoLoop cfg).Steps (fun _ _ => True) s s') : Advance cfg s s' :=
  hsteps.preserves (I := Advance cfg s) h
    (fun _ _ _ hadvance henabled _ => hadvance.trans (hadvance.inv.advance_next henabled.2))
    (.of_objects (reachable_loopInv h) rfl rfl)

end ConnectionIoLoop

end Xrpc.Server
