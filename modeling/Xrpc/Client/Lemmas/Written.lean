import Xrpc.Client.Lemmas.Generations

/-!
# 接続に書かれたフレーム

番号の使い回しのない実行では、接続に書かれた完全なフレームは、その接続に書き終えた呼び出しのものであり、一つずつしかない。
-/

namespace Xrpc.Client
open Xrpc.Lib Xrpc.Protocol Function

variable {cfg : Config} {s : State} {c : CallId} {g : ConnId}

/-! ## 書いたものは消えない -/

theorem sent_prefix_next (cfg : Config) (s : State) (a : Action) (g : ConnId) : s.sent g <+: (a.next cfg s).sent g := by
  have hsend : ∀ (actual : ConnId) (bytes : List (CallId × UInt8)),
      s.sent g <+: update s.sent actual (s.sent actual ++ bytes) g := by
    intro actual bytes
    rw [update_apply]
    split
    next hg => rw [hg]; exact List.prefix_append _ _
    next => exact List.prefix_refl _
  cases a with
  | sendPart c fd g' written n actual => exact hsend actual _
  | sendLast c fd g' written actual => exact hsend actual _
  | _ => exact List.prefix_refl _

theorem nextConn_le_next (cfg : Config) (s : State) (a : Action) : s.nextConn ≤ (a.next cfg s).nextConn := by
  cases a with
  | openSocket c fd => exact Nat.le_succ _
  | _ => exact Nat.le_refl _

/-! ## 一つの呼び出しの書いたバイト -/

/-- 接続 `g` に送った、呼び出し `c` のバイト。 -/
def State.bytesOf (s : State) (g : ConnId) (c : CallId) : Bytes := ((s.sent g).filter fun e => e.1 = c).map Prod.snd

/-- 書き終えたバイト数の定まる位置。 -/
def CallPc.position : CallPc → Option Nat
  | .setSendTimeout _ _ => some 0
  | .retry _ _ written | .send _ _ written => some written
  | _ => none

/-- 書いている位置へ移るのは、番号を写し取るときと、一部を書いたときだけである。 -/
theorem position_next {a : Action} (h : a.enabled cfg s) {n : Nat} (hpos : ((a.next cfg s).pc c).position = some n) :
    (s.pc c).position = some n ∨ (∃ fd g, a = .connectedFd c fd g ∧ n = 0) ∨
      ∃ fd g written k actual, a = .sendPart c fd g written k actual ∧ n = written + k := by
  cases a with
  | connectedFd c' fd g =>
      replace hpos : (update s.pc c' (.setSendTimeout fd g) c).position = some n := hpos
      rw [update_apply] at hpos
      split at hpos
      next hc => subst hc; exact .inr (.inl ⟨fd, g, rfl, (Option.some.inj hpos).symm⟩)
      next => exact .inl hpos
  | sendPart c' fd g written k actual =>
      replace hpos : (update s.pc c' (.retry fd g (written + k)) c).position = some n := hpos
      rw [update_apply] at hpos
      split at hpos
      next hc => subst hc; exact .inr (.inr ⟨fd, g, written, k, actual, rfl, (Option.some.inj hpos).symm⟩)
      next => exact .inl hpos
  | setSendTimeout c' fd g =>
      replace hpos : (update s.pc c' (.send fd g 0) c).position = some n := hpos
      rw [update_apply] at hpos
      split at hpos
      next hc => subst hc; rw [h.1]; exact .inl hpos
      next => exact .inl hpos
  | sendInterrupted c' fd g written =>
      replace hpos : (update s.pc c' (.retry fd g written) c).position = some n := hpos
      rw [update_apply] at hpos
      split at hpos
      next hc => subst hc; rw [show s.pc c = .send fd g written from h]; exact .inl hpos
      next => exact .inl hpos
  | sendRetry c' fd g written =>
      replace hpos : (update s.pc c' (.send fd g written) c).position = some n := hpos
      rw [update_apply] at hpos
      split at hpos
      next hc => subst hc; rw [h.1]; exact .inl hpos
      next => exact .inl hpos
  | _ =>
      -- 残りの動作は、位置を変えないか、書いている位置から離れる
      first
        | exact .inl hpos
        | (replace hpos : (update s.pc _ _ c).position = some n := hpos
           rw [update_apply] at hpos
           split at hpos
           next => cases hpos
           next => exact .inl hpos)

/-- 番号を写し取った接続 `g` に、呼び出し `c` はフレームの先頭から `n` バイトを書いている。 -/
structure Stands (cfg : Config) (s : State) (c : CallId) (g : ConnId) (n : Nat) : Prop where
  bytes : s.bytesOf g c = (cfg.requestFrame c).take n
  le : n ≤ (cfg.requestFrame c).length
  position : ∀ written, (s.pc c).position = some written → n = written
  wrote : s.wrote c = some g → n = (cfg.requestFrame c).length ∧ 0 < n
  unfinished : s.wrote c = none → n < (cfg.requestFrame c).length ∨ n = 0

/-- 呼び出しの書くバイトは、番号を写し取った接続だけに、順に並ぶ。 -/
def WritesInOrder (cfg : Config) (s : State) (c : CallId) (g : ConnId) : Prop :=
  (s.obtained c = some g → ∃ n, Stands cfg s c g n) ∧ (s.obtained c ≠ some g → s.bytesOf g c = [])

theorem bytesOf_append (s : State) (g : ConnId) (c c' : CallId) (bytes : Bytes) :
    ((s.sent g ++ bytes.map fun b => (c', b)).filter fun e => e.1 = c).map Prod.snd =
      s.bytesOf g c ++ if c' = c then bytes else [] := by
  rw [List.filter_append, List.map_append, State.bytesOf, List.filter_map, List.map_map]
  by_cases hc : c' = c
  · have hall : bytes.filter ((fun e : CallId × UInt8 => e.1 = c) ∘ fun b => (c', b)) = bytes :=
      List.filter_eq_self.mpr fun _ _ => by simpa using hc
    rw [if_pos hc, hall]
    exact congrArg _ (List.map_id'' (fun _ => rfl) bytes)
  · have hnone : bytes.filter ((fun e : CallId × UInt8 => e.1 = c) ∘ fun b => (c', b)) = [] :=
      List.filter_eq_nil_iff.mpr fun _ _ => by simpa using hc
    rw [if_neg hc, hnone]
    rfl

theorem bytesOf_eq_nil (h : ∀ b, (c, b) ∉ s.sent g) : s.bytesOf g c = [] := by
  rw [State.bytesOf, List.map_eq_nil_iff, List.filter_eq_nil_iff]
  rintro ⟨c', b⟩ hmem heq
  exact h b (of_decide_eq_true heq ▸ hmem)

/-- 送らず、番号も写し取らない動作。 -/
theorem WritesInOrder.of_quiet {a : Action} (h : WritesInOrder cfg s c g) (ha : a.enabled cfg s)
    (hsent : (a.next cfg s).sent = s.sent) (hwrote : (a.next cfg s).wrote = s.wrote)
    (hobtained : (a.next cfg s).obtained = s.obtained)
    (hquiet : ∀ fd g written k actual, a ≠ .connectedFd c fd g ∧ a ≠ .sendPart c fd g written k actual) :
    WritesInOrder cfg (a.next cfg s) c g := by
  have hbytes : (a.next cfg s).bytesOf g c = s.bytesOf g c := by rw [State.bytesOf, hsent, State.bytesOf]
  refine ⟨fun hg => ?_, fun hg => ?_⟩
  · obtain ⟨n, hn⟩ := h.1 (hobtained ▸ hg)
    refine ⟨n, hbytes.trans hn.bytes, hn.le, fun written hpos => ?_, ?_, ?_⟩
    · rcases position_next ha hpos with hold | ⟨fd, g, heq, -⟩ | ⟨fd, g, written, k, actual, heq, -⟩
      · exact hn.position written hold
      · exact absurd heq (hquiet fd g 0 0 0).1
      · exact absurd heq (hquiet fd g written k actual).2
    · rw [hwrote]; exact hn.wrote
    · rw [hwrote]; exact hn.unfinished
  · rw [hbytes]
    exact h.2 (hobtained ▸ hg)

/-- まだ送ってよい位置にない呼び出しは、何も送っていない。 -/
theorem bytesOf_of_not_maySend (h : (client cfg).Reachable s) (hpc : ¬ (s.pc c).maySend) (g : ConnId) :
    s.bytesOf g c = [] :=
  bytesOf_eq_nil fun b hmem => hpc (reachable_maySend h g c b hmem)

/-- 書き終える前の位置では、書き終えた記録はない。 -/
theorem wrote_eq_none (h : (client cfg).Reachable s) (hpc : ¬ (s.pc c).written) : s.wrote c = none := by
  cases hw : s.wrote c with
  | none => rfl
  | some g => exact absurd (reachable_written h hw) hpc

/-- 書いている接続は、番号を写し取った接続である。 -/
theorem actual_eq (h : (client cfg).Reach FreshDescriptor s) {fd written actual : Nat} {g : ConnId}
    (hpc : s.pc c = .send fd g written) (hfds : s.fds fd = some actual) : actual = g ∧ s.obtained c = some g := by
  have hholds := reachable_holds h.reachable c
  rw [hpc] at hholds
  exact ⟨(reach_sound h).copies.writer_own c fd g written (writer_of_pc hpc) actual hfds, hholds⟩

/-- フレームの続きの `bytes` を、写し取った接続に書く。 -/
theorem WritesInOrder.write {s' : State} (h : WritesInOrder cfg s c g) {c' : CallId} {g' : ConnId} {fd written k : Nat}
    (hpc : s.pc c' = .send fd g' written) (hobtained : s.obtained c' = some g')
    (hsent : s'.sent = update s.sent g'
      (s.sent g' ++ (((cfg.requestFrame c').drop written).take k).map fun b => (c', b)))
    (hkept : s'.obtained = s.obtained) (hother : c ≠ c' → s'.pc c = s.pc c ∧ s'.wrote c = s.wrote c)
    (hstands : c = c' → g = g' → Stands cfg s c g written →
      s'.bytesOf g c = (cfg.requestFrame c).take (written + k) → ∃ n, Stands cfg s' c g n) :
    WritesInOrder cfg s' c g := by
  have hbytes : s'.bytesOf g c =
      s.bytesOf g c ++ if c' = c ∧ g' = g then ((cfg.requestFrame c').drop written).take k else [] := by
    rw [State.bytesOf, hsent, update_apply]
    split
    next hg =>
      subst hg
      rw [bytesOf_append]
      by_cases hc : c' = c <;> simp [hc]
    next hg => rw [if_neg fun hboth => hg hboth.2.symm, List.append_nil, State.bytesOf]
  refine ⟨fun hg => ?_, fun hg => ?_⟩
  · rw [hkept] at hg
    obtain ⟨n, hn⟩ := h.1 hg
    by_cases hc : c = c'
    · subst hc
      obtain rfl : g' = g := Option.some.inj (hobtained.symm.trans hg)
      obtain rfl : n = written := hn.position written (by rw [hpc]; rfl)
      refine hstands rfl rfl hn ?_
      rw [hbytes, if_pos ⟨rfl, rfl⟩, hn.bytes, ← List.take_add]
    · obtain ⟨hpc', hwrote'⟩ := hother hc
      rw [if_neg fun hboth => hc hboth.1.symm, List.append_nil] at hbytes
      exact ⟨n, hbytes.trans hn.bytes, hn.le, hpc' ▸ hn.position, hwrote' ▸ hn.wrote, hwrote' ▸ hn.unfinished⟩
  · rw [hkept] at hg
    rw [hbytes, h.2 hg, if_neg, List.nil_append]
    rintro ⟨rfl, rfl⟩
    exact hg hobtained

theorem WritesInOrder.step {a : Action} (hreach : (client cfg).Reach FreshDescriptor s) (ha : a.enabled cfg s)
    (h : WritesInOrder cfg s c g) : WritesInOrder cfg (a.next cfg s) c g := by
  cases a with
  | connectedFd c' fd g' =>
      by_cases hc : c = c'
      · subst hc
        -- 番号を写し取る前には、何も書いていない
        have hpc : s.pc c = .connectedFd := ha.1
        have hnil := bytesOf_of_not_maySend hreach.reachable (c := c) (by rw [hpc]; exact id)
        have hnone := wrote_eq_none hreach.reachable (c := c) (by rw [hpc]; exact id)
        refine ⟨fun _ => ⟨0, hnil g, Nat.zero_le _, fun written hpos => ?_, fun hw => ?_, fun _ => .inr rfl⟩,
          fun _ => hnil g⟩
        · replace hpos : (update s.pc c (.setSendTimeout fd g') c).position = some written := hpos
          rw [update_self] at hpos
          exact Option.some.inj hpos
        · cases hnone.symm.trans hw
      · have hobtained : update s.obtained c' (some g') c = s.obtained c := update_of_ne hc _ _
        refine ⟨fun hg => ?_, fun hg => h.2 (hobtained ▸ hg)⟩
        obtain ⟨n, hn⟩ := h.1 (hobtained ▸ hg)
        have hpc : update s.pc c' (.setSendTimeout fd g') c = s.pc c := update_of_ne hc _ _
        exact ⟨n, hn.bytes, hn.le, fun written hpos => hn.position written (hpc ▸ hpos), hn.wrote, hn.unfinished⟩
  | sendPart c' fd g' written k actual =>
      obtain ⟨hpc, hfds, -, hlt⟩ := ha
      obtain ⟨rfl, hobtained⟩ := actual_eq hreach hpc hfds
      refine h.write hpc hobtained rfl rfl (fun hc => ⟨update_of_ne hc _ _, rfl⟩) ?_
      rintro rfl rfl hn hbytes
      have hnone := wrote_eq_none hreach.reachable (c := c) (by rw [hpc]; exact id)
      refine ⟨written + k, hbytes, hlt.le, fun written' hpos => ?_, fun hw => ?_, fun _ => .inl hlt⟩
      · replace hpos : (update s.pc c (.retry fd g (written + k)) c).position = some written' := hpos
        rw [update_self] at hpos
        exact Option.some.inj hpos
      · cases hnone.symm.trans hw
  | sendLast c' fd g' written actual =>
      obtain ⟨hpc, hfds, hlt⟩ := ha
      obtain ⟨rfl, hobtained⟩ := actual_eq hreach hpc hfds
      have htake : (cfg.requestFrame c').drop written =
          ((cfg.requestFrame c').drop written).take ((cfg.requestFrame c').length - written) :=
        (List.take_of_length_le List.length_drop.le).symm
      refine h.write (k := (cfg.requestFrame c').length - written) hpc hobtained (by rw [← htake]; rfl) rfl
        (fun hc => ⟨update_of_ne hc _ _, update_of_ne hc _ _⟩) ?_
      rintro rfl rfl hn hbytes
      rw [Nat.add_sub_cancel' hlt.le] at hbytes
      refine ⟨(cfg.requestFrame c).length, hbytes, Nat.le_refl _, fun written' hpos => ?_,
        fun _ => ⟨rfl, by omega⟩, fun hw => ?_⟩
      · replace hpos : (update s.pc c .wait c).position = some written' := hpos
        rw [update_self] at hpos
        cases hpos
      · replace hw : update s.wrote c (some g) c = none := hw
        rw [update_self] at hw
        cases hw
  | _ => exact h.of_quiet ha rfl rfl rfl fun _ _ _ _ _ => ⟨by rintro ⟨⟩, by rintro ⟨⟩⟩

theorem reach_writesInOrder (h : (client cfg).Reach FreshDescriptor s) (c : CallId) (g : ConnId) :
    WritesInOrder cfg s c g := by
  refine h.invariant (I := fun s => WritesInOrder cfg s c g) ?_ fun s a hreach ih ha _ => ih.step hreach ha
  rintro s ⟨rfl⟩
  exact ⟨(by rintro ⟨⟩), fun _ => rfl⟩

/-! ## 接続に書き終えた呼び出し -/

theorem length_bytesOf (s : State) (g : ConnId) (c : CallId) :
    (s.bytesOf g c).length = (s.sent g).countP fun e => e.1 = c := by
  rw [State.bytesOf, List.length_map, List.countP_eq_length_filter]

/-- 書いたバイト数がフレームの長さに達した呼び出しは、書き終えている。 -/
theorem wrote_of_length (h : (client cfg).Reach FreshDescriptor s) (hpos : 0 < (cfg.requestFrame c).length)
    (hle : (cfg.requestFrame c).length ≤ (s.bytesOf g c).length) :
    s.wrote c = some g ∧ (s.bytesOf g c).length = (cfg.requestFrame c).length := by
  have horder := reach_writesInOrder h c g
  by_cases hg : s.obtained c = some g
  · obtain ⟨n, hn⟩ := horder.1 hg
    rw [hn.bytes, List.length_take, Nat.min_eq_left hn.le] at hle ⊢
    refine ⟨?_, Nat.le_antisymm hn.le hle⟩
    cases hw : s.wrote c with
    | none =>
        have := hn.unfinished hw
        omega
    | some g' => rw [← hg, reach_wrote h hw]
  · rw [horder.2 hg, List.length_nil] at hle
    omega

theorem bytesOf_of_wrote (h : (client cfg).Reach FreshDescriptor s) (hw : s.wrote c = some g) :
    s.bytesOf g c = cfg.requestFrame c ∧ 0 < (cfg.requestFrame c).length := by
  obtain ⟨n, hn⟩ := (reach_writesInOrder h c g).1 (reach_wrote h hw)
  obtain ⟨rfl, hpos⟩ := hn.wrote hw
  exact ⟨hn.bytes.trans List.take_length, hpos⟩

/-- 接続 `g` に書かれたものは、`g` に書き終えた呼び出しのフレームを、書いた順に一つずつ並べたものである。末尾には、書き終えて
いない呼び出しのフレームの途中までが続くことがある。 -/
structure WrittenFrames (cfg : Config) (s : State) (g : ConnId) (calls : List CallId) (part : Bytes) : Prop where
  nodup : calls.Nodup
  mem : ∀ c, c ∈ calls ↔ s.wrote c = some g
  sent : (s.sent g).map Prod.snd = calls.flatMap cfg.requestFrame ++ part
  part_lt : part ≠ [] → ∃ c, part <+: cfg.requestFrame c ∧ part.length < (cfg.requestFrame c).length

theorem flatMap_filter_nonempty {α : Type} (f : α → Bytes) (l : List α) :
    (l.filter fun a => f a ≠ []).flatMap f = l.flatMap f := by
  induction l with
  | nil => rfl
  | cons a l ih =>
      by_cases ha : f a = []
      · simpa [ha] using ih
      · simpa [ha] using ih

/-- 完全なフレームの並び `done` と、その後ろの `rest` から、書き終えた呼び出しが分かる。 -/
theorem writtenFrames_of_sent (h : (client cfg).Reach FreshDescriptor s) {done : List CallId} {rest : List (CallId × UInt8)}
    (hsent : s.sent g = done.flatMap (SharedSocket.whole cfg.sockets) ++ rest)
    (hrest : ∀ c, 0 < (cfg.requestFrame c).length → rest.countP (fun e => e.1 = c) < (cfg.requestFrame c).length)
    (hpart : rest ≠ [] → ∃ c, rest.map Prod.snd <+: cfg.requestFrame c ∧ rest.length < (cfg.requestFrame c).length) :
    WrittenFrames cfg s g (done.filter fun c => cfg.requestFrame c ≠ []) (rest.map Prod.snd) := by
  have hlength : ∀ c, (s.bytesOf g c).length =
      done.count c * (cfg.requestFrame c).length + rest.countP fun e => e.1 = c := by
    intro c
    rw [length_bytesOf, hsent, List.countP_append, SharedSocket.countP_flatMap_whole]
    rfl
  have hnonempty : ∀ {c}, cfg.requestFrame c ≠ [] ↔ 0 < (cfg.requestFrame c).length := List.length_pos_iff.symm
  -- 並びに現れる呼び出しは、書き終えていて、一度しか現れない
  have honce : ∀ c, c ∈ done → cfg.requestFrame c ≠ [] → s.wrote c = some g ∧ done.count c = 1 := by
    intro c hmem hne
    have hpos := hnonempty.mp hne
    have hcount : 1 ≤ done.count c := List.count_pos_iff.mpr hmem
    have hge : (cfg.requestFrame c).length ≤ done.count c * (cfg.requestFrame c).length := Nat.le_mul_of_pos_left _ hcount
    have hlen := hlength c
    obtain ⟨hwrote, heq⟩ := wrote_of_length (g := g) h hpos (by omega)
    refine ⟨hwrote, Nat.le_antisymm ?_ hcount⟩
    have hle : done.count c * (cfg.requestFrame c).length ≤ 1 * (cfg.requestFrame c).length := by omega
    exact Nat.le_of_mul_le_mul_right hle hpos
  refine ⟨List.nodup_iff_count_le_one.mpr fun c => ?_, fun c => ?_, ?_, ?_⟩
  · by_cases hmem : c ∈ done.filter fun c => cfg.requestFrame c ≠ []
    · obtain ⟨hdone, hne⟩ := List.mem_filter.mp hmem
      exact (List.Sublist.count_le c List.filter_sublist).trans (honce c hdone (of_decide_eq_true hne)).2.le
    · rw [List.count_eq_zero_of_not_mem hmem]
      exact Nat.zero_le 1
  · rw [List.mem_filter, decide_eq_true_eq]
    refine ⟨fun hmem => (honce c hmem.1 hmem.2).1, fun hw => ?_⟩
    obtain ⟨hbytes, hpos⟩ := bytesOf_of_wrote h hw
    have hlen := hlength c
    have hlt := hrest c hpos
    rw [hbytes] at hlen
    refine ⟨List.count_pos_iff.mp (Nat.pos_of_ne_zero fun hzero => ?_), hnonempty.mpr hpos⟩
    rw [hzero, Nat.zero_mul] at hlen
    omega
  · have hframes : (done.flatMap (SharedSocket.whole cfg.sockets)).map Prod.snd = done.flatMap cfg.requestFrame := by
      rw [List.map_flatMap]
      refine congrArg (fun f => done.flatMap f) (funext fun c => ?_)
      rw [SharedSocket.whole, SharedSocket.tagged, List.map_map]
      exact List.map_id'' (fun _ => rfl) _
    rw [hsent, List.map_append, hframes, flatMap_filter_nonempty]
  · intro hne
    obtain ⟨c, hprefix, hlt⟩ := hpart (by simpa using hne)
    exact ⟨c, hprefix, by rwa [List.length_map]⟩

theorem reach_writtenFrames (h : (client cfg).Reach FreshDescriptor s) (g : ConnId) :
    ∃ calls part, WrittenFrames cfg s g calls part := by
  obtain ⟨done, ⟨hsent, -⟩ | ⟨c, n, -, hlt, -, -, hsent, -⟩⟩ := (reach_sound h).framed g
  · have hsent' : s.sent g = done.flatMap (SharedSocket.whole cfg.sockets) ++ [] := by
      rw [List.append_nil]
      exact hsent
    exact ⟨_, _, writtenFrames_of_sent h hsent' (fun _ hpos => hpos) fun hne => absurd rfl hne⟩
  · replace hlt : n < (cfg.requestFrame c).length := hlt
    refine ⟨_, _, writtenFrames_of_sent h hsent (fun c' hpos => ?_) fun _ => ⟨c, ?_, ?_⟩⟩
    · rw [SharedSocket.countP_tagged]
      split
      next heq =>
        subst heq
        exact (List.length_take_le _ _).trans_lt hlt
      next => exact hpos
    · rw [SharedSocket.tagged, List.map_map]
      refine List.IsPrefix.trans ?_ (List.take_prefix n _)
      exact (List.map_id'' (fun _ => rfl) _).symm ▸ List.prefix_refl _
    · rw [SharedSocket.tagged, List.length_map]
      exact (List.length_take_le _ _).trans_lt hlt

end Xrpc.Client
