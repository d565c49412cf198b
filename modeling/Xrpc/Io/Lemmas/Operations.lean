import Xrpc.Io.Operations
import Xrpc.Lib.SlotTable

/-!
# 操作の表の補題
-/

namespace Xrpc.Io
open Xrpc.Lib Function

variable {α : Type}

/-! ## 位置 -/

namespace LoopPc

variable {pc : LoopPc α}

theorem isAcquiring_iff : pc.isAcquiring = true ↔
    (∃ operation caller, pc = .acquireSqe operation caller) ∨ ∃ operation caller, pc = .retrySqe operation caller := by
  cases pc <;> simp [isAcquiring]

theorem isSubmitting_iff : pc.isSubmitting = true ↔ ∃ back, pc = .submit back := by
  cases pc <;> simp [isSubmitting]

theorem isProcessing_iff : pc.isProcessing = true ↔ ∃ processed, pc = .processCqe processed := by
  cases pc <;> simp [isProcessing]

theorem handling_eq_some {category : CompletionCategory} :
    pc.handling = some category ↔ ∃ processed, pc = .handler processed category := by
  cases pc <;> simp [handling]

end LoopPc

/-! ## 完了の列 -/

/-- 最後の CQE の操作。 -/
def finals (cqes : List (Cqe α)) : List α := (cqes.filter fun cqe => !cqe.more).map Cqe.operation

theorem mem_finals {cqes : List (Cqe α)} {address : α} : address ∈ finals cqes ↔ ⟨address, false⟩ ∈ cqes := by
  simp only [finals, List.mem_map, List.mem_filter, Bool.not_eq_true']
  constructor
  · rintro ⟨⟨operation, more⟩, ⟨hmem, hmore⟩, rfl⟩
    cases hmore
    exact hmem
  · intro hmem
    exact ⟨_, ⟨hmem, rfl⟩, rfl⟩

theorem finals_append_more (cqes : List (Cqe α)) (address : α) : finals (cqes ++ [⟨address, true⟩]) = finals cqes := by
  simp [finals]

theorem finals_append_final (cqes : List (Cqe α)) (address : α) :
    finals (cqes ++ [⟨address, false⟩]) = finals cqes ++ [address] := by
  simp [finals]

/-- `more` の立った CQE の操作は、多発の操作であり、核の手元にあるか、後に最後の CQE が続く。 -/
def Followed (multishot : α → Bool) (inflight : List α) : List (Cqe α) → Prop
  | [] => True
  | cqe :: rest =>
      (cqe.more = true → multishot cqe.operation = true ∧ (cqe.operation ∈ inflight ∨ ⟨cqe.operation, false⟩ ∈ rest)) ∧
        Followed multishot inflight rest

namespace Followed

variable {multishot multishot' : α → Bool} {inflight inflight' : List α} {cqes : List (Cqe α)}

theorem submit (h : Followed multishot inflight cqes) (hsub : ∀ a ∈ inflight, a ∈ inflight') :
    Followed multishot inflight' cqes := by
  induction cqes with
  | nil => trivial
  | cons cqe rest ih =>
      refine ⟨fun hmore => ?_, ih h.2⟩
      obtain ⟨hmultishot, hinflight | hfinal⟩ := h.1 hmore
      · exact ⟨hmultishot, .inl (hsub _ hinflight)⟩
      · exact ⟨hmultishot, .inr hfinal⟩

theorem append_more (h : Followed multishot inflight cqes) {address : α} (hmem : address ∈ inflight)
    (hmultishot : multishot address = true) : Followed multishot inflight (cqes ++ [⟨address, true⟩]) := by
  induction cqes with
  | nil => exact ⟨fun _ => ⟨hmultishot, .inl hmem⟩, trivial⟩
  | cons cqe rest ih =>
      refine ⟨fun hmore => ?_, ih h.2⟩
      obtain ⟨hmultishot', hinflight | hfinal⟩ := h.1 hmore
      · exact ⟨hmultishot', .inl hinflight⟩
      · exact ⟨hmultishot', .inr (List.mem_append_left _ hfinal)⟩

theorem append_final [DecidableEq α] (h : Followed multishot inflight cqes) (address : α) :
    Followed multishot (inflight.erase address) (cqes ++ [⟨address, false⟩]) := by
  induction cqes with
  | nil => exact ⟨nofun, trivial⟩
  | cons cqe rest ih =>
      refine ⟨fun hmore => ?_, ih h.2⟩
      obtain ⟨hmultishot, hinflight | hfinal⟩ := h.1 hmore
      · -- 核の手元を離れるのは、いま最後の CQE を返した操作だけである
        by_cases heq : cqe.operation = address
        · exact ⟨hmultishot, .inr (List.mem_append_right _ (by rw [heq]; exact List.mem_singleton_self _))⟩
        · exact ⟨hmultishot, .inl ((List.mem_erase_of_ne heq).mpr hinflight)⟩
      · exact ⟨hmultishot, .inr (List.mem_append_left _ hfinal)⟩

theorem congr (h : Followed multishot inflight cqes)
    (heq : ∀ a, a ∈ inflight ∨ ⟨a, false⟩ ∈ cqes → multishot' a = multishot a) : Followed multishot' inflight cqes := by
  induction cqes with
  | nil => trivial
  | cons cqe rest ih =>
      refine ⟨fun hmore => ?_, ih h.2 fun a ha => heq a (ha.imp_right (List.mem_cons_of_mem _))⟩
      obtain ⟨hmultishot, howned⟩ := h.1 hmore
      refine ⟨?_, howned⟩
      rw [heq _ (howned.imp_right (List.mem_cons_of_mem _))]
      exact hmultishot

end Followed

/-! ## 表 -/

namespace TableState

variable {s : TableState α}

/-- 表は、加えられて最後の CQE を処理していない操作を、位置と食い違わずに持つ。 -/
structure Tracked (s : TableState α) : Prop where
  indexed : Indexed s.operations s.ownerIndex
  owned : s.operations.Perm (s.sqes ++ s.inflight ++ finals s.cqes)
  followed : Followed s.multishot s.inflight s.cqes
  staged : s.stagedSqeCount = s.sqes.length

namespace Tracked

theorem setPc (h : Tracked s) (pc : LoopPc α) : Tracked { s with pc } := ⟨h.indexed, h.owned, h.followed, h.staged⟩

theorem mem_iff (h : Tracked s) (address : α) : address ∈ s.operations ↔ s.Outstanding address := by
  rw [h.owned.mem_iff, List.mem_append, List.mem_append, mem_finals, or_assoc]
  rfl

/-- 先頭の CQE の操作は表にある。 -/
theorem head_mem (h : Tracked s) {cqe : Cqe α} {rest : List (Cqe α)} (hcqes : s.cqes = cqe :: rest) :
    cqe.operation ∈ s.operations := by
  obtain ⟨operation, more⟩ := cqe
  rw [h.mem_iff]
  cases more with
  | false => exact .inr (.inr (by rw [hcqes]; exact List.mem_cons_self))
  | true =>
      have hfollowed := h.followed
      rw [hcqes] at hfollowed
      obtain ⟨-, hinflight | hfinal⟩ := hfollowed.1 rfl
      · exact .inr (.inl hinflight)
      · exact .inr (.inr (by rw [hcqes]; exact List.mem_cons_of_mem _ hfinal))

theorem submitted (h : Tracked s) (count : Nat) :
    Tracked { s with
      stagedSqeCount := s.stagedSqeCount - count, sqes := s.sqes.drop count, inflight := s.inflight ++ s.sqes.take count } := by
  refine ⟨h.indexed, ?_, h.followed.submit fun a ha => List.mem_append_left _ ha, ?_⟩
  · refine h.owned.trans (List.Perm.append_right _ ?_)
    have hsplit : (s.sqes ++ s.inflight).Perm (s.sqes.drop count ++ s.sqes.take count ++ s.inflight) := by
      refine List.Perm.append_right _ ?_
      conv_lhs => rw [← List.take_append_drop count s.sqes]
      exact List.perm_append_comm
    rw [List.append_assoc] at hsplit
    exact hsplit.trans (List.Perm.append_left _ List.perm_append_comm)
  · rw [List.length_drop, h.staged]

theorem kernelMore (h : Tracked s) {address : α} (hmem : address ∈ s.inflight) (hmultishot : s.multishot address = true) :
    Tracked { s with cqes := s.cqes ++ [⟨address, true⟩] } := by
  refine ⟨h.indexed, ?_, h.followed.append_more hmem hmultishot, h.staged⟩
  rw [finals_append_more]
  exact h.owned

variable [DecidableEq α]

theorem stageOperation (h : Tracked s) {operation : Operation α} (hfresh : operation.address ∉ s.operations) :
    Tracked (s.stageOperation operation) := by
  refine ⟨h.indexed.push hfresh, ?_, h.followed.congr fun a ha => ?_, ?_⟩
  · -- 提出待ちの列の末尾に加わる
    have hperm : (s.operations ++ [operation.address]).Perm
        (s.sqes ++ s.inflight ++ finals s.cqes ++ [operation.address]) := h.owned.append_right _
    refine hperm.trans ?_
    simp only [TableState.stageOperation, List.append_assoc]
    refine List.Perm.append_left _ ?_
    rw [← List.append_assoc]
    exact List.perm_append_comm
  · have hne : a ≠ operation.address := by
      rintro rfl
      exact hfresh ((h.mem_iff _).mpr (.inr ha))
    exact update_of_ne hne ..
  · simp [TableState.stageOperation, h.staged]

theorem takeOperation_frame (s : TableState α) (address : α) :
    ∃ operations ownerIndex, s.takeOperation address = { s with operations, ownerIndex } := by
  rw [takeOperation]
  split
  · exact ⟨_, _, rfl⟩
  · split
    · exact ⟨_, _, rfl⟩
    · exact ⟨_, _, rfl⟩

/-- `TakeOperation` は、その操作だけを表から除く。 -/
theorem takeOperation_spec (h : Indexed s.operations s.ownerIndex) {address : α} (hmem : address ∈ s.operations) :
    Indexed (s.takeOperation address).operations (s.takeOperation address).ownerIndex ∧
      (address :: (s.takeOperation address).operations).Perm s.operations := by
  obtain ⟨front, last, hoperations⟩ : ∃ front last, s.operations = front ++ [last] :=
    ⟨_, _, (List.dropLast_append_getLast (List.ne_nil_of_mem hmem)).symm⟩
  have hget := h.get?_of_mem hmem
  rw [hoperations] at h hget
  simp only [TableState.takeOperation, hoperations, List.getLast?_concat, List.length_append, List.length_singleton,
    Nat.add_sub_cancel, List.dropLast_concat]
  split
  next hindex =>
    rw [hindex, List.getElem?_concat_length] at hget
    rw [← Option.some.inj hget]
    exact ⟨h.dropLast, (List.perm_append_singleton last front).symm⟩
  next hindex =>
    obtain ⟨hbound, -⟩ := List.getElem?_eq_some_iff.mp hget
    rw [List.length_append, List.length_singleton] at hbound
    have hlt : s.ownerIndex address < front.length := by omega
    rw [List.getElem?_append_left hlt] at hget
    simp only [List.set_append_left _ _ hlt, List.dropLast_concat]
    exact ⟨h.fill hlt, cons_set_perm hget⟩

/-- 追跡の検査は通り、最後の CQE の操作だけが表を離れる。 -/
theorem processCqe (h : Tracked s) {cqe : Cqe α} {rest : List (Cqe α)} (hcqes : s.cqes = cqe :: rest) (processed : Nat) :
    Tracked (s.processCqe processed cqe) ∧
      (s.processCqe processed cqe).pc = .handler processed (s.category cqe.operation) := by
  have hmem := h.head_mem hcqes
  have hfollowed := h.followed
  have howned := h.owned
  rw [hcqes] at hfollowed howned
  rw [TableState.processCqe, if_pos (h.indexed.get?_of_mem hmem)]
  refine ⟨?_, rfl⟩
  obtain ⟨operation, more⟩ := cqe
  cases more with
  | true =>
      have hmultishot := (hfollowed.1 rfl).1
      simp only [hmultishot, hcqes, List.tail_cons, Bool.not_true, Bool.or_self, Bool.false_eq_true, if_false]
      exact ⟨h.indexed, howned, hfollowed.2, h.staged⟩
  | false =>
      obtain ⟨operations, ownerIndex, hframe⟩ := takeOperation_frame s operation
      have hspec := takeOperation_spec h.indexed hmem
      rw [hframe] at hspec
      obtain ⟨hindexed, hperm⟩ := hspec
      simp only [hcqes, List.tail_cons, Bool.not_false, Bool.or_true, if_true, hframe]
      refine ⟨hindexed, ?_, hfollowed.2, h.staged⟩
      have hmiddle := hperm.trans howned
      rw [finals, List.filter_cons_of_pos (by rfl), List.map_cons] at hmiddle
      exact (hmiddle.trans List.perm_middle).cons_inv

theorem kernelFinal (h : Tracked s) {address : α} (hmem : address ∈ s.inflight) :
    Tracked { s with inflight := s.inflight.erase address, cqes := s.cqes ++ [⟨address, false⟩] } := by
  refine ⟨h.indexed, h.owned.trans ?_, h.followed.append_final address, h.staged⟩
  rw [finals_append_final, List.append_assoc, List.append_assoc]
  refine List.Perm.append_left _ ?_
  calc
    List.Perm (s.inflight ++ finals s.cqes) (address :: s.inflight.erase address ++ finals s.cqes) :=
      (List.perm_cons_erase hmem).append_right _
    List.Perm _ (s.inflight.erase address ++ finals s.cqes ++ [address]) :=
      (List.perm_append_singleton _ _).symm
    List.Perm _ (s.inflight.erase address ++ (finals s.cqes ++ [address])) := by rw [List.append_assoc]

end Tracked

/-! ## `Run` の糸 -/

/-- 位置ごとの条件。加えようとする番地は表になく、待つときは提出待ちがなく、表が空のときだけ戻る。 -/
def PcSafe (s : TableState α) : Prop :=
  match s.pc with
  | .acquireSqe operation _ | .retrySqe operation _ | .submit (.acquireSqe operation _) => operation.address ∉ s.operations
  | .loop | .wait => s.stagedSqeCount = 0
  | .unstarted | .returned => s.operations = []
  | .aborted reason => reason ≠ untracked ∧ reason ≠ waitWithStaged
  | _ => True

/-- 表は正しく、位置ごとの条件が成り立つ。 -/
structure Sound (s : TableState α) : Prop where
  tracked : Tracked s
  safe : PcSafe s

namespace Sound

theorem initial (ownerIndex : α → Nat) : Sound (TableState.initial ownerIndex) :=
  ⟨⟨.nil _, .nil, trivial, rfl⟩, rfl⟩

theorem abort (h : Tracked s) {reason : String} (huntracked : reason ≠ untracked) (hwait : reason ≠ waitWithStaged) :
    Sound (s.abort reason) :=
  ⟨h.setPc _, ⟨huntracked, hwait⟩⟩

theorem callerPc (h : Tracked s) (caller : Caller) : Sound { s with pc := caller.pc } := by
  refine ⟨h.setPc _, ?_⟩
  cases caller <;> trivial

theorem checkLoop (h : Sound s) (hpc : s.pc = .loop) : Sound s.checkLoop := by
  have hstaged : s.stagedSqeCount = 0 := by
    have hsafe := h.safe
    rwa [PcSafe, hpc] at hsafe
  rw [TableState.checkLoop]
  split
  next =>
    rw [if_neg (not_not_intro hstaged)]
    exact ⟨h.tracked.setPc _, hstaged⟩
  next hexit =>
    rw [not_or, not_not] at hexit
    exact ⟨h.tracked.setPc _, hexit.2⟩

theorem endHandler (h : Tracked s) (ringEntries processed : Nat) : Sound (s.endHandler ringEntries processed) := by
  rw [TableState.endHandler]
  split <;> exact ⟨h.setPc _, trivial⟩

theorem endSubmit (h : Sound s) {back : SubmitReturn α} (hpc : s.pc = .submit back) (hstaged : s.stagedSqeCount = 0) :
    Sound (s.endSubmit back) := by
  cases back with
  | acquireSqe operation caller =>
      have hsafe := h.safe
      rw [PcSafe, hpc] at hsafe
      exact ⟨h.tracked.setPc _, hsafe⟩
  | cancel caller => exact .callerPc h.tracked caller
  | turn => exact ⟨h.tracked.setPc _, hstaged⟩

theorem submitStep (h : Sound s) {back : SubmitReturn α} (hpc : s.pc = .submit back) (result : SubmitResult) :
    Sound (s.submitStep back result) := by
  cases result with
  | interrupted => exact h
  | failed caught =>
      cases caught with
      | false => exact .abort h.tracked (by decide) (by decide)
      | true =>
          cases back with
          | acquireSqe operation caller => exact .callerPc h.tracked caller
          | cancel caller => exact .callerPc h.tracked caller
          | turn => exact .abort h.tracked (by decide) (by decide)
  | submitted count =>
      rw [TableState.submitStep]
      split
      · exact .abort h.tracked (by decide) (by decide)
      split
      · exact .abort h.tracked (by decide) (by decide)
      refine ⟨h.tracked.submitted count, ?_⟩
      have hsafe := h.safe
      rw [PcSafe, hpc] at hsafe ⊢
      cases back <;> exact hsafe

variable [DecidableEq α]

theorem stage (h : Tracked s) {operation : Operation α} (hfresh : operation.address ∉ s.operations) (caller : Caller) :
    Sound (s.stage operation caller) := by
  have hstaged := h.stageOperation hfresh
  rw [TableState.stage]
  split
  · exact ⟨hstaged.setPc _, trivial⟩
  · exact .callerPc hstaged caller

theorem getSqe (h : Tracked s) {operation : Operation α} (hfresh : operation.address ∉ s.operations) (caller : Caller)
    (ringEntries : Nat) : Sound (s.getSqe ringEntries operation caller) := by
  rw [TableState.getSqe]
  split
  · exact .stage h hfresh caller
  split
  · exact ⟨h.setPc _, hfresh⟩
  · exact .abort h (by decide) (by decide)

theorem retrySqe (h : Tracked s) {operation : Operation α} (hfresh : operation.address ∉ s.operations) (caller : Caller)
    (ringEntries : Nat) : Sound (s.retrySqe ringEntries operation caller) := by
  rw [TableState.retrySqe]
  split
  · exact .stage h hfresh caller
  · exact .abort h (by decide) (by decide)

omit [DecidableEq α] in
theorem beginStage (h : Sound s) {operation : Operation α} (hfresh : operation.address ∉ s.operations) :
    Sound (s.beginStage operation) := by
  rw [TableState.beginStage]
  split
  · exact ⟨h.tracked.setPc _, hfresh⟩
  · exact h

theorem next (h : Sound s) {a : TableAct α} (ha : s.enabled a) (ringEntries : Nat) :
    Sound (s.next ringEntries a) := by
  cases a with
  | kernelMore address => exact ⟨h.tracked.kernelMore ha.1 ha.2, h.safe⟩
  | kernelFinal address => exact ⟨h.tracked.kernelFinal ha, h.safe⟩
  | requestStop => exact ⟨⟨h.tracked.indexed, h.tracked.owned, h.tracked.followed, h.tracked.staged⟩, h.safe⟩
  | run address =>
      have hpc : s.pc = .unstarted := ha
      have hsafe := h.safe
      rw [PcSafe, hpc] at hsafe
      exact ⟨h.tracked.setPc _, show address ∉ s.operations by rw [hsafe]; exact List.not_mem_nil⟩
  | getSqe =>
      rcases LoopPc.isAcquiring_iff.mp ha with ⟨operation, caller, hpc⟩ | ⟨operation, caller, hpc⟩
      · have hsafe := h.safe
        rw [PcSafe, hpc] at hsafe
        rw [TableState.next, hpc]
        exact .getSqe h.tracked hsafe caller ringEntries
      · have hsafe := h.safe
        rw [PcSafe, hpc] at hsafe
        rw [TableState.next, hpc]
        exact .retrySqe h.tracked hsafe caller ringEntries
  | submit result =>
      obtain ⟨back, hpc⟩ := LoopPc.isSubmitting_iff.mp ha.1
      rw [TableState.next, hpc]
      exact h.submitStep hpc result
  | endSubmit =>
      obtain ⟨back, hpc⟩ := LoopPc.isSubmitting_iff.mp ha.1
      rw [TableState.next, hpc]
      exact h.endSubmit hpc ha.2
  | checkLoop => exact h.checkLoop ha
  | waitCqe => exact ⟨h.tracked.setPc _, trivial⟩
  | waitInterrupted =>
      have hpc : s.pc = .wait := ha
      have hsafe := h.safe
      rw [PcSafe, hpc] at hsafe
      exact ⟨h.tracked.setPc _, hsafe⟩
  | processCqe =>
      obtain ⟨processed, hpc⟩ := LoopPc.isProcessing_iff.mp ha
      cases hcqes : s.cqes with
      | nil =>
          rw [TableState.next, hpc, hcqes]
          exact h
      | cons cqe rest =>
          obtain ⟨htracked, hhandler⟩ := h.tracked.processCqe hcqes processed
          rw [TableState.next, hpc, hcqes]
          exact ⟨htracked, by rw [PcSafe, hhandler]; trivial⟩
  | tryStart address multishot => exact h.beginStage ha.2.2
  | cancelFd address => exact h.beginStage ha.2
  | stageWakeupPoll address => exact h.beginStage ha.2.2
  | endHandler =>
      obtain ⟨category, hcategory⟩ := Option.isSome_iff_exists.mp ha
      obtain ⟨processed, hpc⟩ := LoopPc.handling_eq_some.mp hcategory
      rw [TableState.next, hpc]
      exact .endHandler h.tracked ringEntries processed

end Sound

theorem reachable_sound [DecidableEq α] {ringEntries : Nat} (h : (operationTable α ringEntries).Reachable s) : Sound s := by
  refine h.invariant (I := Sound) ?_ fun _ _ _ hs ha _ => hs.next ha ringEntries
  rintro _ ⟨ownerIndex, rfl⟩
  exact .initial ownerIndex

end TableState

end Xrpc.Io
