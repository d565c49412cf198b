import Xrpc.Lib.Machine

/-!
# 共有するソケットと、使い回される記述子の番号

接続の口ごとに高々一つのソケットがあり、書き手は排他の区間の中で番号を写し取って、フレームを何回かに分けて書く。番号は、閉じた
後の任意のソケットに再び割り当てられる。
-/

namespace Xrpc.Lib.SharedSocket
open Function

/-- 書き手の段階。`holding fd g written` は、世代 `g` から写した番号 `fd` に `written` だけ書いたことを表す。 -/
inductive Writer where
  | idle
  | opening (fd g : Nat)
  | locked
  | holding (fd g written : Nat)
  | broken
  | shut
  deriving DecidableEq

/-- 排他の区間にいるか。 -/
def Writer.writing : Writer → Bool
  | .locked | .holding _ _ _ | .broken | .shut => true
  | _ => false

/-- 読み手の段階。`live` の間は、接続したときの番号を写し持っている。 -/
inductive Reader where
  | unborn
  | live
  | gone
  deriving DecidableEq

/-- 書き手ごとの接続の口とフレーム。 -/
structure Layout (τ ι β : Type) where
  home : ι → τ
  frame : ι → List β

/-- `fds` は番号の割り当てである。接続の世代は作るたびに新しくなる。`log` は、番号を得た世代と、操作が働いた世代の組の
記録である。 -/
structure State (τ ι β : Type) where
  fds : Nat → Option Nat
  nextConn : Nat
  connHome : Nat → τ
  connFd : Nat → Nat
  socket : τ → Option (Nat × Nat)
  writer : ι → Writer
  reader : Nat → Reader
  sent : Nat → List (ι × β)
  log : List (Nat × Nat)

inductive Act (τ ι : Type) where
  | openSocket (i : ι) (fd : Nat)
  | discard (i : ι) (fd g : Nat)
  | establish (i : ι) (fd g : Nat)
  | lock (i : ι)
  | unlock (i : ι)
  | copy (i : ι) (fd g : Nat)
  | drop (i : ι) (fd g : Nat)
  | send (i : ι) (fd g written n actual : Nat)
  | finish (i : ι) (fd g written actual : Nat)
  | failSend (i : ι) (fd g written : Nat)
  | shutOpen (i : ι) (fd g : Nat)
  | shutClosed (i : ι)
  | leave (i : ι)
  | close (t : τ) (fd g : Nat)
  | readerClose (g actual : Nat)
  | readerSkip (g : Nat)
  | recv (g actual : Nat)

variable {τ ι β : Type} [DecidableEq τ] [DecidableEq ι]

def enabled (L : Layout τ ι β) (s : State τ ι β) : Act τ ι → Prop
  | .openSocket i fd =>
      s.writer i = .idle ∧ s.fds fd = none ∧ s.socket (L.home i) = none ∧
        ∀ j fd' g, L.home j = L.home i → s.writer j ≠ .opening fd' g
  | .discard i fd g => s.writer i = .opening fd g
  | .establish i fd g => s.writer i = .opening fd g
  | .lock i => s.writer i = .idle ∧ ∀ j, L.home j = L.home i → ¬ (s.writer j).writing
  | .unlock i => s.writer i = .locked
  | .copy i fd g => s.writer i = .locked ∧ s.socket (L.home i) = some (fd, g)
  | .drop i fd g => s.writer i = .holding fd g 0
  | .send i fd g written n actual =>
      s.writer i = .holding fd g written ∧ s.fds fd = some actual ∧ 0 < n ∧ written + n < (L.frame i).length
  | .finish i fd g written actual =>
      s.writer i = .holding fd g written ∧ s.fds fd = some actual ∧ written < (L.frame i).length
  | .failSend i fd g written => s.writer i = .holding fd g written
  | .shutOpen i fd g => s.writer i = .broken ∧ s.socket (L.home i) = some (fd, g)
  | .shutClosed i => s.writer i = .broken ∧ s.socket (L.home i) = none
  | .leave i => s.writer i = .shut
  | .close t fd g => s.socket t = some (fd, g)
  | .readerClose g actual => s.reader g = .live ∧ s.socket (s.connHome g) = some (s.connFd g, actual)
  | .readerSkip g => s.reader g = .live
  | .recv g actual => s.reader g = .live ∧ s.fds (s.connFd g) = some actual

/-- フレームの途中の一部に、書き手の名を付ける。 -/
def tagged (i : ι) (bytes : List β) : List (ι × β) := bytes.map fun b => (i, b)

def setWriter (s : State τ ι β) (i : ι) (w : Writer) : State τ ι β := { s with writer := update s.writer i w }

def closeSocket (s : State τ ι β) (t : τ) (fd : Nat) : State τ ι β :=
  { s with fds := update s.fds fd none, socket := update s.socket t none }

def write (s : State τ ι β) (i : ι) (bytes : List β) (g actual : Nat) : State τ ι β :=
  { s with sent := update s.sent actual (s.sent actual ++ tagged i bytes), log := s.log ++ [(g, actual)] }

def next (L : Layout τ ι β) (s : State τ ι β) : Act τ ι → State τ ι β
  | .openSocket i fd =>
      { setWriter s i (.opening fd s.nextConn) with
        fds := update s.fds fd (some s.nextConn)
        nextConn := s.nextConn + 1
        connHome := update s.connHome s.nextConn (L.home i)
        connFd := update s.connFd s.nextConn fd }
  | .discard i fd _ => { setWriter s i .idle with fds := update s.fds fd none }
  | .establish i fd g =>
      { setWriter s i .idle with
        socket := update s.socket (L.home i) (some (fd, g))
        reader := update s.reader g .live }
  | .lock i => setWriter s i .locked
  | .unlock i => setWriter s i .idle
  | .copy i fd g => setWriter s i (.holding fd g 0)
  | .drop i _ _ => setWriter s i .locked
  | .send i fd g written n actual =>
      write (setWriter s i (.holding fd g (written + n))) i (((L.frame i).drop written).take n) g actual
  | .finish i _ g written actual => write (setWriter s i .idle) i ((L.frame i).drop written) g actual
  | .failSend i _ _ _ => setWriter s i .broken
  | .shutOpen i fd _ => setWriter (closeSocket s (L.home i) fd) i .shut
  | .shutClosed i => setWriter s i .shut
  | .leave i => setWriter s i .idle
  | .close t fd _ => closeSocket s t fd
  | .readerClose g actual =>
      { closeSocket s (s.connHome g) (s.connFd g) with
        reader := update s.reader g .gone
        log := s.log ++ [(g, actual)] }
  | .readerSkip g => { s with reader := update s.reader g .gone }
  | .recv g actual => { s with log := s.log ++ [(g, actual)] }

def init (s : State τ ι β) : Prop :=
  (∀ fd, s.fds fd = none) ∧ (∀ t, s.socket t = none) ∧ (∀ i, s.writer i = .idle) ∧ (∀ g, s.reader g = .unborn) ∧
    (∀ g, s.sent g = []) ∧ s.log = []

def machine (L : Layout τ ι β) : Machine (State τ ι β) (Act τ ι) where
  init := init
  enabled := enabled L
  next := next L

/-- 新しいソケットの番号は、書き手も読み手も写し持っていない番号である。 -/
def FreshFd (s : State τ ι β) : Act τ ι → Prop
  | .openSocket _ fd => (∀ i g written, s.writer i ≠ .holding fd g written) ∧ ∀ g, s.reader g = .live → s.connFd g ≠ fd
  | _ => True

/-! ## 番号の割り当て -/

variable {L : Layout τ ι β} {s : State τ ι β}

/-- 割り当てのある番号は、ちょうど一つの接続のものであり、その接続は口のソケットか、作っている途中のものである。 -/
structure Kernel (L : Layout τ ι β) (s : State τ ι β) : Prop where
  fds_lt : ∀ fd g, s.fds fd = some g → g < s.nextConn
  fds_fd : ∀ fd g, s.fds fd = some g → s.connFd g = fd
  socket_fds : ∀ t fd g, s.socket t = some (fd, g) → s.fds fd = some g
  socket_home : ∀ t fd g, s.socket t = some (fd, g) → s.connHome g = t
  socket_born : ∀ t fd g, s.socket t = some (fd, g) → s.reader g ≠ .unborn
  opening_fds : ∀ i fd g, s.writer i = .opening fd g → s.fds fd = some g
  opening_home : ∀ i fd g, s.writer i = .opening fd g → s.connHome g = L.home i
  opening_unborn : ∀ i fd g, s.writer i = .opening fd g → s.reader g = .unborn
  opening_socket : ∀ i fd g, s.writer i = .opening fd g → s.socket (L.home i) = none
  opening_unique : ∀ i j fd g fd' g', s.writer i = .opening fd g → s.writer j = .opening fd' g' →
    L.home i = L.home j → i = j
  alive : ∀ fd g, s.fds fd = some g →
    s.socket (s.connHome g) = some (fd, g) ∨ ∃ i, s.writer i = .opening fd g
  fresh : ∀ g, s.nextConn ≤ g → s.reader g = .unborn

namespace Kernel

omit [DecidableEq τ] [DecidableEq ι] in
theorem init (h : init s) : Kernel L s := by
  obtain ⟨hfds, hsocket, hwriter, hreader, _, _⟩ := h
  constructor <;> simp [hfds, hsocket, hwriter, hreader]

omit [DecidableEq τ] in
/-- 接続を作る途中でない書き手が、作る途中でない段階へ移る。 -/
theorem setWriter (h : Kernel L s) {i : ι} {w : Writer} (hold : ∀ fd g, s.writer i ≠ .opening fd g)
    (hnew : ∀ fd g, w ≠ .opening fd g) : Kernel L (setWriter s i w) := by
  have hmem : ∀ j fd g, (SharedSocket.setWriter s i w).writer j = .opening fd g → s.writer j = .opening fd g := by
    intro j fd g hj
    by_cases hji : j = i
    · subst hji
      exact absurd ((update_self _ _ _).symm.trans hj) (hnew fd g)
    · exact (update_of_ne hji _ _).symm.trans hj
  refine { h with opening_fds := ?_, opening_home := ?_, opening_unborn := ?_, opening_socket := ?_,
                  opening_unique := ?_, alive := ?_ }
  · exact fun j fd g hj => h.opening_fds j fd g (hmem j fd g hj)
  · exact fun j fd g hj => h.opening_home j fd g (hmem j fd g hj)
  · exact fun j fd g hj => h.opening_unborn j fd g (hmem j fd g hj)
  · exact fun j fd g hj => h.opening_socket j fd g (hmem j fd g hj)
  · exact fun j k fd g fd' g' hj hk => h.opening_unique j k fd g fd' g' (hmem j fd g hj) (hmem k fd' g' hk)
  · intro fd g hfd
    rcases h.alive fd g hfd with hsocket | ⟨j, hj⟩
    · exact .inl hsocket
    · have hji : j ≠ i := by rintro rfl; exact hold fd g hj
      exact .inr ⟨j, (update_of_ne hji _ _).trans hj⟩

/-- 割り当てのない番号に、新しい接続を作る。 -/
theorem openSocket (h : Kernel L s) {i : ι} {fd : Nat} (hb : enabled L s (.openSocket i fd)) :
    Kernel L (next L s (.openSocket i fd)) := by
  obtain ⟨hidle, hfree, hsocket, hnone⟩ := hb
  have hlt : ∀ fd' g, s.fds fd' = some g → g ≠ s.nextConn := fun fd' g hg => Nat.ne_of_lt (h.fds_lt fd' g hg)
  have hne : ∀ fd' g, s.fds fd' = some g → fd' ≠ fd := by
    rintro fd' g hg rfl
    rw [hfree] at hg
    cases hg
  have hwriter : ∀ j fd' g, (next L s (.openSocket i fd)).writer j = .opening fd' g →
      (j = i ∧ fd' = fd ∧ g = s.nextConn) ∨ (j ≠ i ∧ s.writer j = .opening fd' g) := by
    intro j fd' g hj
    by_cases hji : j = i
    · subst hji
      have := (update_self _ _ _).symm.trans hj
      cases this
      exact .inl ⟨rfl, rfl, rfl⟩
    · exact .inr ⟨hji, (update_of_ne hji _ _).symm.trans hj⟩
  have hfds : ∀ fd' g, (next L s (.openSocket i fd)).fds fd' = some g →
      (fd' = fd ∧ g = s.nextConn) ∨ s.fds fd' = some g := by
    intro fd' g hg
    by_cases hfd : fd' = fd
    · subst hfd
      have := (update_self _ _ _).symm.trans hg
      cases this
      exact .inl ⟨rfl, rfl⟩
    · exact .inr ((update_of_ne hfd _ _).symm.trans hg)
  constructor
  · intro fd' g hg
    rcases hfds fd' g hg with ⟨_, rfl⟩ | hg
    · exact Nat.lt_succ_self _
    · exact (h.fds_lt fd' g hg).trans (Nat.lt_succ_self _)
  · intro fd' g hg
    rcases hfds fd' g hg with ⟨rfl, rfl⟩ | hg
    · exact update_self _ _ _
    · exact (update_of_ne (hlt fd' g hg) _ _).trans (h.fds_fd fd' g hg)
  · intro t fd' g ht
    have hg := h.socket_fds t fd' g ht
    exact (update_of_ne (hne fd' g hg) _ _).trans hg
  · intro t fd' g ht
    exact (update_of_ne (hlt fd' g (h.socket_fds t fd' g ht)) _ _).trans (h.socket_home t fd' g ht)
  · exact h.socket_born
  · intro j fd' g hj
    rcases hwriter j fd' g hj with ⟨rfl, rfl, rfl⟩ | ⟨_, hj⟩
    · exact update_self _ _ _
    · have hg := h.opening_fds j fd' g hj
      exact (update_of_ne (hne fd' g hg) _ _).trans hg
  · intro j fd' g hj
    rcases hwriter j fd' g hj with ⟨rfl, rfl, rfl⟩ | ⟨_, hj⟩
    · exact update_self _ _ _
    · exact (update_of_ne (hlt fd' g (h.opening_fds j fd' g hj)) _ _).trans (h.opening_home j fd' g hj)
  · intro j fd' g hj
    rcases hwriter j fd' g hj with ⟨rfl, rfl, rfl⟩ | ⟨_, hj⟩
    · exact h.fresh _ (Nat.le_refl _)
    · exact h.opening_unborn j fd' g hj
  · intro j fd' g hj
    rcases hwriter j fd' g hj with ⟨rfl, rfl, rfl⟩ | ⟨_, hj⟩
    · exact hsocket
    · exact h.opening_socket j fd' g hj
  · intro j k fd' g' fd'' g'' hj hk hhome
    rcases hwriter j fd' g' hj with ⟨rfl, _, _⟩ | ⟨_, hold⟩ <;> rcases hwriter k fd'' g'' hk with ⟨rfl, _, _⟩ | ⟨_, hold'⟩
    · rfl
    · exact absurd hold' (hnone k fd'' g'' hhome.symm)
    · exact absurd hold (hnone j fd' g' hhome)
    · exact h.opening_unique j k fd' g' fd'' g'' hold hold' hhome
  · intro fd' g hg
    rcases hfds fd' g hg with ⟨rfl, rfl⟩ | hg
    · exact .inr ⟨i, update_self _ _ _⟩
    · have hhome : (next L s (.openSocket i fd)).connHome g = s.connHome g := update_of_ne (hlt fd' g hg) _ _
      rw [hhome]
      refine (h.alive fd' g hg).imp id ?_
      rintro ⟨j, hj⟩
      have hji : j ≠ i := by rintro rfl; rw [hidle] at hj; cases hj
      exact ⟨j, (update_of_ne hji _ _).trans hj⟩
  · exact fun g hg => h.fresh g ((Nat.le_succ _).trans hg)

omit [DecidableEq ι] in
/-- 口のソケットを閉じる。 -/
theorem closeSocket (h : Kernel L s) {t : τ} {fd g : Nat} (ht : s.socket t = some (fd, g)) :
    Kernel L (closeSocket s t fd) := by
  have hfd := h.socket_fds t fd g ht
  have hfds : ∀ fd' g', (SharedSocket.closeSocket s t fd).fds fd' = some g' → fd' ≠ fd ∧ s.fds fd' = some g' := by
    intro fd' g' hg
    by_cases hfd' : fd' = fd
    · subst hfd'
      exact absurd ((update_self _ _ _).symm.trans hg) (by simp)
    · exact ⟨hfd', (update_of_ne hfd' _ _).symm.trans hg⟩
  have hsocket : ∀ t' fd' g', (SharedSocket.closeSocket s t fd).socket t' = some (fd', g') →
      t' ≠ t ∧ s.socket t' = some (fd', g') := by
    intro t' fd' g' hs
    by_cases ht' : t' = t
    · subst ht'
      exact absurd ((update_self _ _ _).symm.trans hs) (by simp)
    · exact ⟨ht', (update_of_ne ht' _ _).symm.trans hs⟩
  have hopening : ∀ i fd' g', s.writer i = .opening fd' g' → fd' ≠ fd := by
    rintro i fd' g' hi rfl
    have heq := (h.opening_fds i fd' g' hi).symm.trans hfd
    cases heq
    exact h.socket_born t fd' g ht (h.opening_unborn i fd' g hi)
  refine { h with fds_lt := ?_, fds_fd := ?_, socket_fds := ?_, socket_home := ?_, socket_born := ?_,
                  opening_fds := ?_, opening_socket := ?_, alive := ?_ }
  · exact fun fd' g' hg => h.fds_lt fd' g' (hfds fd' g' hg).2
  · exact fun fd' g' hg => h.fds_fd fd' g' (hfds fd' g' hg).2
  · intro t' fd' g' hs
    obtain ⟨hne, hold⟩ := hsocket t' fd' g' hs
    have hg := h.socket_fds t' fd' g' hold
    have hfd' : fd' ≠ fd := by
      rintro rfl
      have heq := hg.symm.trans hfd
      cases heq
      exact hne ((h.socket_home t' fd' g hold).symm.trans (h.socket_home t fd' g ht))
    exact (update_of_ne hfd' _ _).trans hg
  · exact fun t' fd' g' hs => h.socket_home t' fd' g' (hsocket t' fd' g' hs).2
  · exact fun t' fd' g' hs => h.socket_born t' fd' g' (hsocket t' fd' g' hs).2
  · exact fun i fd' g' hi => (update_of_ne (hopening i fd' g' hi) _ _).trans (h.opening_fds i fd' g' hi)
  · intro i fd' g' hi
    by_cases hhome : L.home i = t
    · rw [hhome]; exact update_self _ _ _
    · exact (update_of_ne hhome _ _).trans (h.opening_socket i fd' g' hi)
  · intro fd' g' hg
    obtain ⟨hne, hg⟩ := hfds fd' g' hg
    refine (h.alive fd' g' hg).imp (fun hs => ?_) id
    have hhome : s.connHome g' ≠ t := by
      intro hhome
      rw [hhome, ht] at hs
      cases hs
      exact hne rfl
    exact (update_of_ne hhome _ _).trans hs

omit [DecidableEq τ] [DecidableEq ι] in
theorem setReader (h : Kernel L s) {g : Nat} (hg : s.reader g = .live) :
    Kernel L { s with reader := update s.reader g .gone } := by
  have hborn : ∀ g', update s.reader g .gone g' = .unborn ↔ s.reader g' = .unborn := by
    intro g'
    by_cases hgg : g' = g
    · subst hgg; simp [hg]
    · rw [update_of_ne hgg]
  exact { h with
    socket_born := fun t fd g' ht hu => h.socket_born t fd g' ht ((hborn g').mp hu)
    opening_unborn := fun i fd g' hi => (hborn g').mpr (h.opening_unborn i fd g' hi)
    fresh := fun g' hg' => (hborn g').mpr (h.fresh g' hg') }

omit [DecidableEq τ] [DecidableEq ι] in
/-- 作っている途中の接続は、口のソケットではない。 -/
theorem opening_ne_socket (h : Kernel L s) {i : ι} {t : τ} {fd g fd' g' : Nat} (hi : s.writer i = .opening fd g)
    (ht : s.socket t = some (fd', g')) : fd' ≠ fd := by
  rintro rfl
  have heq := (h.socket_fds t fd' g' ht).symm.trans (h.opening_fds i fd' g hi)
  cases heq
  exact h.socket_born t fd' g ht (h.opening_unborn i fd' g hi)

omit [DecidableEq τ] [DecidableEq ι] in
theorem opening_fd_unique (h : Kernel L s) {i j : ι} {fd g g' : Nat} (hi : s.writer i = .opening fd g)
    (hj : s.writer j = .opening fd g') : j = i := by
  have heq := (h.opening_fds j fd g' hj).symm.trans (h.opening_fds i fd g hi)
  cases heq
  exact h.opening_unique j i fd g fd g hj hi ((h.opening_home j fd g hj).symm.trans (h.opening_home i fd g hi))

/-- 作っている途中の接続を捨てる。 -/
theorem discard (h : Kernel L s) {i : ι} {fd g : Nat} (hi : s.writer i = .opening fd g) :
    Kernel L (next L s (.discard i fd g)) := by
  have hfds : ∀ fd' g', (next L s (.discard i fd g)).fds fd' = some g' → fd' ≠ fd ∧ s.fds fd' = some g' := by
    intro fd' g' hg
    by_cases hfd' : fd' = fd
    · subst hfd'
      exact absurd ((update_self _ _ _).symm.trans hg) (by simp)
    · exact ⟨hfd', (update_of_ne hfd' _ _).symm.trans hg⟩
  have hwriter : ∀ j fd' g', (next L s (.discard i fd g)).writer j = .opening fd' g' →
      j ≠ i ∧ s.writer j = .opening fd' g' := by
    intro j fd' g' hj
    by_cases hji : j = i
    · subst hji
      exact absurd ((update_self _ _ _).symm.trans hj) (by simp)
    · exact ⟨hji, (update_of_ne hji _ _).symm.trans hj⟩
  refine { h with fds_lt := ?_, fds_fd := ?_, socket_fds := ?_, opening_fds := ?_, opening_home := ?_,
                  opening_unborn := ?_, opening_socket := ?_, opening_unique := ?_, alive := ?_ }
  · exact fun fd' g' hg => h.fds_lt fd' g' (hfds fd' g' hg).2
  · exact fun fd' g' hg => h.fds_fd fd' g' (hfds fd' g' hg).2
  · exact fun t fd' g' ht => (update_of_ne (h.opening_ne_socket hi ht) _ _).trans (h.socket_fds t fd' g' ht)
  · intro j fd' g' hj
    obtain ⟨hji, hold⟩ := hwriter j fd' g' hj
    have hfd' : fd' ≠ fd := by rintro rfl; exact hji (h.opening_fd_unique hi hold)
    exact (update_of_ne hfd' _ _).trans (h.opening_fds j fd' g' hold)
  · exact fun j fd' g' hj => h.opening_home j fd' g' (hwriter j fd' g' hj).2
  · exact fun j fd' g' hj => h.opening_unborn j fd' g' (hwriter j fd' g' hj).2
  · exact fun j fd' g' hj => h.opening_socket j fd' g' (hwriter j fd' g' hj).2
  · exact fun j k fd' g' fd'' g'' hj hk =>
      h.opening_unique j k fd' g' fd'' g'' (hwriter j fd' g' hj).2 (hwriter k fd'' g'' hk).2
  · intro fd' g' hg
    obtain ⟨hne, hg⟩ := hfds fd' g' hg
    refine (h.alive fd' g' hg).imp id ?_
    rintro ⟨j, hj⟩
    have hji : j ≠ i := by
      rintro rfl
      have := hi.symm.trans hj
      cases this
      exact hne rfl
    exact ⟨j, (update_of_ne hji _ _).trans hj⟩

/-- 作り終えた接続を、口のソケットにする。 -/
theorem establish (h : Kernel L s) {i : ι} {fd g : Nat} (hi : s.writer i = .opening fd g) :
    Kernel L (next L s (.establish i fd g)) := by
  have hfd := h.opening_fds i fd g hi
  have hwriter : ∀ j fd' g', (next L s (.establish i fd g)).writer j = .opening fd' g' →
      j ≠ i ∧ s.writer j = .opening fd' g' := by
    intro j fd' g' hj
    by_cases hji : j = i
    · subst hji
      exact absurd ((update_self _ _ _).symm.trans hj) (by simp)
    · exact ⟨hji, (update_of_ne hji _ _).symm.trans hj⟩
  have hsocket : ∀ t fd' g', (next L s (.establish i fd g)).socket t = some (fd', g') →
      (t = L.home i ∧ fd' = fd ∧ g' = g) ∨ s.socket t = some (fd', g') := by
    intro t fd' g' ht
    by_cases hhome : t = L.home i
    · subst hhome
      have := (update_self _ _ _).symm.trans ht
      cases this
      exact .inl ⟨rfl, rfl, rfl⟩
    · exact .inr ((update_of_ne hhome _ _).symm.trans ht)
  refine { h with socket_fds := ?_, socket_home := ?_, socket_born := ?_, opening_fds := ?_, opening_home := ?_,
                  opening_unborn := ?_, opening_socket := ?_, opening_unique := ?_, alive := ?_, fresh := ?_ }
  · intro t fd' g' ht
    rcases hsocket t fd' g' ht with ⟨_, rfl, rfl⟩ | ht
    · exact hfd
    · exact h.socket_fds t fd' g' ht
  · intro t fd' g' ht
    rcases hsocket t fd' g' ht with ⟨rfl, rfl, rfl⟩ | ht
    · exact h.opening_home i fd' g' hi
    · exact h.socket_home t fd' g' ht
  · intro t fd' g' ht hu
    by_cases hg : g' = g
    · subst hg
      exact absurd ((update_self _ _ _).symm.trans hu) (by simp)
    · rcases hsocket t fd' g' ht with ⟨_, _, rfl⟩ | ht
      · exact hg rfl
      · exact h.socket_born t fd' g' ht ((update_of_ne hg _ _).symm.trans hu)
  · exact fun j fd' g' hj => h.opening_fds j fd' g' (hwriter j fd' g' hj).2
  · exact fun j fd' g' hj => h.opening_home j fd' g' (hwriter j fd' g' hj).2
  · intro j fd' g' hj
    obtain ⟨hji, hold⟩ := hwriter j fd' g' hj
    have hg : g' ≠ g := by
      rintro rfl
      exact hji (h.opening_unique j i fd' g' fd g' hold hi
        ((h.opening_home j fd' g' hold).symm.trans (h.opening_home i fd g' hi)))
    exact (update_of_ne hg _ _).trans (h.opening_unborn j fd' g' hold)
  · intro j fd' g' hj
    obtain ⟨hji, hj⟩ := hwriter j fd' g' hj
    have hhome : L.home j ≠ L.home i := fun hhome => hji (h.opening_unique j i fd' g' fd g hj hi hhome)
    exact (update_of_ne hhome _ _).trans (h.opening_socket j fd' g' hj)
  · exact fun j k fd' g' fd'' g'' hj hk =>
      h.opening_unique j k fd' g' fd'' g'' (hwriter j fd' g' hj).2 (hwriter k fd'' g'' hk).2
  · intro fd' g' hg
    rcases h.alive fd' g' hg with ht | ⟨j, hj⟩
    · have hhome : s.connHome g' ≠ L.home i := by
        intro hhome
        rw [hhome, h.opening_socket i fd g hi] at ht
        cases ht
      exact .inl ((update_of_ne hhome _ _).trans ht)
    · by_cases hji : j = i
      · subst hji
        have := hi.symm.trans hj
        cases this
        left
        show update s.socket (L.home j) (some (fd, g)) (s.connHome g) = _
        rw [h.opening_home j fd g hi]
        exact update_self _ _ _
      · exact .inr ⟨j, (update_of_ne hji _ _).trans hj⟩
  · intro g' hg'
    have hne : g' ≠ g := by rintro rfl; exact absurd (h.fds_lt fd g' hfd) (Nat.not_lt.mpr hg')
    exact (update_of_ne hne _ _).trans (h.fresh g' hg')

/-- 書き手だけが動く動作と、記録だけを足す動作は、割り当てに関わらない。 -/
theorem step (h : Kernel L s) {b : Act τ ι} (hb : enabled L s b) : Kernel L (next L s b) := by
  cases b with
  | openSocket i fd => exact h.openSocket hb
  | discard i fd g => exact h.discard hb
  | establish i fd g => exact h.establish hb
  | lock i => exact h.setWriter (by simp [hb.1]) (by simp)
  | unlock i => exact h.setWriter (by simp [show s.writer i = _ from hb]) (by simp)
  | copy i fd g => exact h.setWriter (by simp [hb.1]) (by simp)
  | drop i fd g => exact h.setWriter (by simp [show s.writer i = _ from hb]) (by simp)
  | send i fd g written n actual =>
      have := h.setWriter (w := .holding fd g (written + n)) (i := i) (by simp [hb.1]) (by simp)
      exact { this with }
  | finish i fd g written actual =>
      have := h.setWriter (w := .idle) (i := i) (by simp [hb.1]) (by simp)
      exact { this with }
  | failSend i fd g written => exact h.setWriter (by simp [show s.writer i = _ from hb]) (by simp)
  | shutOpen i fd g =>
      have hwriter : s.writer i = .broken := hb.1
      exact (h.closeSocket hb.2).setWriter (by simp [SharedSocket.closeSocket, hwriter]) (by simp)
  | shutClosed i => exact h.setWriter (by simp [hb.1]) (by simp)
  | leave i => exact h.setWriter (by simp [show s.writer i = _ from hb]) (by simp)
  | close t fd g => exact h.closeSocket hb
  | readerClose g actual =>
      have := (h.closeSocket hb.2).setReader (g := g) hb.1
      exact { this with }
  | readerSkip g => exact h.setReader hb
  | recv g actual => exact { h with }

end Kernel

/-! ## 排他 -/

/-- 一つの口の排他の区間には、高々一人の書き手しかいない。 -/
def Solo (L : Layout τ ι β) (s : State τ ι β) : Prop :=
  ∀ i j, (s.writer i).writing → (s.writer j).writing → L.home i = L.home j → i = j

namespace Solo

omit [DecidableEq τ] [DecidableEq ι] in
theorem init (h : init s) : Solo L s := by
  intro i j hi
  simp [h.2.2.1, Writer.writing] at hi

omit [DecidableEq τ] in
theorem setWriter (h : Solo L s) {i : ι} {w : Writer} (hw : w.writing → (s.writer i).writing) :
    Solo L (setWriter s i w) := by
  have hold : ∀ j, ((SharedSocket.setWriter s i w).writer j).writing → (s.writer j).writing := by
    intro j hj
    by_cases hji : j = i
    · subst hji; exact hw ((congrArg Writer.writing (update_self _ _ _)).symm.trans hj)
    · exact (congrArg Writer.writing (update_of_ne hji _ _)).symm.trans hj
  exact fun j k hj hk => h j k (hold j hj) (hold k hk)

omit [DecidableEq τ] in
theorem lock (h : Solo L s) {i : ι} (hfree : ∀ j, L.home j = L.home i → ¬ (s.writer j).writing) :
    Solo L (SharedSocket.setWriter s i .locked) := by
  have hold : ∀ j, j ≠ i → ((SharedSocket.setWriter s i .locked).writer j).writing → (s.writer j).writing :=
    fun j hji hj => (congrArg Writer.writing (update_of_ne hji _ _)).symm.trans hj
  intro j k hj hk hhome
  by_cases hji : j = i <;> by_cases hki : k = i
  · rw [hji, hki]
  · exact absurd (hold k hki hk) (hfree k (by rw [← hhome, hji]))
  · exact absurd (hold j hji hj) (hfree j (by rw [hhome, hki]))
  · exact h j k (hold j hji hj) (hold k hki hk) hhome

theorem step (h : Solo L s) {b : Act τ ι} (hb : enabled L s b) : Solo L (next L s b) := by
  cases b with
  | openSocket i fd => exact h.setWriter (w := .opening fd s.nextConn) (i := i) (by simp [Writer.writing])
  | discard i fd g => exact h.setWriter (w := .idle) (i := i) (by simp [Writer.writing])
  | establish i fd g => exact h.setWriter (w := .idle) (i := i) (by simp [Writer.writing])
  | lock i => exact h.lock hb.2
  | unlock i => exact h.setWriter (by simp [Writer.writing])
  | copy i fd g => exact h.setWriter (by rw [hb.1]; exact id)
  | drop i fd g => exact h.setWriter (by rw [show s.writer i = _ from hb]; exact id)
  | send i fd g written n actual => exact h.setWriter (w := .holding fd g (written + n)) (i := i) (by rw [hb.1]; exact id)
  | finish i fd g written actual => exact h.setWriter (w := .idle) (i := i) (by simp [Writer.writing])
  | failSend i fd g written => exact h.setWriter (by rw [show s.writer i = _ from hb]; exact id)
  | shutOpen i fd g => exact h.setWriter (w := .shut) (i := i) (by rw [hb.1]; exact id)
  | shutClosed i => exact h.setWriter (by rw [hb.1]; exact id)
  | leave i => exact h.setWriter (by simp [Writer.writing])
  | close t fd g => exact h
  | readerClose g actual => exact h
  | readerSkip g => exact h
  | recv g actual => exact h

end Solo

/-! ## 写し取った番号 -/

/-- 写し持つ番号は、その世代のものであり、今の割り当てがあればその世代に割り当てられている。 -/
structure Copies (L : Layout τ ι β) (s : State τ ι β) : Prop where
  writer_lt : ∀ i fd g w, s.writer i = .holding fd g w → g < s.nextConn
  writer_fd : ∀ i fd g w, s.writer i = .holding fd g w → s.connFd g = fd
  writer_home : ∀ i fd g w, s.writer i = .holding fd g w → s.connHome g = L.home i
  writer_born : ∀ i fd g w, s.writer i = .holding fd g w → s.reader g ≠ .unborn
  writer_own : ∀ i fd g w, s.writer i = .holding fd g w → ∀ g', s.fds fd = some g' → g' = g
  reader_lt : ∀ g, s.reader g ≠ .unborn → g < s.nextConn
  reader_own : ∀ g, s.reader g = .live → ∀ g', s.fds (s.connFd g) = some g' → g' = g
  log_own : ∀ e ∈ s.log, e.2 = e.1

namespace Copies

omit [DecidableEq τ] [DecidableEq ι] in
theorem init (h : SharedSocket.init s) : Copies L s := by
  obtain ⟨hfds, _, hwriter, hreader, _, hlog⟩ := h
  constructor <;> simp [hfds, hwriter, hreader, hlog]

omit [DecidableEq τ] in
/-- 書き手が、写しを持たない段階へ移るか、同じ番号を持ち続ける。 -/
theorem setWriter (h : Copies L s) {i : ι} {w : Writer}
    (hw : ∀ fd g n, w = .holding fd g n → ∃ m, s.writer i = .holding fd g m) : Copies L (setWriter s i w) := by
  have hold : ∀ j fd g n, (SharedSocket.setWriter s i w).writer j = .holding fd g n →
      ∃ m, s.writer j = .holding fd g m := by
    intro j fd g n hj
    by_cases hji : j = i
    · subst hji; exact hw fd g n ((update_self _ _ _).symm.trans hj)
    · exact ⟨n, (update_of_ne hji _ _).symm.trans hj⟩
  refine { h with writer_lt := ?_, writer_fd := ?_, writer_home := ?_, writer_born := ?_, writer_own := ?_ }
  · intro j fd g n hj
    obtain ⟨m, hm⟩ := hold j fd g n hj
    exact h.writer_lt j fd g m hm
  · intro j fd g n hj
    obtain ⟨m, hm⟩ := hold j fd g n hj
    exact h.writer_fd j fd g m hm
  · intro j fd g n hj
    obtain ⟨m, hm⟩ := hold j fd g n hj
    exact h.writer_home j fd g m hm
  · intro j fd g n hj
    obtain ⟨m, hm⟩ := hold j fd g n hj
    exact h.writer_born j fd g m hm
  · intro j fd g n hj
    obtain ⟨m, hm⟩ := hold j fd g n hj
    exact h.writer_own j fd g m hm

omit [DecidableEq τ] [DecidableEq ι] in
/-- 割り当てが減るだけなら、写しの正しさは保たれる。 -/
theorem shrink (h : Copies L s) (fds : Nat → Option Nat) (hsub : ∀ fd g, fds fd = some g → s.fds fd = some g) :
    Copies L { s with fds := fds } :=
  { h with
    writer_own := fun i fd g w hi g' hg => h.writer_own i fd g w hi g' (hsub fd g' hg)
    reader_own := fun g hg g' hg' => h.reader_own g hg g' (hsub _ g' hg') }

omit [DecidableEq ι] in
theorem closeSocket (h : Copies L s) (t : τ) (fd : Nat) : Copies L (closeSocket s t fd) := by
  have := h.shrink (update s.fds fd none) (by
    intro fd' g hg
    by_cases hfd : fd' = fd
    · subst hfd
      exact absurd ((update_self _ _ _).symm.trans hg) (by simp)
    · exact (update_of_ne hfd _ _).symm.trans hg)
  exact { this with }

theorem openSocket (h : Copies L s) {i : ι} {fd : Nat} (hfresh : FreshFd s (.openSocket i fd)) :
    Copies L (next L s (.openSocket i fd)) := by
  have hwriter : ∀ j fd' g w, (next L s (.openSocket i fd)).writer j = .holding fd' g w →
      s.writer j = .holding fd' g w := by
    intro j fd' g w hj
    by_cases hji : j = i
    · subst hji
      exact absurd ((update_self _ _ _).symm.trans hj) (by simp)
    · exact (update_of_ne hji _ _).symm.trans hj
  have hne : ∀ g, g < s.nextConn → g ≠ s.nextConn := fun _ hg => Nat.ne_of_lt hg
  refine { h with writer_lt := ?_, writer_fd := ?_, writer_home := ?_, writer_born := ?_, writer_own := ?_,
                  reader_lt := ?_, reader_own := ?_ }
  · exact fun j fd' g w hj => (h.writer_lt j fd' g w (hwriter j fd' g w hj)).trans (Nat.lt_succ_self _)
  · intro j fd' g w hj
    have hold := hwriter j fd' g w hj
    exact (update_of_ne (hne g (h.writer_lt j fd' g w hold)) _ _).trans (h.writer_fd j fd' g w hold)
  · intro j fd' g w hj
    have hold := hwriter j fd' g w hj
    exact (update_of_ne (hne g (h.writer_lt j fd' g w hold)) _ _).trans (h.writer_home j fd' g w hold)
  · exact fun j fd' g w hj => h.writer_born j fd' g w (hwriter j fd' g w hj)
  · intro j fd' g w hj g' hg'
    have hold := hwriter j fd' g w hj
    have hfd : fd' ≠ fd := by rintro rfl; exact hfresh.1 j g w hold
    exact h.writer_own j fd' g w hold g' ((update_of_ne hfd _ _).symm.trans hg')
  · exact fun g hg => (h.reader_lt g hg).trans (Nat.lt_succ_self _)
  · intro g hg g' hg'
    have hlt := h.reader_lt g (by rw [show s.reader g = .live from hg]; simp)
    have hconn : (next L s (.openSocket i fd)).connFd g = s.connFd g := update_of_ne (hne g hlt) _ _
    rw [hconn] at hg'
    exact h.reader_own g hg g' ((update_of_ne (hfresh.2 g hg) _ _).symm.trans hg')

theorem establish (h : Copies L s) (hk : Kernel L s) {i : ι} {fd g : Nat} (hi : s.writer i = .opening fd g) :
    Copies L (next L s (.establish i fd g)) := by
  have hfd := hk.opening_fds i fd g hi
  have hset := h.setWriter (i := i) (w := .idle) (by simp)
  have hborn : ∀ g', s.reader g' ≠ .unborn → update s.reader g .live g' ≠ .unborn := by
    intro g' hg'
    by_cases hgg : g' = g
    · subst hgg; simp
    · rwa [update_of_ne hgg]
  refine { hset with writer_born := ?_, reader_lt := ?_, reader_own := ?_ }
  · exact fun j fd' g' w hj => hborn g' (hset.writer_born j fd' g' w hj)
  · intro g' hg'
    by_cases hgg : g' = g
    · subst hgg; exact hk.fds_lt fd g' hfd
    · exact h.reader_lt g' ((congrArg (· ≠ Reader.unborn) (update_of_ne hgg _ _)).mp hg')
  · intro g' hg' g'' hg''
    by_cases hgg : g' = g
    · subst hgg
      rw [show (next L s (.establish i fd g')).connFd g' = fd from hk.fds_fd fd g' hfd] at hg''
      exact Option.some.inj (hg''.symm.trans hfd)
    · exact h.reader_own g' ((update_of_ne hgg _ _).symm.trans hg') g'' hg''

omit [DecidableEq τ] in
theorem copy (h : Copies L s) (hk : Kernel L s) {i : ι} {fd g : Nat} (ht : s.socket (L.home i) = some (fd, g)) :
    Copies L (SharedSocket.setWriter s i (.holding fd g 0)) := by
  have hfd := hk.socket_fds _ fd g ht
  have hold : ∀ j fd' g' w, (SharedSocket.setWriter s i (.holding fd g 0)).writer j = .holding fd' g' w →
      (j = i ∧ fd' = fd ∧ g' = g) ∨ s.writer j = .holding fd' g' w := by
    intro j fd' g' w hj
    by_cases hji : j = i
    · subst hji
      have := (update_self _ _ _).symm.trans hj
      cases this
      exact .inl ⟨rfl, rfl, rfl⟩
    · exact .inr ((update_of_ne hji _ _).symm.trans hj)
  refine { h with writer_lt := ?_, writer_fd := ?_, writer_home := ?_, writer_born := ?_, writer_own := ?_ }
  · intro j fd' g' w hj
    rcases hold j fd' g' w hj with ⟨_, rfl, rfl⟩ | hj
    · exact hk.fds_lt fd' g' hfd
    · exact h.writer_lt j fd' g' w hj
  · intro j fd' g' w hj
    rcases hold j fd' g' w hj with ⟨_, rfl, rfl⟩ | hj
    · exact hk.fds_fd fd' g' hfd
    · exact h.writer_fd j fd' g' w hj
  · intro j fd' g' w hj
    rcases hold j fd' g' w hj with ⟨rfl, rfl, rfl⟩ | hj
    · exact hk.socket_home _ fd' g' ht
    · exact h.writer_home j fd' g' w hj
  · intro j fd' g' w hj
    rcases hold j fd' g' w hj with ⟨_, rfl, rfl⟩ | hj
    · exact hk.socket_born _ fd' g' ht
    · exact h.writer_born j fd' g' w hj
  · intro j fd' g' w hj g'' hg''
    rcases hold j fd' g' w hj with ⟨_, rfl, rfl⟩ | hj
    · exact Option.some.inj (hg''.symm.trans hfd)
    · exact h.writer_own j fd' g' w hj g'' hg''

omit [DecidableEq τ] [DecidableEq ι] in
/-- 正しい写しで行った操作の記録を足す。 -/
theorem record (h : Copies L s) {g actual : Nat} (heq : actual = g) {sent : Nat → List (ι × β)} :
    Copies L { s with sent := sent, log := s.log ++ [(g, actual)] } :=
  { h with
    log_own := fun e he => by
      rcases List.mem_append.mp he with he | he
      · exact h.log_own e he
      · rw [List.mem_singleton.mp he]; exact heq }

omit [DecidableEq τ] [DecidableEq ι] in
theorem setReader (h : Copies L s) {g : Nat} (hg : s.reader g = .live) :
    Copies L { s with reader := update s.reader g .gone } := by
  have hborn : ∀ g', update s.reader g .gone g' ≠ .unborn ↔ s.reader g' ≠ .unborn := by
    intro g'
    by_cases hgg : g' = g
    · subst hgg; simp [hg]
    · rw [update_of_ne hgg]
  refine { h with writer_born := ?_, reader_lt := ?_, reader_own := ?_ }
  · exact fun j fd g' w hj => (hborn g').mpr (h.writer_born j fd g' w hj)
  · exact fun g' hg' => h.reader_lt g' ((hborn g').mp hg')
  · intro g' hg'
    by_cases hgg : g' = g
    · subst hgg
      exact absurd ((update_self _ _ _).symm.trans hg') (by simp)
    · exact h.reader_own g' ((update_of_ne hgg _ _).symm.trans hg')

theorem step (h : Copies L s) (hk : Kernel L s) {b : Act τ ι} (hb : enabled L s b) (hfresh : FreshFd s b) :
    Copies L (next L s b) := by
  cases b with
  | openSocket i fd => exact h.openSocket hfresh
  | discard i fd g =>
      have := (h.closeSocket (L.home i) fd).setWriter (i := i) (w := .idle) (by simp)
      exact { this with }
  | establish i fd g => exact h.establish hk hb
  | lock i => exact h.setWriter (by simp)
  | unlock i => exact h.setWriter (by simp)
  | copy i fd g => exact h.copy hk hb.2
  | drop i fd g => exact h.setWriter (by simp)
  | send i fd g written n actual =>
      refine (h.setWriter (i := i) (w := .holding fd g (written + n)) ?_).record (h.writer_own i fd g written hb.1 actual hb.2.1)
      rintro fd' g' n' ⟨⟩
      exact ⟨written, hb.1⟩
  | finish i fd g written actual =>
      exact (h.setWriter (i := i) (w := .idle) (by simp)).record (h.writer_own i fd g written hb.1 actual hb.2.1)
  | failSend i fd g written => exact h.setWriter (by simp)
  | shutOpen i fd g => exact (h.closeSocket _ fd).setWriter (by simp)
  | shutClosed i => exact h.setWriter (by simp)
  | leave i => exact h.setWriter (by simp)
  | close t fd g => exact h.closeSocket t fd
  | readerClose g actual =>
      have hown := h.reader_own g hb.1 actual (hk.socket_fds _ _ _ hb.2)
      exact ((h.closeSocket (s.connHome g) (s.connFd g)).setReader (g := g) hb.1).record hown
  | readerSkip g => exact h.setReader hb
  | recv g actual => exact h.record (h.reader_own g hb.1 actual hb.2)

end Copies

/-! ## フレームの区切り -/

def whole (L : Layout τ ι β) (i : ι) : List (ι × β) := tagged i (L.frame i)

theorem countP_tagged (i j : ι) (bytes : List β) :
    (tagged i bytes).countP (fun e => e.1 = j) = if i = j then bytes.length else 0 := by
  induction bytes with
  | nil => simp [tagged]
  | cons b bytes ih =>
      have hcons : tagged i (b :: bytes) = (i, b) :: tagged i bytes := rfl
      rw [hcons, List.countP_cons, ih]
      by_cases hij : i = j <;> simp [hij]

omit [DecidableEq τ] in
/-- 完全なフレームの並びの中で、一つの書き手の書いた量は、その書き手の現れる回数で決まる。 -/
theorem countP_flatMap_whole (L : Layout τ ι β) (done : List ι) (j : ι) :
    (done.flatMap (whole L)).countP (fun e => e.1 = j) = done.count j * (L.frame j).length := by
  induction done with
  | nil => simp
  | cons i done ih =>
      rw [List.flatMap_cons, List.countP_append, ih, whole, countP_tagged, List.count_cons]
      by_cases hij : i = j
      · subst hij
        simp [Nat.add_mul, Nat.add_comm]
      · simp [hij]

/-- `i` は、接続 `g` へフレームを `n` だけ書いたところであるか、書き損じてまだソケットを閉じていない。 -/
def Pending (s : State τ ι β) (i : ι) (g n : Nat) : Prop :=
  (∃ fd, s.writer i = .holding fd g n) ∨ s.writer i = .broken

/-- 接続 `g` に書かれたものは、完全なフレームの並びと、高々一つのフレームの途中までである。途中までのものがあり、接続がまだ
閉じていないなら、その書き手が排他の区間を占めている。 -/
def Framed (L : Layout τ ι β) (s : State τ ι β) (g : Nat) : Prop :=
  ∃ done : List ι,
    (s.sent g = done.flatMap (whole L) ∧ ∀ i fd w, s.writer i = .holding fd g w → w = 0) ∨
    ∃ i n, 0 < n ∧ n < (L.frame i).length ∧ s.connHome g = L.home i ∧ s.reader g ≠ .unborn ∧
      s.sent g = done.flatMap (whole L) ++ tagged i ((L.frame i).take n) ∧
      (s.fds (s.connFd g) = some g → Pending s i g n)

namespace Framed

omit [DecidableEq τ] [DecidableEq ι] in
theorem init (h : SharedSocket.init s) (g : Nat) : Framed L s g :=
  ⟨[], .inl ⟨h.2.2.2.2.1 g, by simp [h.2.2.1]⟩⟩

omit [DecidableEq τ] [DecidableEq ι] in
/-- `g` に何も書かない動作。 -/
theorem of_same {s' : State τ ι β} {g : Nat} (h : Framed L s g) (hsent : s'.sent g = s.sent g)
    (hhome : s.reader g ≠ .unborn → s'.connHome g = s.connHome g) (hborn : s.reader g ≠ .unborn → s'.reader g ≠ .unborn)
    (halive : s.reader g ≠ .unborn → s'.fds (s'.connFd g) = some g → s.fds (s.connFd g) = some g)
    (hclean : ∀ i fd w, s'.writer i = .holding fd g w → w = 0 ∨ s.writer i = .holding fd g w)
    (hpending : ∀ i n, 0 < n → s.connHome g = L.home i → s.reader g ≠ .unborn → s'.fds (s'.connFd g) = some g →
      Pending s i g n → Pending s' i g n) :
    Framed L s' g := by
  obtain ⟨done, ⟨heq, hzero⟩ | ⟨i, n, hpos, hlt, hh, hb, heq, hp⟩⟩ := h
  · refine ⟨done, .inl ⟨hsent.trans heq, ?_⟩⟩
    intro i fd w hi
    rcases hclean i fd w hi with hw | hi
    · exact hw
    · exact hzero i fd w hi
  · refine ⟨done, .inr ⟨i, n, hpos, hlt, (hhome hb).trans hh, hborn hb, hsent.trans heq, ?_⟩⟩
    exact fun hfds => hpending i n hpos hh hb hfds (hp (halive hb hfds))

omit [DecidableEq τ] [DecidableEq ι] in
/-- 途中まで書かれた接続がまだ閉じていないなら、排他の区間にいるのはその書き手だけである。 -/
theorem pending_unique (hsolo : Solo L s) {i j : ι} {g n : Nat} (hj : (s.writer j).writing)
    (hhome : s.connHome g = L.home j) (hi : s.connHome g = L.home i) (hp : Pending s i g n) : j = i := by
  refine hsolo j i hj ?_ (hhome.symm.trans hi)
  rcases hp with ⟨fd, hfd⟩ | hbroken
  · rw [hfd]; rfl
  · rw [hbroken]; rfl

omit [DecidableEq τ] [DecidableEq ι] in
/-- 書き手が正しい写しで書くとき、書いた分だけ途中までの部分が伸びる。 -/
theorem written {g : Nat} (h : Framed L s g) (hsolo : Solo L s) (hcopies : Copies L s) {i : ι} {fd w : Nat}
    (hi : s.writer i = .holding fd g w) (hfds : s.fds fd = some g) :
    ∃ done : List ι, s.sent g = done.flatMap (whole L) ++ tagged i ((L.frame i).take w) := by
  obtain ⟨done, ⟨heq, hzero⟩ | ⟨j, n, hpos, hlt, hh, hb, heq, hp⟩⟩ := h
  · obtain rfl := hzero i fd w hi
    exact ⟨done, by simp [heq, tagged]⟩
  · have hpend := hp (by rw [hcopies.writer_fd i fd g w hi]; exact hfds)
    obtain rfl := pending_unique hsolo (by rw [hi]; rfl) (hcopies.writer_home i fd g w hi) hh hpend
    rcases hpend with ⟨fd', hj⟩ | hbroken
    · have := hi.symm.trans hj
      cases this
      exact ⟨done, heq⟩
    · rw [hi] at hbroken
      cases hbroken

omit [DecidableEq τ] in
theorem setWriter {g : Nat} (h : Framed L s g) {i : ι} {w : Writer}
    (hclean : ∀ fd n, w = .holding fd g n → n = 0 ∨ s.writer i = .holding fd g n)
    (hpending : ∀ n, 0 < n → s.connHome g = L.home i → s.reader g ≠ .unborn → s.fds (s.connFd g) = some g →
      Pending s i g n → (∃ fd, w = .holding fd g n) ∨ w = .broken) :
    Framed L (setWriter s i w) g := by
  refine h.of_same rfl (fun _ => rfl) id (fun _ hfds => hfds) ?_ ?_
  · intro j fd n hj
    by_cases hji : j = i
    · subst hji; exact hclean fd n ((update_self _ _ _).symm.trans hj)
    · exact .inr ((update_of_ne hji _ _).symm.trans hj)
  · intro j n hpos hhome hborn hfds hp
    by_cases hji : j = i
    · subst hji
      simpa only [Pending, SharedSocket.setWriter, update_self] using hpending n hpos hhome hborn hfds hp
    · simpa only [Pending, SharedSocket.setWriter, update_of_ne hji] using hp

omit [DecidableEq τ] in
/-- 途中まで書いていない書き手が、写しを持たない段階へ移る。 -/
theorem setIdle {g : Nat} (h : Framed L s g) {i : ι} {w : Writer} (hw : ∀ fd n, w ≠ .holding fd g n)
    (hi : ∀ n, 0 < n → ¬ Pending s i g n) : Framed L (SharedSocket.setWriter s i w) g :=
  h.setWriter (fun fd n hwn => absurd hwn (hw fd n)) fun n hpos _ _ _ hp => absurd hp (hi n hpos)

omit [DecidableEq τ] [DecidableEq ι] in
theorem shrink {g : Nat} (h : Framed L s g) (fds : Nat → Option Nat) (socket : τ → Option (Nat × Nat))
    (hsub : ∀ fd g', fds fd = some g' → s.fds fd = some g') :
    Framed L { s with fds := fds, socket := socket } g :=
  h.of_same rfl (fun _ => rfl) id (fun _ hfds => hsub _ _ hfds) (fun _ _ _ hi => .inr hi) fun _ _ _ _ _ _ hp => hp

omit [DecidableEq τ] [DecidableEq ι] in
theorem release_sub {fd fd' g : Nat} (hg : update s.fds fd none fd' = some g) : s.fds fd' = some g := by
  by_cases hfd : fd' = fd
  · subst hfd
    exact absurd ((update_self _ _ _).symm.trans hg) (by simp)
  · exact (update_of_ne hfd _ _).symm.trans hg

omit [DecidableEq τ] [DecidableEq ι] in
/-- 口にソケットがなければ、その口の接続はすべて閉じている。 -/
theorem dead_of_no_socket (hk : Kernel L s) {g : Nat} {i : ι} (hhome : s.connHome g = L.home i)
    (hborn : s.reader g ≠ .unborn) (hsocket : s.socket (L.home i) = none) : s.fds (s.connFd g) ≠ some g := by
  intro hfds
  rcases hk.alive _ g hfds with hs | ⟨j, hj⟩
  · rw [hhome, hsocket] at hs
    cases hs
  · exact hborn (hk.opening_unborn j _ g hj)

omit [DecidableEq τ] [DecidableEq ι] in
theorem not_pending {i : ι} {g n : Nat} (hholding : ∀ fd, s.writer i ≠ .holding fd g n) (hbroken : s.writer i ≠ .broken) :
    ¬ Pending s i g n := by
  rintro (⟨fd, hfd⟩ | hb)
  · exact hholding fd hfd
  · exact hbroken hb

omit [DecidableEq τ] in
/-- 他の接続には、何も書かれず、書き手の写しも関わらない。 -/
theorem write_other {g : Nat} (h : Framed L s g) {i : ι} {fd g₀ w : Nat} {w' : Writer}
    (hi : s.writer i = .holding fd g₀ w) (hg : g ≠ g₀) (hw' : ∀ fd' n, w' ≠ .holding fd' g n) (bytes : List β) :
    Framed L (write (SharedSocket.setWriter s i w') i bytes g₀ g₀) g := by
  have hidle : Framed L (SharedSocket.setWriter s i w') g := by
    refine h.setIdle hw' fun n _ => not_pending ?_ (by simp [hi])
    rw [hi]
    rintro fd' ⟨⟩
    exact hg rfl
  exact hidle.of_same (update_of_ne hg _ _) (fun _ => rfl) id (fun _ hfds => hfds) (fun _ _ _ hj => .inr hj)
    fun _ _ _ _ _ _ hp => hp

/-- 書き手が `g` へ書く。 -/
theorem send {g : Nat} (h : ∀ g, Framed L s g) (hsolo : Solo L s) (hcopies : Copies L s) {i : ι} {fd g₀ w n actual : Nat}
    (hb : enabled L s (.send i fd g₀ w n actual)) : Framed L (next L s (.send i fd g₀ w n actual)) g := by
  obtain ⟨hi, hfds, hpos, hlt⟩ := hb
  obtain rfl := hcopies.writer_own i fd g₀ w hi actual hfds
  by_cases hg : g = actual
  · subst hg
    obtain ⟨done, heq⟩ := (h g).written hsolo hcopies hi hfds
    refine ⟨done, .inr ⟨i, w + n, by omega, hlt, hcopies.writer_home i fd g w hi, hcopies.writer_born i fd g w hi, ?_,
      fun _ => .inl ⟨fd, update_self _ _ _⟩⟩⟩
    have hsent : (next L s (.send i fd g w n g)).sent g = s.sent g ++ tagged i (((L.frame i).drop w).take n) :=
      update_self _ _ _
    rw [hsent, heq, List.append_assoc, List.take_add, tagged, tagged, tagged, List.map_append]
  · exact (h g).write_other hi hg (by rintro fd' m ⟨⟩; exact hg rfl) _

theorem finish {g : Nat} (h : ∀ g, Framed L s g) (hsolo : Solo L s) (hcopies : Copies L s) {i : ι} {fd g₀ w actual : Nat}
    (hb : enabled L s (.finish i fd g₀ w actual)) : Framed L (next L s (.finish i fd g₀ w actual)) g := by
  obtain ⟨hi, hfds, hlt⟩ := hb
  obtain rfl := hcopies.writer_own i fd g₀ w hi actual hfds
  by_cases hg : g = actual
  · subst hg
    obtain ⟨done, heq⟩ := (h g).written hsolo hcopies hi hfds
    refine ⟨done ++ [i], .inl ⟨?_, ?_⟩⟩
    · have hsent : (next L s (.finish i fd g w g)).sent g = s.sent g ++ tagged i ((L.frame i).drop w) :=
        update_self _ _ _
      rw [hsent, heq, List.append_assoc, tagged, tagged, ← List.map_append, List.take_append_drop, List.flatMap_append,
        List.flatMap_singleton]
      rfl
    · -- 同じ口の他の書き手は、排他の区間の外にいる
      intro j fd' w' hj
      by_cases hji : j = i
      · subst hji
        exact absurd ((update_self _ _ _).symm.trans hj) (by simp)
      · have hj' : s.writer j = .holding fd' g w' := (update_of_ne hji _ _).symm.trans hj
        exact absurd (hsolo j i (by rw [hj']; rfl) (by rw [hi]; rfl)
          ((hcopies.writer_home j fd' g w' hj').symm.trans (hcopies.writer_home i fd g w hi))) hji
  · exact (h g).write_other hi hg (by simp) _

theorem openSocket {g : Nat} (h : Framed L s g) (hk : Kernel L s) {i : ι} {fd : Nat}
    (hb : enabled L s (.openSocket i fd)) : Framed L (next L s (.openSocket i fd)) g := by
  have hne : s.reader g ≠ .unborn → g ≠ s.nextConn := by
    rintro hborn rfl
    exact hborn (hk.fresh _ (Nat.le_refl _))
  refine h.of_same rfl (fun hborn => update_of_ne (hne hborn) _ _) id ?_ ?_ ?_
  · intro hborn hfds
    rw [show (next L s (.openSocket i fd)).connFd g = s.connFd g from update_of_ne (hne hborn) _ _] at hfds
    by_cases hfd : s.connFd g = fd
    · rw [hfd, show (next L s (.openSocket i fd)).fds fd = some s.nextConn from update_self _ _ _] at hfds
      exact absurd (Option.some.inj hfds).symm (hne hborn)
    · exact (update_of_ne hfd _ _).symm.trans hfds
  · intro j fd' w hj
    by_cases hji : j = i
    · subst hji
      exact absurd ((update_self _ _ _).symm.trans hj) (by simp)
    · exact .inr ((update_of_ne hji _ _).symm.trans hj)
  · intro j n _ _ _ _ hp
    have hji : j ≠ i := by
      rintro rfl
      exact not_pending (by simp [hb.1]) (by simp [hb.1]) hp
    exact hp.imp (fun ⟨fd', hfd'⟩ => ⟨fd', (update_of_ne hji _ _).trans hfd'⟩)
      fun hbroken => (update_of_ne hji _ _).trans hbroken

omit [DecidableEq τ] [DecidableEq ι] in
theorem setReader {g g₀ : Nat} (h : Framed L s g) {r : Reader} (hr : r ≠ .unborn) :
    Framed L { s with reader := update s.reader g₀ r } g := by
  refine h.of_same rfl (fun _ => rfl) ?_ (fun _ hfds => hfds) (fun _ _ _ hi => .inr hi) fun _ _ _ _ _ _ hp => hp
  intro hborn
  by_cases hg : g = g₀
  · subst hg; simpa using hr
  · simpa [hg] using hborn

theorem step (h : ∀ g, Framed L s g) (hk : Kernel L s) (hsolo : Solo L s) (hcopies : Copies L s) {b : Act τ ι}
    (hb : enabled L s b) (g : Nat) : Framed L (next L s b) g := by
  cases b with
  | openSocket i fd => exact (h g).openSocket hk hb
  | discard i fd g' =>
      have hi : s.writer i = .opening fd g' := hb
      exact ((h g).setIdle (i := i) (w := .idle) (by simp) fun n _ => not_pending (by simp [hi]) (by simp [hi])).shrink _ _
        fun _ _ => release_sub
  | establish i fd g' =>
      have hi : s.writer i = .opening fd g' := hb
      have hidle := (h g).setIdle (i := i) (w := .idle) (by simp) fun n _ => not_pending (by simp [hi]) (by simp [hi])
      exact (hidle.shrink s.fds _ fun _ _ hfds => hfds).setReader (by simp)
  | lock i => exact (h g).setIdle (by simp) fun n _ => not_pending (by simp [hb.1]) (by simp [hb.1])
  | unlock i =>
      have hi : s.writer i = .locked := hb
      exact (h g).setIdle (by simp) fun n _ => not_pending (by simp [hi]) (by simp [hi])
  | copy i fd g' =>
      refine (h g).setWriter ?_ fun n _ _ _ _ hp => absurd hp (not_pending (by simp [hb.1]) (by simp [hb.1]))
      rintro fd' n ⟨⟩
      exact .inl rfl
  | drop i fd g' =>
      have hi : s.writer i = .holding fd g' 0 := hb
      refine (h g).setIdle (by simp) fun n hpos => not_pending ?_ (by simp [hi])
      rw [hi]
      rintro fd' ⟨⟩
      exact absurd hpos (Nat.lt_irrefl 0)
  | send i fd g' w n actual => exact send h hsolo hcopies hb
  | finish i fd g' w actual => exact finish h hsolo hcopies hb
  | failSend i fd g' w => exact (h g).setWriter (by simp) fun _ _ _ _ _ _ => .inr rfl
  | shutOpen i fd g' =>
      refine ((h g).shrink _ _ fun _ _ => release_sub).setWriter (by simp) ?_
      intro n _ hhome hborn hfds
      exact absurd hfds (dead_of_no_socket (hk.closeSocket hb.2) hhome hborn (update_self _ _ _))
  | shutClosed i =>
      refine (h g).setWriter (by simp) ?_
      intro n _ hhome hborn hfds
      exact absurd hfds (dead_of_no_socket hk hhome hborn hb.2)
  | leave i =>
      have hi : s.writer i = .shut := hb
      exact (h g).setIdle (by simp) fun n _ => not_pending (by simp [hi]) (by simp [hi])
  | close t fd g' => exact (h g).shrink _ _ fun _ _ => release_sub
  | readerClose g' actual =>
      have hclosed : Framed L (closeSocket s (s.connHome g') (s.connFd g')) g := (h g).shrink _ _ fun _ _ => release_sub
      exact hclosed.setReader (r := .gone) (by simp)
  | readerSkip g' => exact (h g).setReader (by simp)
  | recv g' actual => exact h g

end Framed

/-! ## 到達する状態 -/

theorem reach_kernel {C : State τ ι β → Act τ ι → Prop} (h : (machine L).Reach C s) : Kernel L s :=
  h.invariant (I := Kernel L) (fun _ hs => .init hs) fun _ _ _ hs hb _ => hs.step hb

/-- 番号の使い回しが起きない実行では、写しは正しく、フレームの区切りは守られる。 -/
structure Sound (L : Layout τ ι β) (s : State τ ι β) : Prop where
  kernel : Kernel L s
  solo : Solo L s
  copies : Copies L s
  framed : ∀ g, Framed L s g

theorem reach_sound (h : (machine L).Reach FreshFd s) : Sound L s := by
  refine h.invariant (I := Sound L) ?_ ?_
  · exact fun s hs => ⟨.init hs, .init hs, .init hs, Framed.init hs⟩
  · intro s b hreach hs hb hfresh
    exact ⟨reach_kernel (.step hreach hb hfresh), hs.solo.step hb, hs.copies.step hs.kernel hb hfresh,
      Framed.step hs.framed hs.kernel hs.solo hs.copies hb⟩

/-- 接続 `g` はもう書かれない。閉じているか、書き損じた者 `i` が排他の区間を占めたまま閉じようとしている。 -/
def Quiet (L : Layout τ ι β) (i : ι) (g : Nat) (s : State τ ι β) : Prop :=
  s.connHome g = L.home i ∧ s.reader g ≠ .unborn ∧ (s.fds (s.connFd g) = some g → s.writer i = .broken)

namespace Quiet

variable {i : ι} {g : Nat}

omit [DecidableEq τ] [DecidableEq ι] in
/-- もう書かれない接続へは、誰も書かない。 -/
theorem not_send (h : Quiet L i g s) (hs : Sound L s) {j : ι} {fd g' w actual : Nat}
    (hj : s.writer j = .holding fd g' w) (hfds : s.fds fd = some actual) : actual ≠ g := by
  rintro rfl
  obtain rfl := hs.copies.writer_own j fd g' w hj actual hfds
  have hbroken := h.2.2 (by rw [hs.copies.writer_fd j fd actual w hj]; exact hfds)
  have heq := hs.solo j i (by rw [hj]; rfl) (by rw [hbroken]; rfl)
    ((hs.copies.writer_home j fd actual w hj).symm.trans h.1)
  subst heq
  rw [hj] at hbroken
  cases hbroken

omit [DecidableEq τ] in
theorem setWriter (h : Quiet L i g s) {j : ι} {w : Writer} (hw : j = i → s.fds (s.connFd g) ≠ some g) :
    Quiet L i g (setWriter s j w) := by
  refine ⟨h.1, h.2.1, fun hfds => ?_⟩
  have hij : i ≠ j := fun hij => hw hij.symm hfds
  exact (update_of_ne hij _ _).trans (h.2.2 hfds)

omit [DecidableEq τ] in
/-- 書き損じた者でない書き手の移動は、静かな接続に関わらない。 -/
theorem setOther (h : Quiet L i g s) {j : ι} {w : Writer} (hj : s.writer j ≠ .broken) :
    Quiet L i g (SharedSocket.setWriter s j w) :=
  h.setWriter fun hji hfds => hj (hji ▸ h.2.2 hfds)

omit [DecidableEq τ] [DecidableEq ι] in
theorem shrink (h : Quiet L i g s) (fds : Nat → Option Nat) (socket : τ → Option (Nat × Nat))
    (hsub : ∀ fd g', fds fd = some g' → s.fds fd = some g') : Quiet L i g { s with fds := fds, socket := socket } :=
  ⟨h.1, h.2.1, fun hfds => h.2.2 (hsub _ _ hfds)⟩

omit [DecidableEq τ] [DecidableEq ι] in
theorem setReader (h : Quiet L i g s) {g₀ : Nat} {r : Reader} (hr : r ≠ .unborn) :
    Quiet L i g { s with reader := update s.reader g₀ r } := by
  refine ⟨h.1, ?_, h.2.2⟩
  by_cases hg : g = g₀
  · subst hg; simpa using hr
  · simpa [hg] using h.2.1

theorem openSocket (h : Quiet L i g s) (hk : Kernel L s) {j : ι} {fd : Nat} (hb : enabled L s (.openSocket j fd)) :
    Quiet L i g (next L s (.openSocket j fd)) := by
  have hne : g ≠ s.nextConn := by
    rintro rfl
    exact h.2.1 (hk.fresh _ (Nat.le_refl _))
  refine ⟨(update_of_ne hne _ _).trans h.1, h.2.1, fun hfds => ?_⟩
  rw [show (next L s (.openSocket j fd)).connFd g = s.connFd g from update_of_ne hne _ _] at hfds
  by_cases hfd : s.connFd g = fd
  · rw [hfd, show (next L s (.openSocket j fd)).fds fd = some s.nextConn from update_self _ _ _] at hfds
    exact absurd (Option.some.inj hfds).symm hne
  · have hbroken := h.2.2 ((update_of_ne hfd _ _).symm.trans hfds)
    have hij : i ≠ j := by
      rintro rfl
      rw [hb.1] at hbroken
      cases hbroken
    exact (update_of_ne hij _ _).trans hbroken

theorem step (h : Quiet L i g s) (hs : Sound L s) {b : Act τ ι} (hb : enabled L s b) :
    Quiet L i g (next L s b) ∧ (next L s b).sent g = s.sent g := by
  cases b with
  | openSocket j fd => exact ⟨h.openSocket hs.kernel hb, rfl⟩
  | discard j fd g' =>
      have hj : s.writer j = .opening fd g' := hb
      exact ⟨(h.setOther (j := j) (w := .idle) (by simp [hj])).shrink _ _ fun _ _ => Framed.release_sub, rfl⟩
  | establish j fd g' =>
      have hj : s.writer j = .opening fd g' := hb
      exact ⟨((h.setOther (j := j) (w := .idle) (by simp [hj])).shrink s.fds _ fun _ _ hfds => hfds).setReader (by simp), rfl⟩
  | lock j => exact ⟨h.setOther (by simp [hb.1]), rfl⟩
  | unlock j => exact ⟨h.setOther (by simp [show s.writer j = _ from hb]), rfl⟩
  | copy j fd g' => exact ⟨h.setOther (by simp [hb.1]), rfl⟩
  | drop j fd g' => exact ⟨h.setOther (by simp [show s.writer j = _ from hb]), rfl⟩
  | send j fd g' w n actual =>
      exact ⟨h.setOther (j := j) (w := .holding fd g' (w + n)) (by simp [hb.1]),
        update_of_ne (h.not_send hs hb.1 hb.2.1).symm _ _⟩
  | finish j fd g' w actual =>
      exact ⟨h.setOther (j := j) (w := .idle) (by simp [hb.1]), update_of_ne (h.not_send hs hb.1 hb.2.1).symm _ _⟩
  | failSend j fd g' w => exact ⟨h.setOther (by simp [show s.writer j = _ from hb]), rfl⟩
  | shutOpen j fd g' =>
      have hclosed : Quiet L i g (closeSocket s (L.home j) fd) := h.shrink _ _ fun _ _ => Framed.release_sub
      refine ⟨hclosed.setWriter fun hji => ?_, rfl⟩
      exact Framed.dead_of_no_socket (hs.kernel.closeSocket hb.2) (hji ▸ h.1) h.2.1 (update_self _ _ _)
  | shutClosed j =>
      exact ⟨h.setWriter fun hji => Framed.dead_of_no_socket hs.kernel (hji ▸ h.1) h.2.1 hb.2, rfl⟩
  | leave j => exact ⟨h.setOther (by simp [show s.writer j = _ from hb]), rfl⟩
  | close t fd g' => exact ⟨h.shrink _ _ fun _ _ => Framed.release_sub, rfl⟩
  | readerClose g' actual =>
      have hclosed : Quiet L i g (closeSocket s (s.connHome g') (s.connFd g')) := h.shrink _ _ fun _ _ => Framed.release_sub
      exact ⟨hclosed.setReader (r := .gone) (by simp), rfl⟩
  | readerSkip g' => exact ⟨h.setReader (by simp), rfl⟩
  | recv g' actual => exact ⟨h, rfl⟩

/-- 静かになった接続に書かれたものは、それから先の実行で変わらない。 -/
theorem steps {s' : State τ ι β} (h : Quiet L i g s) (hreach : (machine L).Reach FreshFd s)
    (hsteps : (machine L).Steps FreshFd s s') : s'.sent g = s.sent g := by
  have := hsteps.preserves (I := fun t => Quiet L i g t ∧ t.sent g = s.sent g) hreach ?_ ⟨h, rfl⟩
  · exact this.2
  · intro t b ht hq hb _
    obtain ⟨hquiet, hsent⟩ := hq.1.step (reach_sound ht) hb
    exact ⟨hquiet, hsent.trans hq.2⟩

end Quiet

end Xrpc.Lib.SharedSocket
