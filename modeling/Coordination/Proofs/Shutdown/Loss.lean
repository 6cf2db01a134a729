import Coordination.Proofs.Shutdown.Flow

/-!
Closing comes to an end, and what it loses. The dispatch loop also stops when it finds the
connection not running and the queue empty, and what the delivery loop queues after that is never
dispatched.
-/
namespace Coordination

-- How much a party has to do until it comes to rest, at most.
def Loop.work : Loop → Nat
  | popping => 1
  | holding _ => 4
  | asking => 3
  | looking => 2
  | stopped => 0

def Stage.work : Stage → Nat
  | running => 20
  | lowered => 19
  | woken => 11
  | joined => 10
  | marked => 4
  | returned => 0

namespace Pipeline

variable {η : Type}

-- How many steps the parties still have to take at most, each item of the stream or of the queue
-- with all its steps to come.
def work (p : Pipeline η) : Nat :=
  7 * p.stream.length + 6 * p.hand.toList.length + 5 * p.queued.length + p.loop.work + p.stage.work

section

variable {p : Pipeline η}

theorem delivery_progress (f : Flows p) (hd : p.connection.delivering)
    (hm : p.hand = none → p.stream ≠ []) : ∃ m, (p.step m).work < p.work := by
  have ⟨q, hq⟩ := Option.isSome_iff_exists.mp f.queue
  cases hh : p.hand
  case some e =>
    refine ⟨.push, ?_⟩
    simp [step, push, hh, work, stream, queued, Connection.enqueue_eq hq, hq]
    omega
  case none =>
    refine ⟨.receive, ?_⟩
    rcases hp : p.stream with _ | ⟨e | _, rest⟩
    case nil => exact absurd hp (hm hh)
    all_goals
      simp only [step, receive, hd, hh, Option.isNone_none, Bool.and_self, f.next_cons hp, if_true,
        work, hp]
      simp [stream, queued]
    case cons.event => omega

theorem dispatch_progress (f : Flows p) (hl : p.loop ≠ .stopped)
    (hm : p.loop = .popping → p.queued ≠ []) : ∃ m, (p.step m).work < p.work := by
  have ⟨q, hq⟩ := Option.isSome_iff_exists.mp f.queue
  cases h : p.loop
  case stopped => exact absurd h hl
  case holding e =>
    exact ⟨.dispatch .ok, by simp [step, dispatch, h, work, stream, queued, Loop.work]⟩
  case asking =>
    refine ⟨.ask, ?_⟩
    cases hr : p.connection.running <;>
      simp [step, ask, h, hr, work, stream, queued, Loop.work]
  case looking =>
    refine ⟨.look, ?_⟩
    have hw : (p.step .look).loop.work < p.loop.work := by
      simp only [step, look, h]
      cases p.queued.isEmpty <;> decide
    simp only [step, look, h] at hw
    simpa [step, look, h, work, stream, queued] using hw
  case popping =>
    refine ⟨.pop, ?_⟩
    have hp : p.queued = q.pop.1.toList ++ q.pop.2.toList := by
      rw [← q.toList_pop, queued, hq]
      rfl
    rcases hpop : q.pop with ⟨_ | ⟨e | _⟩, q₁⟩ <;> rw [hpop] at hp
    case none =>
      have := (q.pop_eq_none_iff).mp (by rw [hpop])
      exact absurd (by simpa [queued, hq] using this) (hm h)
    all_goals
      simp only [step, pop, h, hq, hpop, work, hp]
      simp only [stream, queued, Loop.work, Option.map_some, Option.getD_some, Option.toList_some,
        List.singleton_append, List.length_cons]
      omega

-- As long as close has not returned, somebody can move towards it.
theorem progress (f : Flows p) : ∃ m, (p.step m).work < p.work := by
  have ⟨q, hq⟩ := Option.isSome_iff_exists.mp f.queue
  cases hs : p.stage
  case running =>
    exact ⟨.close, by simp [step, close, hs, work, Stage.work, stream, queued]⟩
  case lowered =>
    refine ⟨.close, ?_⟩
    simp only [step, close, hs, work, stream, f.stream_wake]
    simp [queued, Stage.work]
    omega
  case woken =>
    cases hd : p.connection.delivering
    case false =>
      exact ⟨.close, by simp [step, close, hs, hd, work, Stage.work, stream, queued]⟩
    case true =>
      exact delivery_progress f hd fun _ h => by simpa [h] using f.reading hs hd
  case joined =>
    refine ⟨.close, ?_⟩
    simp [step, close, hs, work, Stage.work, stream, queued, Connection.enqueue_eq hq, hq]
    omega
  case marked =>
    by_cases hl : p.loop = .stopped
    case neg => exact dispatch_progress f hl fun _ => (f.marked hs hl).ne_nil
    case pos =>
      refine ⟨.close, ?_⟩
      have hc : (Backend.close p.connection.backend).2.inner.channel = none := rfl
      cases h : p.connection.closed <;>
        simp [step, close, hs, hl, work, Stage.work, stream, queued, Connection.release, h, hc]
      all_goals omega
  case returned => exact absurd hs f.busy

-- Induction on the steps to come.
theorem can_return (h : Flows p ∨ Over p) : ∃ moves, (p.run moves).stage = .returned := by
  induction hw : p.work using Nat.strongRecOn generalizing p
  case ind n ih =>
    rcases h with f | o
    case inr => exact ⟨[], o.stage⟩
    case inl =>
      have ⟨m, hm⟩ := progress f
      have ⟨moves, h⟩ := ih _ (hw ▸ hm) (f.step m) rfl
      exact ⟨m :: moves, h⟩

end

-- The stream has not broken off: the delivery loop ends at the marker only.
structure Whole (p : Pipeline η) : Prop where
  abandoned : p.abandoned = []
  cut       : p.stage ≠ .returned → p.connection.backend.cut = none
  read      : p.stage ≠ .returned → p.connection.delivering = false →
    p.stage ≠ .running ∧ p.stage ≠ .lowered ∧ .shutdown ∉ p.stream

namespace Whole

section

variable {p : Pipeline η}

theorem receive (f : Flows p) (w : Whole p) : Whole p.receive := by
  unfold Pipeline.receive
  split
  case isFalse => exact w
  case isTrue hd =>
    have hd : p.connection.delivering := by simp_all
    have h₁ := f.unwoken
    have h₂ := f.single
    rcases hp : p.stream with _ | ⟨e | _, rest⟩
    case nil =>
      rw [f.next_nil hp, w.cut f.busy]
      exact w
    case cons.event =>
      rw [f.next_cons hp]
      exact ⟨w.abandoned, w.cut, fun _ h => nomatch hd.symm.trans h⟩
    case cons.shutdown =>
      rw [hp] at h₁ h₂
      have hr : .shutdown ∉ rest := by simpa [List.count_eq_zero] using h₂
      rw [f.next_cons hp]
      exact ⟨w.abandoned, w.cut, fun _ _ => ⟨fun h => h₁ (.inl h) (List.mem_cons_self ..),
        fun h => h₁ (.inr h) (List.mem_cons_self ..), hr⟩⟩

theorem push (f : Flows p) (w : Whole p) : Whole p.push := by
  have ⟨q, hq⟩ := Option.isSome_iff_exists.mp f.queue
  unfold Pipeline.push
  split
  case h_1 => exact w
  case h_2 => simp only [Connection.enqueue_eq hq]; exact { w with }

theorem close (f : Flows p) (w : Whole p) : Whole p.close := by
  have hr := w.read f.busy
  have hc := w.cut f.busy
  unfold Pipeline.close
  split
  case h_1 hs => exact ⟨w.abandoned, fun _ => hc, fun _ h => absurd hs (hr h).left⟩
  case h_2 hs => exact ⟨w.abandoned, fun _ => hc, fun _ h => absurd hs (hr h).right.left⟩
  case h_3 hs =>
    split
    case isTrue => exact w
    case isFalse hd =>
      have hn := (hr (by simpa using hd)).right.right
      exact ⟨Item.ahead_of_not_mem hn, fun _ => hc, fun _ _ => ⟨nofun, nofun, hn⟩⟩
  case h_4 hs =>
    have ⟨q, hq⟩ := Option.isSome_iff_exists.mp f.queue
    simp only [Connection.enqueue_eq hq]
    exact ⟨w.abandoned, fun _ => hc, fun _ h => ⟨nofun, nofun, (hr h).right.right⟩⟩
  case h_5 hs =>
    split
    case isFalse => exact w
    case isTrue  => exact ⟨w.abandoned, fun h => absurd rfl h, fun h => absurd rfl h⟩
  case h_6 hs => exact absurd hs f.busy

theorem step (f : Flows p) (w : Whole p) {m : Move η} (hm : ∀ e, m ≠ .cut e) :
    Whole (p.step m) := by
  cases m
  case emit event =>
    refine ⟨w.abandoned, w.cut, fun hb hd => ?_⟩
    have ⟨h₁, h₂, h₃⟩ := w.read hb hd
    refine ⟨h₁, h₂, ?_⟩
    rw [f.stream_emit]
    simpa using h₃
  case cut e      => exact absurd rfl (hm e)
  case register g => exact { w with }
  case receive    => exact w.receive f
  case push       => exact w.push f
  case close      => exact w.close f
  case pop =>
    simp only [Pipeline.step, Pipeline.pop]
    split <;> try split
    all_goals exact { w with }
  case dispatch outcome =>
    simp only [Pipeline.step, Pipeline.dispatch]
    split <;> exact { w with }
  case ask =>
    simp only [Pipeline.step, Pipeline.ask]
    split <;> exact { w with }
  case look =>
    simp only [Pipeline.step, Pipeline.look]
    split <;> exact { w with }

end

end Whole

theorem opened_whole (target : Target) (config : Config) (m : Memory) (global : Entry η)
    (timeout : Duration) : Whole (opened target config m global timeout) := by
  obtain ⟨c, hc, -, -, -, hn, hd⟩ := opened_eq target config m global timeout
  rw [hc]
  exact ⟨rfl, fun _ => hn, fun _ h => nomatch hd.symm.trans h⟩

-- Induction on the moves.
theorem run_whole {p : Pipeline η} (h : Flows p ∨ Over p) (w : Whole p) {moves : List (Move η)}
    (hm : ∀ e, .cut e ∉ moves) : Whole (p.run moves) := by
  induction moves generalizing p
  case nil => exact w
  case cons m moves ih =>
    have hn : ∀ e, .cut e ∉ moves := fun e he => hm e (List.mem_cons_of_mem _ he)
    rcases h with f | o
    case inl => exact ih (f.step m) (w.step f fun e he => hm e (he ▸ List.mem_cons_self ..)) hn
    case inr =>
      have ⟨o', ha⟩ := over_step o m
      exact ih (.inr o')
        ⟨ha.trans w.abandoned, fun h => absurd o'.stage h, fun h => absurd o'.stage h⟩ hn

-- Closing loses no event but those that were queued after the dispatch loop had stopped, and those
-- left on a stream that had broken off; all others are dispatched once, in the order in which they
-- were emitted.
theorem close_accounted (target : Target) (config : Config) (m : Memory) (global : Entry η)
    (timeout : Duration) (moves : List (Move η)) :
    let p := (opened target config m global timeout).run moves
    (∃ rest, (p.run rest).stage = .returned) ∧
      (p.stage = .returned → p.due = p.dispatched ++ p.late ++ p.abandoned ∧
        (p.dispatched = p.due ↔ p.late = [] ∧ p.abandoned = []) ∧
        ((∀ e, .cut e ∉ moves) → p.abandoned = [])) := by
  intro p
  have f := opened_flows target config m global timeout
  have h : Flows p ∨ Over p := run_accounted (.inl f) moves
  refine ⟨can_return h, fun hr => ?_⟩
  have o : Over p := h.resolve_left (·.busy hr)
  refine ⟨o.account, ?_, fun hm => ?_⟩
  · rw [o.account]
    simp
  · exact (run_whole (.inl f) (opened_whole target config m global timeout) hm).abandoned

-- One event is dispatched while the session begins, and the next one is on the stream when the
-- connection stops running.
def eventful : List (Move Unit) :=
  [.receive, .push, .pop, .emit (.watch (.session .connecting))]

def fresh : Pipeline Unit :=
  opened ⟨"localhost:2181", ["localhost:2181"], none⟩ {} (.new 0) ⟨(), none⟩ ⟨0⟩

theorem close_accounted_eventful :
    let moves := eventful ++ [.dispatch .ok, .ask, .receive, .push, .pop, .dispatch .ok, .ask,
      .close, .close, .receive, .close, .close, .pop, .close]
    (fresh.run moves).stage = .returned ∧ (fresh.run moves).dispatched = (fresh.run moves).due := by
  intro moves
  have hr : (fresh.run moves).stage = .returned := by decide +kernel
  refine ⟨hr, ?_⟩
  have h := ((close_accounted _ _ _ _ _ moves).right hr).right.left
  exact h.mpr (by decide +kernel)

-- The dispatch loop stops between the two events, and the second one is queued for nobody.
theorem close_loses_event :
    let p := fresh.run <| eventful ++ [.close, .dispatch .ok, .ask, .look, .receive, .push, .close,
      .receive, .close, .close, .close]
    p.stage = .returned ∧ p.abandoned = [] ∧
      p.due = [.watch (.session .connected), .watch (.session .connecting)] ∧
      p.dispatched = [.watch (.session .connected)] := by
  decide +kernel

end Pipeline
end Coordination
