import Coordination.Backend.Memory
import Coordination.Connection
import Coordination.Proofs.Registry.Slot

namespace Coordination.Connection

section

variable {β η : Type} {c c' c'' : Connection β η}

-- Moving events about does not change who waits, nor whether the connection is open.
structure Moves (c c' : Connection β η) : Prop where
  dispatcher : c'.dispatcher = c.dispatcher
  running    : c'.running = c.running
  closed     : c'.closed = c.closed

theorem Moves.refl : Moves c c :=
  ⟨rfl, rfl, rfl⟩

theorem Moves.trans (d : Moves c c') (d' : Moves c' c'') : Moves c c'' :=
  ⟨d'.dispatcher.trans d.dispatcher, d'.running.trans d.running, d'.closed.trans d.closed⟩

structure Kin (c c' : Connection β η) : Prop where
  target : c'.target = c.target
  config : c'.config = c.config
  global : c'.global = c.global

theorem Kin.refl : Kin c c :=
  ⟨rfl, rfl, rfl⟩

theorem Kin.trans (k : Kin c c') (k' : Kin c' c'') : Kin c c'' :=
  ⟨k'.target.trans k.target, k'.config.trans k.config, k'.global.trans k.global⟩

theorem enqueue_kin (item : Item) : Kin c (c.enqueue item).1 := by
  unfold enqueue
  split <;> exact ⟨rfl, rfl, rfl⟩

theorem nextEvent_kin : Kin c c.nextEvent.2 := by
  unfold nextEvent
  split <;> try split
  all_goals exact ⟨rfl, rfl, rfl⟩

theorem enqueue_backend (item : Item) : (c.enqueue item).1.backend = c.backend := by
  unfold enqueue
  split <;> rfl

theorem enqueue_moves (item : Item) : Moves c (c.enqueue item).1 := by
  unfold enqueue
  split <;> exact ⟨rfl, rfl, rfl⟩

theorem nextEvent_moves : Moves c c.nextEvent.2 := by
  unfold nextEvent
  split <;> try split
  all_goals exact ⟨rfl, rfl, rfl⟩

theorem nextEvent_nil {q : Queue} (hr : c.running) (hq : c.queue = some q) (hl : q.toList = []) :
    c.nextEvent = (none, { c with queue := some q.popEvent.2 }) := by
  have hn := (q.popEvent_nil hl).left
  simp [nextEvent, hr, hq, hn]

theorem nextEvent_cons {q : Queue} {e : Event} {rest : List Item} (hr : c.running)
    (hq : c.queue = some q) (hl : q.toList = .event e :: rest) :
    c.nextEvent = (some e, { c with queue := some q.popEvent.2 }) := by
  have hp := (q.popEvent_cons hl).left
  simp [nextEvent, hr, hq, hp, Item.event?]

end

section

variable {β η : Type} [Backend β] {c c' : Connection β η} {records : List Record}

-- A move puts an event into the queue, or ends the delivery.
theorem deliverOne_cases (h : c.deliverOne = some (c', records)) :
    (∃ e backend, Backend.next c.backend = some (.ok (.event e), backend) ∧
      c' = ({ c with backend := backend }.enqueue (.event e)).1) ∨
    ∃ answer backend, Backend.next c.backend = some (answer, backend) ∧
      (∀ e, answer ≠ .ok (.event e)) ∧ c' = { c with backend := backend, delivering := false } := by
  unfold deliverOne at h
  split at h
  case isTrue => cases h
  case isFalse =>
    split at h
    case h_1            => cases h
    case h_2 e m hn     => exact .inl ⟨e, m, hn, (congrArg Prod.fst <| Option.some.inj h).symm⟩
    case h_3 m hn       => cases h; exact .inr ⟨_, m, hn, by simp, rfl⟩
    case h_4 error m hn => cases h; exact .inr ⟨_, m, hn, by simp, rfl⟩

theorem deliverOne_next (h : c.deliverOne = some (c', records)) :
    ∃ answer, Backend.next c.backend = some (answer, c'.backend) := by
  rcases deliverOne_cases h with ⟨e, backend, hn, rfl⟩ | ⟨answer, backend, hn, _, rfl⟩
  · exact ⟨.ok (.event e), by rw [hn, enqueue_backend]⟩
  · exact ⟨answer, hn⟩

theorem deliverOne_moves (h : c.deliverOne = some (c', records)) : Moves c c' := by
  rcases deliverOne_cases h with ⟨e, backend, _, rfl⟩ | ⟨_, _, _, _, rfl⟩
  · have m := enqueue_moves (c := { c with backend := backend }) (.event e)
    exact ⟨m.dispatcher, m.running, m.closed⟩
  · exact ⟨rfl, rfl, rfl⟩

theorem deliverOne_kin (h : c.deliverOne = some (c', records)) : Kin c c' := by
  rcases deliverOne_cases h with ⟨e, backend, _, rfl⟩ | ⟨_, _, _, _, rfl⟩
  · have k := enqueue_kin (c := { c with backend := backend }) (.event e)
    exact ⟨k.target, k.config, k.global⟩
  · exact ⟨rfl, rfl, rfl⟩

-- What is kept by each move. Induction on their number.
theorem deliverUpTo_keeps {P : Connection β η → Prop}
    (step : ∀ c c' records, P c → c.deliverOne = some (c', records) → P c') (n : Nat) (h : P c) :
    P (deliverUpTo n c).1 := by
  induction n generalizing c
  case zero => exact h
  case succ n ih =>
    unfold deliverUpTo
    cases hd : c.deliverOne
    case none => exact h
    case some => exact ih <| step _ _ _ h hd

theorem deliverUpTo_moves (n : Nat) : Moves c (deliverUpTo n c).1 :=
  deliverUpTo_keeps (fun _ _ _ m h => m.trans <| deliverOne_moves h) n .refl

theorem deliverUpTo_kin (n : Nat) : Kin c (deliverUpTo n c).1 :=
  deliverUpTo_keeps (fun _ _ _ k h => k.trans <| deliverOne_kin h) n .refl

theorem quiesce_kin : Kin c c.quiesce.1 := by
  let woken := { c with running := false, backend := Backend.wake c.backend }
  have h₁ : Kin woken woken.deliver.1 := deliverUpTo_kin _
  have h₂ : Kin { woken.deliver.1 with delivering := false } c.quiesce.1 := enqueue_kin _
  exact ⟨h₂.target.trans h₁.target, h₂.config.trans h₁.config, h₂.global.trans h₁.global⟩

theorem release_kin : Kin c c.release.2.1 :=
  ⟨rfl, rfl, rfl⟩

theorem stop_kin : Kin c c.stop.2.1 := by
  unfold stop
  split
  case isTrue  => exact .refl
  case isFalse => exact quiesce_kin.trans release_kin

theorem deliver_moves : Moves c c.deliver.1 :=
  deliverUpTo_moves _

theorem quiesce_moves : Moves { c with running := false } c.quiesce.1 := by
  let woken := { c with running := false, backend := Backend.wake c.backend }
  have h₁ : Moves woken woken.deliver.1 := deliver_moves
  have h₂ : Moves { woken.deliver.1 with delivering := false } c.quiesce.1 := enqueue_moves _
  exact ⟨h₂.dispatcher.trans h₁.dispatcher, h₂.running.trans h₁.running, h₂.closed.trans h₁.closed⟩

theorem release_moves : Moves { c with closed := true } c.release.2.1 :=
  ⟨rfl, rfl, rfl⟩

theorem stop_dispatcher : c.stop.2.1.dispatcher = c.dispatcher := by
  unfold stop
  split
  case isTrue  => rfl
  case isFalse => exact release_moves.dispatcher.trans quiesce_moves.dispatcher

theorem stop_running : c.stop.2.1.running = false := by
  unfold stop
  split
  case isTrue h => simpa using (Bool.and_eq_true _ _ |>.mp h).right
  case isFalse  => exact release_moves.running.trans quiesce_moves.running

-- A backend that starts no session leaves the connection as it is, its registrations dropped.
theorem start_error {e : Error} {backend : β} (timeout : Duration) (hr : c.running = false)
    (h : Backend.init c.target c.config.sessionTimeout c.backend = (.error e, backend)) :
    (c.start timeout).1 = .error e ∧ (c.start timeout).2.1 =
      { c with dispatcher.registry := (c.registry.clear c.global).2, backend := backend } := by
  simp [start, hr, h]

theorem start_ok {backend : β} (timeout : Duration) (hr : c.running = false)
    (h : Backend.init c.target c.config.sessionTimeout c.backend = (.ok (), backend)) :
    (c.start timeout).1 = .ok (Backend.state backend) ∧ (c.start timeout).2.1 =
      { c with
        dispatcher.registry := (c.registry.clear c.global).2
        backend := backend
        closed := false
        running := true
        delivering := true
        queue := some (.new c.config.clearReadsOnPop) } := by
  simp [start, hr, h]

end

section

variable {η : Type} {c : Connection Memory η}

def started (c : Connection Memory η) : Connection Memory η :=
  { c with
    dispatcher.registry := (c.registry.clear c.global).2
    backend := c.backend.init c.target
    closed := false
    running := true
    delivering := true
    queue := some (.new c.config.clearReadsOnPop) }

theorem start_eq (timeout : Duration) (hr : c.running = false) :
    (c.start timeout).2.1 = c.started := by
  simp only [start, hr]
  rfl

theorem start_answer (timeout : Duration) (hr : c.running = false) :
    (c.start timeout).1 = .ok c.started.backend.state := by
  simp only [start, hr]
  rfl

theorem start_running (timeout : Duration) (hr : c.running) : (c.start timeout).2.1 = c := by
  rw [start, if_pos hr]

theorem stop_ok : c.stop.1 = .ok () := by
  simp only [stop, release]
  repeat' split
  all_goals rfl

theorem restart_eq (timeout : Duration) : (c.restart timeout).2.1 = c.stop.2.1.started := by
  rw [← start_eq timeout stop_running, restart]
  have h := c.stop_ok
  generalize c.stop = stopped at h
  obtain ⟨_ | _, _, _⟩ := stopped <;> cases h
  rfl

end

end Coordination.Connection
