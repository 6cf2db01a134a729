import Coordination.Backend.Script
import Coordination.Proofs.Memory.Anchored
import Coordination.Proofs.Memory.Course

namespace Coordination

-- Whether the step can change nodes or watches.
def ServiceStep.touches : ServiceStep → Bool
  | .init .. | .call .. => true
  | _ => false

namespace Memory

variable {m m' m'' : Memory} {id : RequestId} {call : Call}

-- Calls get through to the nodes.
def serves (m : Memory) : Bool :=
  !m.handleClosed && m.channel.isSome && m.state = .connected

-- What a call comes to, if it gets through.
def outcome? (id : RequestId) (call : Call) (m : Memory) : Option Outcome :=
  if m.serves then some ((m.logged id call).execute id call.op).1 else none

def tick (now : Int) (m : Memory) : Memory :=
  { m with clock := now }

-- A run in which the wall clock goes on: each step comes with its time.
def performAt (m : Memory) (steps : List (Int × ServiceStep)) : Memory :=
  steps.foldl (fun m s => ((m.tick s.1).perform s.2).2) m

-- The stream hands out its oldest item, or fails and is left as it is.
theorem next_cases {answer : Except Error Item} (h : m.next = some (answer, m')) :
    (∃ item rest, m.channel = some (item :: rest) ∧ answer = .ok item ∧
      m' = { m with channel := some rest }) ∨ ((∃ e, answer = .error e) ∧ m' = m) := by
  simp only [next] at h
  split at h
  case isTrue => cases h; exact .inr ⟨⟨_, rfl⟩, rfl⟩
  case isFalse =>
    split at h <;> cases h
    case h_1         => exact .inr ⟨⟨_, rfl⟩, rfl⟩
    case h_3 rest hc => exact .inl ⟨_, rest, hc, rfl, rfl⟩

-- Only the stream, the clock and how the session is have changed.
structure Still (m m' : Memory) : Prop where
  nodes        : m'.nodes = m.nodes
  dataWatches  : m'.dataWatches = m.dataWatches
  childWatches : m'.childWatches = m.childWatches
  target       : m'.target = m.target
  zxid         : m'.zxid = m.zxid
  sessionId    : m'.sessionId = m.sessionId

namespace Still

theorem refl : Still m m :=
  ⟨rfl, rfl, rfl, rfl, rfl, rfl⟩

theorem trans (h : Still m m') (h' : Still m' m'') : Still m m'' where
  nodes        := h'.nodes.trans h.nodes
  dataWatches  := h'.dataWatches.trans h.dataWatches
  childWatches := h'.childWatches.trans h.childWatches
  target       := h'.target.trans h.target
  zxid         := h'.zxid.trans h.zxid
  sessionId    := h'.sessionId.trans h.sessionId

theorem clientPath (h : Still m m') (path : String) : m'.clientPath path = m.clientPath path := by
  simp only [Memory.clientPath, h.target]

theorem of_talks (h : Talks m m') : Still m m' := by
  rw [h.eq]
  exact ⟨rfl, rfl, rfl, rfl, rfl, rfl⟩

theorem next {answer : Except Error Item} (h : m.next = some (answer, m')) : Still m m' := by
  rcases next_cases h with ⟨_, _, _, _, rfl⟩ | ⟨_, rfl⟩
  · exact ⟨rfl, rfl, rfl, rfl, rfl, rfl⟩
  · exact refl

theorem readStream (n : Nat) : Still m (m.readStream n).2.2 := by
  induction n generalizing m
  case zero => exact refl
  case succ n ih =>
    simp only [Memory.readStream]
    split
    case h_1   => exact refl
    case h_2 h => exact next h
    case h_3 h => exact next h
    case h_4 h => exact (next h).trans ih

theorem perform {step : ServiceStep} (h : step.touches = false) : Still m (m.perform step).2 := by
  cases step
  case init | call => cases h
  case release id  => exact of_talks (.release id)
  case releaseAll  => exact of_talks .releaseAll
  case drain =>
    have hs : Still m (m.send .shutdown) := ⟨rfl, rfl, rfl, rfl, rfl, rfl⟩
    exact hs.trans (readStream (Backend.backlog (m.send .shutdown) + 1))
  all_goals exact ⟨rfl, rfl, rfl, rfl, rfl, rfl⟩

end Still

theorem isOpen_of_serves (h : m.serves) : m.IsOpen ∧ m.state = .connected := by
  simp only [serves, Bool.and_eq_true, Bool.not_eq_true', decide_eq_true_eq] at h
  exact ⟨⟨h.left.right, h.left.left⟩, h.right⟩

-- A call that gets through is an operation that runs its course, and what it comes to is what the
-- call is answered with.
theorem issue_course (h : m.serves) (id : RequestId) (call : Call) :
    ∃ outcome executed, m.outcome? id call = some outcome ∧
      Course (m.logged id call) id call.op (outcome, executed) ∧
      (executed.channel = m.channel ∧ executed.holding = m.holding) ∧
      m.issue id call = (.ok (call.result outcome), executed.answered id call outcome) := by
  have ⟨ho, hs⟩ := isOpen_of_serves h
  have he := (m.logged id call).execute_executes id call.op
  exact ⟨_, _, if_pos h, execute_course .., ⟨he.channel, he.holding⟩, issue_eq ho hs id call⟩

-- A call that does not get through is written down at most.
theorem issue_refused (h : m.serves = false) (id : RequestId) (call : Call) :
    m.outcome? id call = none ∧
      ((m.issue id call).2 = m ∨ (m.issue id call).2 = m.logged id call) := by
  refine ⟨by simp [outcome?, h], ?_⟩
  simp only [issue]
  split
  case isTrue => exact .inl rfl
  case isFalse hh =>
    split
    case isTrue     => exact .inr rfl
    case isFalse hs => simp_all [serves, Option.isSome_iff_ne_none]

theorem issue_still (h : m.serves = false) (id : RequestId) (call : Call) :
    Still m (m.issue id call).2 := by
  rcases (issue_refused h id call).right with h | h <;> rw [h] <;>
    exact ⟨rfl, rfl, rfl, rfl, rfl, rfl⟩

-- Once the operation has run its course, its answer leaves the nodes alone.
theorem executed_still (h : m.serves) (id : RequestId) (call : Call) :
    Still ((m.logged id call).execute id call.op).2 (m.issue id call).2 := by
  have ⟨ho, hs⟩ := isOpen_of_serves h
  rw [issue_eq ho hs]
  exact .of_talks (.answered ..)

-- For the nodes and the watches, all that counts of a call is the course of its operation, if it
-- gets through.
theorem issue_cases (id : RequestId) (call : Call) :
    (m.outcome? id call = none ∧ Still m (m.issue id call).2) ∨
    ∃ outcome executed, m.outcome? id call = some outcome ∧
      Course (m.logged id call) id call.op (outcome, executed) ∧
      Still executed (m.issue id call).2 := by
  cases hs : m.serves
  case false => exact .inl ⟨(issue_refused hs id call).left, issue_still hs id call⟩
  case true =>
    have ⟨outcome, executed, ho, course, _, hi⟩ := issue_course hs id call
    exact .inr ⟨outcome, executed, ho, course, hi ▸ .of_talks (.answered ..)⟩

-- Calls do not change the target.
theorem issue_target (id : RequestId) (call : Call) : (m.issue id call).2.target = m.target := by
  cases issue_cases (m := m) id call
  case inl h => exact h.right.target
  case inr h =>
    have ⟨_, _, _, course, still⟩ := h
    exact still.target.trans course.session

theorem init_still (target : Target) : Still (m.prepared target) (m.init target) := by
  rw [init_eq]
  split <;> exact ⟨rfl, rfl, rfl, rfl, rfl, rfl⟩

-- The events that a step puts on the stream.
def emission (step : ServiceStep) (m : Memory) : List Event :=
  match step with
  | .call id call =>
    match m.outcome? id call with
    | none => []
    | some outcome =>
      outcome.fired.map .watch ++ if m.holding then [] else call.answer id outcome
  | .setState state => [.watch (.session state)]
  | .inject event => [event]
  | .release id => (m.held.find? (·.id = id)).toList.map .completion
  | .releaseAll => m.held.map .completion
  | _ => []

-- `m'` has the stream of `m` with some events behind it.
def Emits (m : Memory) (events : List Event) (m' : Memory) : Prop :=
  m'.channel = m.channel.map (· ++ events.map .event)

namespace Emits

variable {es es' : List Event}

theorem of_channel (h : m'.channel = m.channel) : Emits m [] m' := by
  unfold Emits
  rw [h]
  cases m.channel <;> simp

theorem trans (h : Emits m es m') (h' : Emits m' es' m'') : Emits m (es ++ es') m'' := by
  unfold Emits at *
  rw [h', h]
  cases m.channel <;> simp

theorem emit (event : Event) : Emits m [event] (m.emit event) :=
  rfl

theorem emitWatches (ws : List WatchEvent) : Emits m (ws.map .watch) (m.emitWatches ws) := by
  unfold Memory.emitWatches
  induction ws generalizing m
  case nil          => exact of_channel rfl
  case cons w ws ih => exact (emit (.watch w)).trans ih

theorem emitAll (cs : List CompletionEvent) :
    Emits m (cs.map .completion) (cs.foldl (fun m c => m.emit (.completion c)) m) := by
  induction cs generalizing m
  case nil          => exact of_channel rfl
  case cons c cs ih => exact (emit (.completion c)).trans ih

theorem complete (c : CompletionEvent) :
    Emits m (if m.holding then [] else [.completion c]) (m.complete c) := by
  unfold Memory.complete
  split
  case isTrue  => exact of_channel rfl
  case isFalse => exact emit _

-- What was set off comes before the answer of the call that did it.
theorem answered (id : RequestId) (call : Call) (outcome : Outcome) :
    Emits m (outcome.fired.map .watch ++ if m.holding then [] else call.answer id outcome)
      (m.answered id call outcome) := by
  have he := emitWatches (m := m) outcome.fired
  have hh : (m.emitWatches outcome.fired).holding = m.holding := by
    rw [(Talks.emitWatches outcome.fired).eq]
  unfold Memory.answered Call.answer
  cases call.mode
  case sync  => simpa using he
  case async => exact hh ▸ he.trans (complete _)

theorem issue (id : RequestId) (call : Call) :
    Emits m (m.emission (.call id call)) (m.issue id call).2 := by
  cases hs : m.serves
  case false =>
    have ⟨ho, hi⟩ := issue_refused hs id call
    simp only [emission, ho]
    rcases hi with hi | hi <;> rw [hi] <;> exact of_channel rfl
  case true =>
    have ⟨outcome, executed, ho, _, ⟨hc, hh⟩, hi⟩ := issue_course hs id call
    simp only [emission, ho, hi, ← hh]
    exact (of_channel hc).trans (answered id call outcome)

theorem release (id : RequestId) : Emits m (m.emission (.release id)) (m.release id).2 := by
  simp only [emission, Memory.release]
  cases m.held.find? (·.id = id)
  case none   => exact of_channel rfl
  case some c => exact emit (.completion c)

theorem releaseAll : Emits m (m.emission .releaseAll) m.releaseAll.2 :=
  emitAll m.held

end Emits

-- What a session starts with, next to its nodes.
structure Begins (m m' : Memory) : Prop where
  sessionId     : m'.sessionId = m.sessionId + 1
  dataWatches   : m'.dataWatches = []
  childWatches  : m'.childWatches = []
  held          : m'.held = []
  connectOnInit : m'.connectOnInit = m.connectOnInit

theorem init_begins (target : Target) : Begins m (m.init target) := by
  have ⟨nodes, zxid, h⟩ := m.prepared_keeps target
  rw [init_eq, h]
  split <;> exact ⟨rfl, rfl, rfl, rfl, rfl⟩

-- A session begins with an empty stream, but for the notice that it is there.
theorem init_stream (target : Target) : (m.init target).channel =
    some (if m.connectOnInit then [.event (.watch (.session .connected))] else []) := by
  have ⟨nodes, zxid, h⟩ := m.prepared_keeps target
  have hc : (m.prepared target).connectOnInit = m.connectOnInit := by rw [h]; rfl
  have hs : (m.prepared target).channel = some [] := by rw [h]; rfl
  rw [init_eq, hc]
  cases m.connectOnInit
  case false => exact hs
  case true  => simp [setState, emit, send, hs]

end Memory
end Coordination
