import Coordination.Proofs.Client.Books

namespace Coordination

-- A client, the handlers that are running, the innermost first, and what has become of every event
-- that was dispatched.
structure Traffic (ε : Type) where
  connection : Connection Memory (Callback ε)
  running : List (Invocation (Callback ε))
  history : List (Event × Option (Invocation (Callback ε)))

namespace Traffic

inductive Move (ε : Type)
  | submit (op : Operation) (o : CallOptions ε)
  | setState (state : ConnectionState)
  | hold (on : Bool)
  | release (id : RequestId)
  | releaseAll
  | connectOnInit (on : Bool)
  -- One item goes from the stream to the queue.
  | deliver
  | dispatch
  -- The innermost handler ends.
  | finish (outcome : Outcome)
  | reopen (timeout : Duration)

variable {ε : Type} {t : Traffic ε} {m : Move ε} {ms : List (Move ε)} {s : Slot}

def opened (target : Target) (config : Config) (m : Memory) (global : Entry (Callback ε))
    (timeout : Duration) : Traffic ε where
  connection := ((Connection.new target config m global).start timeout).2.1
  running := []
  history := []

def withBackend (m : Memory) (t : Traffic ε) : Traffic ε :=
  { t with connection.backend := m }

def step (t : Traffic ε) : Move ε → Traffic ε
  | .submit op o => { t with connection := (Client.submit op o t.connection).2 }
  | .setState state => t.withBackend (t.connection.backend.setState state)
  | .hold on => t.withBackend { t.connection.backend with holding := on }
  | .release id => t.withBackend (t.connection.backend.release id).2
  | .releaseAll => t.withBackend t.connection.backend.releaseAll.2
  | .connectOnInit on => t.withBackend { t.connection.backend with connectOnInit := on }
  | .deliver =>
    match t.connection.deliverOne with
    | none => t
    | some (c, _) => { t with connection := c }
  | .dispatch =>
    match t.connection.nextEvent with
    | (none, c) => { t with connection := c }
    | (some event, c) =>
      let (i, c) := c.enter event
      ⟨c, i.toList ++ t.running, (event, i) :: t.history⟩
  | .finish outcome =>
    match t.running with
    | [] => t
    | i :: rest => { t with connection := t.connection.leave i outcome, running := rest }
  | .reopen timeout => { t with connection := (t.connection.restart timeout).2.1 }

def run (t : Traffic ε) (ms : List (Move ε)) : Traffic ε :=
  ms.foldl step t

def tick (now : Int) (t : Traffic ε) : Traffic ε :=
  t.withBackend { t.connection.backend with clock := now }

-- A run in which the wall clock goes on, too: each move comes with its time.
def runAt (t : Traffic ε) (ms : List (Int × Move ε)) : Traffic ε :=
  ms.foldl (fun t m => (t.tick m.1).step m.2) t

theorem step_dispatch_none (h : t.connection.nextEvent.1 = none) :
    t.step .dispatch = { t with connection := t.connection.nextEvent.2 } := by
  simp only [step]
  split <;> simp_all

theorem step_dispatch_some {e : Event} {i : Invocation (Callback ε)}
    (h : t.connection.nextEvent.1 = some e) (hi : (t.connection.nextEvent.2.enter e).1 = some i) :
    t.step .dispatch =
      ⟨(t.connection.nextEvent.2.enter e).2, i :: t.running, (e, some i) :: t.history⟩ := by
  simp only [step]
  split <;> simp_all

-- How often the handler registered in a slot has been called.
def callsTo (s : Slot) (t : Traffic ε) : Nat :=
  (t.history.filterMap (·.2)).countP (·.slot = s)

structure Sound (t : Traffic ε) : Prop where
  connection : t.connection.Sound
  running    : ∀ i ∈ t.running, ∀ s, i.rearms s = false
  served     : ∀ e i, (e, i) ∈ t.history → i.map Invocation.slot = some e.slot
  once       : ∀ s, s.isSingleUse → t.callsTo s ≤ 1
  spent      : ∀ s, s.isSingleUse → 0 < t.callsTo s →
    s.id.number < t.connection.registry.nextId.number ∧ t.connection.registry.get? s = none

namespace Sound

-- Nothing is dispatched.
theorem of_precedes {c : Connection Memory (Callback ε)} (h : t.Sound) (hc : c.Sound)
    (hp : t.connection.registry.Precedes c.registry) : Sound { t with connection := c } where
  connection := hc
  running    := h.running
  served     := h.served
  once       := h.once
  spent s hs hp' := by
    have ⟨hl, ha⟩ := h.spent s hs hp'
    exact ⟨Int.lt_of_lt_of_le hl hp.nextId, hp.absent s hs hl ha⟩

theorem withBackend {m : Memory} {es : List Event} (h : t.Sound)
    (s : t.connection.backend.Sends m es)
    (he : ∀ e ∈ es, ∃ state, e = .watch (.session state)) : (t.withBackend m).Sound :=
  h.of_precedes (h.connection.withBackend s he) .refl

theorem callsTo_cons {c : Connection Memory (Callback ε)} {e : Event}
    {i : Invocation (Callback ε)} {running : List (Invocation (Callback ε))} :
    callsTo s ⟨c, running, (e, some i) :: t.history⟩ =
      t.callsTo s + if i.slot = s then 1 else 0 := by
  simp [callsTo, List.countP_cons]

theorem dispatch (h : t.Sound) : (t.step .dispatch).Sound := by
  have hm : Connection.Moves t.connection t.connection.nextEvent.2 := Connection.nextEvent_moves
  have hr : t.connection.nextEvent.2.registry = t.connection.registry :=
    congrArg Dispatcher.registry hm.dispatcher
  cases hn : t.connection.nextEvent.1
  case none =>
    rw [step_dispatch_none hn]
    exact h.of_precedes (h.connection.nextEvent_none hn) (.of_eq hr)
  case some e =>
    have ⟨i, hi, sv, hc⟩ := h.connection.enter hn
    have he (s : Slot) := Connection.get?_enter (c := t.connection.nextEvent.2) (e := e) (s := s)
    have hid := Connection.enter_nextId (c := t.connection.nextEvent.2) (e := e)
    have hw : t.connection.registry.get? i.slot = some i.entry :=
      hr ▸ Dispatcher.get?_of_start (Connection.enter_fst ▸ hi)
    rw [step_dispatch_some hn hi]
    simp only [hi, Option.any_some, hr] at he hid
    constructor
    case connection => exact hc
    case running =>
      intro j hj
      cases hj
      case head    => exact sv.rearms
      case tail hj => exact h.running j hj
    case served =>
      intro e' j hj
      cases hj
      case head    => exact congrArg some sv.slot
      case tail hj => exact h.served e' j hj
    case once =>
      intro s hs
      rw [callsTo_cons]
      split
      case isFalse  => exact h.once s hs
      case isTrue hi =>
        subst hi
        have hz : t.callsTo i.slot = 0 := by
          refine Nat.eq_zero_of_not_pos fun hp => ?_
          have := (h.spent _ hs hp).right
          simp [hw] at this
        omega
    case spent =>
      intro s hs hp
      rw [hid, he]
      by_cases hi : i.slot = s
      case pos =>
        subst hi
        have hl := h.connection.balanced.numbered i.slot hs (by simp [Connection.ledger, hw])
        exact ⟨hl.right, by simp [sv.consumes hs]⟩
      case neg =>
        rw [callsTo_cons, if_neg hi, Nat.add_zero] at hp
        have hg := h.spent s hs hp
        refine ⟨hg.left, ?_⟩
        split
        case isTrue  => rfl
        case isFalse => exact hg.right

theorem step (h : t.Sound) (m : Move ε) : (t.step m).Sound := by
  have ho := h.connection.isOpen
  cases m
  case submit op o =>
    have ⟨hc, hp⟩ := h.connection.submit op o
    exact h.of_precedes hc hp
  case setState state => exact h.withBackend (Memory.setState_sends ho state) fun _ he =>
      ⟨_, List.mem_singleton.mp he⟩
  case hold on => exact h.withBackend (Memory.hold_sends ho on) (by simp)
  case release id => exact h.withBackend (Memory.release_sends ho id) (by simp)
  case releaseAll => exact h.withBackend (Memory.releaseAll_sends ho) (by simp)
  case connectOnInit on => exact h.withBackend (Memory.connectOnInit_sends ho on) (by simp)
  case deliver =>
    simp only [Traffic.step]
    split
    case h_1 => exact h
    case h_2 hd =>
      have hr := congrArg Dispatcher.registry (Connection.deliverOne_moves hd).dispatcher
      exact h.of_precedes (h.connection.deliverOne hd) (.of_eq hr)
  case dispatch => exact h.dispatch
  case finish outcome =>
    simp only [Traffic.step]
    split
    case h_1 => exact h
    case h_2 i rest hl =>
      have hi := h.running i (by simp [hl])
      have hs := h.of_precedes (h.connection.leave hi outcome)
        (.of_eq <| Dispatcher.finish_registry hi outcome)
      exact { hs with running := fun j hj => h.running j (by simp [hl, hj]) }
  case reopen timeout =>
    have ⟨hc, hp⟩ := h.connection.restart timeout
    exact h.of_precedes hc hp

theorem run (h : t.Sound) (ms : List (Move ε)) : (t.run ms).Sound := by
  induction ms generalizing t
  case nil          => exact h
  case cons m ms ih => exact ih (h.step m)

theorem tick (h : t.Sound) (now : Int) : (t.tick now).Sound :=
  h.withBackend (Memory.clock_sends h.connection.isOpen now) (by simp)

theorem runAt (h : t.Sound) (ms : List (Int × Move ε)) : (t.runAt ms).Sound := by
  induction ms generalizing t
  case nil          => exact h
  case cons m ms ih => exact ih ((h.tick m.1).step m.2)

end Sound
end Traffic
end Coordination
